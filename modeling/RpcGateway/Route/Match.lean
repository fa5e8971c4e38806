import RpcGateway.Codec.PathBinding
import RpcGateway.Route.Template
import RpcGateway.Text.Ascii

/-!
# Matching paths

A path matches a template when its raw segments are those of the template one by one.  Literals are
compared as they stand; what a capture binds is percent-decoded, and a segment that does not decode
to UTF-8 does not match.

**Escapes.**  A percent sign with two hexadecimal digits stands for a byte; any other percent sign
stands for itself.
-/

namespace RpcGateway
namespace PercentCoding

/-- The value of a hexadecimal digit byte. -/
def hexValue? (b : UInt8) : Option Nat :=
  Ascii.hexValue? (Char.ofNat b.toNat)

/-- The byte that two digits stand for. -/
def escaped? (hi lo : UInt8) : Option UInt8 :=
  match hexValue? hi, hexValue? lo with
  | some h, some l => some (UInt8.ofNat (h * 16 + l))
  | _, _ => none

/-- The bytes with their escapes resolved. -/
def decodeBytes : List UInt8 → List UInt8
  | b :: hi :: lo :: rest =>
      match if b = 37 then escaped? hi lo else none with
      | some v => v :: decodeBytes rest
      | none => b :: decodeBytes (hi :: lo :: rest)
  | bs => bs

/-- The text of a raw segment, if it decodes to UTF-8. -/
def decode? (raw : List Char) : Option String :=
  Utf8.text? (decodeBytes (Utf8.encode raw))

end PercentCoding

namespace RouteTemplate

/-- The bindings that the segments of a template make on raw segments. -/
def matchSegments : List Segment → List (List Char) → Option PathParams
  | [], [] => some []
  | [], _ :: _ => none
  | _ :: _, [] => none
  | .literal text :: segments, raw :: rest =>
      if raw = text.toList then matchSegments segments rest else none
  | .capture name :: segments, raw :: rest =>
      if raw.isEmpty then none
      else
        match PercentCoding.decode? raw with
        | none => none
        | some value => (matchSegments segments rest).map ((name, value) :: ·)
  | .captureRest name :: segments, raw :: rest =>
      if (raw :: rest).any List.isEmpty then none
      else
        match (raw :: rest).mapM PercentCoding.decode? with
        | none => none
        | some values =>
            (matchSegments segments []).map ((name, String.intercalate "/" values) :: ·)

/-- A path without the custom verb of the template and its colon. -/
def withoutCustomVerb (customVerb : Option String) (rest : List Char) : Option (List Char) :=
  match customVerb with
  | none => some rest
  | some v => (':' :: v.toList).isSuffixOf? rest

/-- The bindings of a path, if the verb and the path match. -/
def match? (t : RouteTemplate) (verb path : String) : Option PathParams :=
  if verb ≠ t.verb.text then none
  else
    match path.toList with
    | '/' :: rest =>
        match withoutCustomVerb t.customVerb rest with
        | none => none
        | some rest =>
            if t.segments.isEmpty then if rest.isEmpty then some [] else none
            else matchSegments t.segments (rest.splitOn '/')
    | _ => none

end RouteTemplate
end RpcGateway
