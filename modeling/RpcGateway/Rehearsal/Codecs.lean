import RpcGateway.Codec.Negotiation

/-!
# Codecs for rehearsals

Codecs that behave in ways the JSON codec does not: one that marks its payloads, one that never
writes, one that writes errors only, and JSON under another media type.
-/

namespace RpcGateway
namespace Rehearsal

/-- Payloads that begin with a mark. -/
def taggedCodec : Codec where
  contentType := "application/x-tagged"
  decode bytes :=
    match (Utf8.bytes "T:").isPrefixOf? bytes with
    | some rest => Codec.decodeJson rest
    | none => .error (.shape "missing tag")
  encode v := .ok (Utf8.bytes "T:" ++ v.bytes false)

/-- Reads anything as a null and writes nothing. -/
def brokenCodec : Codec where
  contentType := "application/broken"
  decode _ := .ok .null
  encode _ := .error (.shape "always fails")

/-- Whether a value is an object with a code. -/
def hasCode : Json.Value → Bool
  | .object ms => (Json.Members.get? "code" ms).isSome
  | _ => false

/-- Writes error envelopes only. -/
def errorsOnlyCodec : Codec where
  contentType := "application/errors-only"
  decode := Codec.decodeJson
  encode v := if hasCode v then .ok (v.bytes false) else .error (.shape "cannot encode")

/-- JSON under another media type. -/
def labelledCodec (contentType : String) : Codec :=
  { Codec.json false with contentType := contentType }

def codecOfName (name : String) : Codec :=
  match "label:".toList.isPrefixOf? name.toList with
  | some label => labelledCodec (String.ofList label)
  | none =>
      match name with
      | "pretty" => Codec.json true
      | "tagged" => taggedCodec
      | "broken" => brokenCodec
      | "errors-only" => errorsOnlyCodec
      | _ => Codec.json false

end Rehearsal
end RpcGateway
