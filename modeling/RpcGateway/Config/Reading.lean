import RpcGateway.Config.Basic
import RpcGateway.Config.Setting
import RpcGateway.Text.LowerCase

/-!
# Reading the configuration from settings

Every member of the configuration is read from the setting of its key.  Scalars are converted
generously: a text member takes any scalar, a number member takes numbers, truth values and
numerals, a truth value takes numbers and the usual words.

**Complaints.**  A setting that does not convert is described together with its key and its source.
-/

namespace RpcGateway

namespace Setting

/-- The complaint about a setting of a wrong kind. -/
def complaint (found expected key : String) (origin : Option String) : String :=
  let place := match origin with
    | some o => " in " ++ o
    | none => ""
  s!"invalid type: {found}, expected {expected} for key `{key}`{place}"

/-- The complaint about a setting that cannot be what is expected. -/
def refused (s : Setting) (expected key : String) : String :=
  complaint s.found expected key s.origin?

def readText (key : String) (s : Setting) : Except String String :=
  match s with
  | .scalar _ v =>
      match v.text? with
      | some t => .ok t
      | none => .error (s.refused "a string" key)
  | _ => .error (s.refused "a string" key)

def readOptionalText (key : String) (s : Setting) : Except String (Option String) :=
  match s with
  | .scalar _ .nothing => .ok none
  | _ => (readText key s).map some

/-- The words for a truth value, one aside. -/
def truth? (word : String) : Option Bool :=
  if word = "true" ∨ word = "on" ∨ word = "yes" then some true
  else if word = "false" ∨ word = "off" ∨ word = "no" then some false
  else none

/-- A floating-point number as a 64-bit unsigned integer: rounded, a half going up, and cut to the
range. -/
def countOfReal (x : Binary64) : Nat :=
  if x.isNaN then 0
  else if x.isNegative then 0
  else if x.isInfinite then Decimal.maxUInt64
  else min x.roundMagnitude Decimal.maxUInt64

/-- Reads a 64-bit unsigned integer. -/
def readCount (key : String) (s : Setting) : Except String Nat :=
  match s with
  | .scalar _ (.flag b) => .ok (if b then 1 else 0)
  | .scalar _ (.whole n) =>
      if 0 ≤ n then .ok n.toNat
      else .error (s.refused "an unsigned 64 bit or less integer" key)
  | .scalar _ (.real x) => .ok (countOfReal x)
  | .scalar _ (.text t) =>
      match truth? (LowerCase.lower t), Decimal.unsigned? Decimal.maxUInt64 t.toList with
      | some b, _ => .ok (if b then 1 else 0)
      | none, some n => .ok n
      | none, none => .error (s.refused "an integer" key)
  | _ => .error (s.refused "an integer" key)

/-- Reads a truth value from a text. -/
def readFlagText (key : String) (origin : Option String) (text : String) : Except String Bool :=
  let word := LowerCase.lower text
  if word = "1" then .ok true
  else if word = "0" then .ok false
  else
    match truth? word with
    | some b => .ok b
    | none => .error (complaint ("string " ++ Quoted.quote word) "a boolean" key origin)

/-- Reads a truth value. -/
def readFlag (key : String) (s : Setting) : Except String Bool :=
  match s with
  | .scalar _ (.flag b) => .ok b
  | .scalar _ (.whole n) => .ok (n != 0)
  | .scalar _ (.real x) => .ok (x.isNaN || x.isInfinite || x.significand != 0)
  | .scalar origin (.text t) => readFlagText key origin t
  | _ => .error (s.refused "a boolean" key)

/-- Reads the texts of a list, the first of which has a given number. -/
def readTexts (key : String) : Nat → List Setting → Except String (List String)
  | _, [] => .ok []
  | i, s :: rest =>
      match readText s!"{key}[{Decimal.text i}]" s with
      | .error e => .error e
      | .ok t => (readTexts key (i + 1) rest).map (t :: ·)

/-- A floating-point number with a point. -/
def pointedReal (x : Binary64) : String :=
  let cs := x.positional
  String.ofList (if cs.contains '.' then cs else cs ++ ['.', '0'])

/-- What a setting is, where a list was expected. -/
def foundForList : Setting → String
  | .scalar _ (.whole n) => s!"integer `{Decimal.text n}`"
  | .scalar _ (.real x) => s!"floating point `{pointedReal x}`"
  | s => s.found

def readTextList (key : String) (s : Setting) : Except String (List String) :=
  match s with
  | .array _ xs => readTexts key 0 xs
  | _ => .error s!"invalid type: {s.foundForList}, expected a sequence"

/-- Reads the setting of a key, if there is one. -/
def readOr {α : Type} (es : Entries) (key : String) (read : String → Setting → Except String α)
    (absent : α) : Except String α :=
  match es.lookup key with
  | some s => read key s
  | none => .ok absent

end Setting

namespace GatewayConfig

/-- Reads a configuration from settings; what is not set is as in the standard one. -/
def ofSettings (es : Setting.Entries) : Except String GatewayConfig := do
  let id ← Setting.readOr es "id" Setting.readText standard.id
  let listen ← Setting.readOr es "listen_addr" Setting.readText standard.listenAddress
  let endpoint ←
    Setting.readOr es "upstream_endpoint" Setting.readOptionalText standard.remoteEndpoint
  let request ←
    Setting.readOr es "request_timeout_ms" Setting.readCount standard.requestTimeoutMs
  let connect ←
    Setting.readOr es "connect_timeout_ms" Setting.readCount standard.connectTimeoutMs
  let body ← Setting.readOr es "max_body_bytes" Setting.readCount standard.maxBodyBytes
  let pretty ← Setting.readOr es "pretty_json" Setting.readFlag standard.prettyJson
  let reserved ←
    Setting.readOr es "reserved_headers" Setting.readTextList standard.reservedHeaders
  return ⟨id, listen, endpoint, request, connect, body, pretty, reserved⟩

end GatewayConfig
end RpcGateway
