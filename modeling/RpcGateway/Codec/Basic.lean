import RpcGateway.Json.Parser
import RpcGateway.Json.Printer

/-!
# Codecs

A codec turns the bytes of a payload into a value tree and back, and names the media type of what it
writes.  The JSON codec writes compact or indented text.
-/

namespace RpcGateway

/-- Why a payload cannot be read or written. -/
inductive CodecFault
  /-- The bytes are not of the media type. -/
  | malformed (contentType reason : String)
  /-- The value does not have the shape of the message. -/
  | shape (reason : String)
  /-- The value cannot be written in the media type. -/
  | encoding (contentType reason : String)
  deriving DecidableEq, Repr

def CodecFault.message : CodecFault → String
  | .malformed contentType reason => s!"malformed {contentType} payload: {reason}"
  | .shape reason => s!"payload does not match message shape: {reason}"
  | .encoding contentType reason => s!"failed to encode {contentType} payload: {reason}"

/-- Reads and writes the payloads of a media type. -/
structure Codec where
  /-- The media type of what is written. -/
  contentType : String
  /-- Reads a payload. -/
  decode : List UInt8 → Except CodecFault Json.Value
  /-- Writes a payload. -/
  encode : Json.Value → Except CodecFault (List UInt8)

namespace Codec

def jsonType : String := "application/json"

/-- Reads a JSON payload. -/
def decodeJson (bytes : List UInt8) : Except CodecFault Json.Value :=
  match Json.parse bytes with
  | .ok v => .ok v
  | .error f => .error (.malformed jsonType f.message)

/-- The JSON codec, compact or indented. -/
def json (indented : Bool) : Codec where
  contentType := jsonType
  decode := decodeJson
  encode v := .ok (v.bytes indented)

end Codec
end RpcGateway
