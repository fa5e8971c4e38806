import RpcGateway.Codec.PathBinding
import RpcGateway.Message.Basic
import RpcGateway.Text.Ascii

/-!
# Messages in payloads

`decodeMessage` builds a request message from a body and the path parameters, `encodeMessage` writes
a response message.

**Blank bodies.**  A body of blanks only is the empty object; without parameters it is the zero
message whatever the codec and the type.
-/

namespace RpcGateway
namespace Codec

/-- Whether a body has no content. -/
def isBlank (body : List UInt8) : Bool :=
  body.all Ascii.isBlankByte

/-- The value tree of a body, before the parameters are bound. -/
def decodeBody (codec : Codec) (body : List UInt8) : Except CodecFault Json.Value :=
  if isBlank body then .ok (.object []) else codec.decode body

/-- Builds a message from a body and the path parameters. -/
def decodeMessage (codec : Codec) (t : MessageType) (body : List UInt8) (params : PathParams) :
    Except CodecFault Message :=
  if isBlank body && params.isEmpty then .ok (Message.zero t)
  else do
    let v ← decodeBody codec body
    let v ← PathBinding.bindAll v params
    match Message.ofValue t v with
    | .ok m => .ok m
    | .error reason => .error (.shape reason)

def encodeMessage (codec : Codec) (m : Message) : Except CodecFault (List UInt8) :=
  match m.toJson with
  | .ok v => codec.encode v
  | .error reason => .error (.encoding codec.contentType reason)

end Codec
end RpcGateway
