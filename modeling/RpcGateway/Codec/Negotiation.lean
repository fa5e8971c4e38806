import RpcGateway.Codec.Basic
import RpcGateway.Http.HeaderMap
import RpcGateway.Text.Blank

/-!
# Content negotiation

A table of codecs by media type, and a fallback.  The inbound codec follows `Content-Type`, the
outbound one the first entry of `Accept` that is registered, then the inbound choice.
-/

namespace RpcGateway

/-- The name under which the fallback is registered. -/
def anyMediaType : String := "*"

/-- The codecs by media type. -/
structure CodecTable where
  /-- The registrations, the latest first. -/
  entries : List (String × Codec) := []
  /-- The codec that is used when nothing else is chosen. -/
  fallback : Codec := Codec.json false

namespace CodecTable

def standard : CodecTable := ⟨[], Codec.json false⟩

/-- Registers a codec under a media type, or as the fallback. -/
def register (t : CodecTable) (mediaType : String) (codec : Codec) : CodecTable :=
  if mediaType = anyMediaType then { t with fallback := codec }
  else { t with entries := (Ascii.lower mediaType, codec) :: t.entries }

/-- Registers codecs one after another. -/
def registerAll (t : CodecTable) (cs : List (String × Codec)) : CodecTable :=
  cs.foldl (fun t c => t.register c.1 c.2) t

/-- The media type without parameters and blanks, in lower case. -/
def essence (mediaType : List Char) : String :=
  Ascii.lower (String.ofList (Blank.trim (mediaType.takeWhile (· != ';'))))

def select? (t : CodecTable) (mediaType : List Char) : Option Codec :=
  t.entries.lookup (essence mediaType)

def texts (headers : HeaderMap) (name : String) : List String :=
  (headers.getAll name).filterMap HeaderValue.text?

/-- The codec for the body of a request. -/
def inbound (t : CodecTable) (headers : HeaderMap) : Codec :=
  ((texts headers "content-type").findSome? fun v => t.select? v.toList).getD t.fallback

/-- The codec for the body of the response. -/
def outbound (t : CodecTable) (headers : HeaderMap) : Codec :=
  (((texts headers "accept").flatMap fun v => v.toList.splitOn ',').findSome? t.select?).getD
    (t.inbound headers)

end CodecTable
end RpcGateway
