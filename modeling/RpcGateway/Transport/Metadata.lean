import RpcGateway.Http.HeaderMap
import RpcGateway.Metadata.Bridge

/-!
# Metadata on the wire

Metadata travels as header lines.  A key that is no header name, or that is reserved for binary
values by its ending, does not travel, nor does a value that no header line can carry.

**Reading.**  Header lines that describe the framing of a message are no metadata, and a value that
does not show as text is left out.
-/

namespace RpcGateway
namespace WireMetadata

/-- What the key of a binary value ends with. -/
def binaryEnding : String := "-bin"

/-- Whether a key is for binary values. -/
def isBinary (key : String) : Bool :=
  binaryEnding.toList.isSuffixOf key.toList

/-- Whether a key travels. -/
def isWritable (key : String) : Bool :=
  Ascii.isToken key.toList && !isBinary key

/-- Adds the values of one key that a header line can carry. -/
def writeKey (h : HeaderMap) (key : String) (values : List String) : HeaderMap :=
  if isWritable key then
    (values.filterMap HeaderValue.ofText?).foldl (fun h v => h.append (Ascii.lower key) v) h
  else h

/-- Writes metadata behind the lines that are there. -/
def write (h : HeaderMap) (m : Metadata) : HeaderMap :=
  m.entries.foldl (fun h e => writeKey h e.1 e.2) h

/-- Whether a header line describes the framing of a message. -/
def isFraming (name : String) : Bool :=
  "grpc-".toList.isPrefixOf name.toList || name == "date" || framingHeaders.contains name

def readLine (m : Metadata) (line : String × HeaderValue) : Metadata :=
  if isBinary line.1 || isFraming line.1 then m
  else
    match HeaderValue.text? line.2 with
    | some value => m.append line.1 value
    | none => m

/-- The metadata that header lines carry. -/
def read (h : HeaderMap) : Metadata :=
  h.lines.foldl readLine .empty

end WireMetadata
end RpcGateway
