import RpcGateway.Http.HeaderMap
import RpcGateway.Metadata.Basic

/-!
# Metadata as header lines

Call metadata goes back to the HTTP caller as header lines, one line for every value.  A header key
keeps its name, a trailer key is marked by a fixed beginning.  Keys that are not header names and
values that may not stand in a header line are left out.
-/

namespace RpcGateway

/-- What the name of a trailer line begins with. -/
def trailerMark : String := "grpc-trailer-"

namespace HeaderMap

/-- Adds a line for every legal value of a key. -/
def appendLines (h : HeaderMap) (key : String) (values : List String) : HeaderMap :=
  match headerName? key with
  | none => h
  | some name => (values.filterMap HeaderValue.ofText?).foldl (fun h v => h.append name v) h

end HeaderMap

namespace CallMetadata

/-- Adds the metadata behind the lines that are there. -/
def writeLines (m : CallMetadata) (h : HeaderMap) : HeaderMap :=
  let h := m.header.entries.foldl (fun h e => h.appendLines e.1 e.2) h
  m.trailer.entries.foldl (fun h e => h.appendLines (trailerMark ++ e.1) e.2) h

def toHeaders (m : CallMetadata) : HeaderMap :=
  m.writeLines .empty

end CallMetadata
end RpcGateway
