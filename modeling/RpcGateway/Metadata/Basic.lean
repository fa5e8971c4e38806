import RpcGateway.Collection.Keyed
import RpcGateway.Text.Ascii

/-!
# Call metadata

Metadata is a multimap of texts.  Keys compare without regard to ASCII letter case and are kept in
lower case, in the order in which they first came; the values of a key keep the order in which they
were added.

**Merging.**  Everything is added, nothing is replaced: `extend` adds every value of another map,
key by key, and `join` merges a list of maps.

**Calls.**  The metadata of a call has two parts, the header that comes before the response and the
trailer that comes after it.  `collapsed` makes one part of them.
-/

namespace RpcGateway

/-- An ordered multimap of texts. -/
structure Metadata where
  entries : Keyed (List String) := []
  deriving DecidableEq, Repr

namespace Metadata

/-- The map without keys. -/
def empty : Metadata := ⟨[]⟩

/-- Whether there is no key. -/
def isEmpty (m : Metadata) : Bool :=
  m.entries.isEmpty

/-- The number of keys. -/
def size (m : Metadata) : Nat :=
  m.entries.length

def append (m : Metadata) (key value : String) : Metadata :=
  ⟨Keyed.append (Ascii.lower key) value m.entries⟩

/-- The values of a key, in order. -/
def getAll (m : Metadata) (key : String) : List String :=
  (m.entries.lookup (Ascii.lower key)).getD []

/-- The first value of a key. -/
def get? (m : Metadata) (key : String) : Option String :=
  (m.getAll key).head?

/-- The map without a key. -/
def erase (m : Metadata) (key : String) : Metadata :=
  ⟨m.entries.eraseP fun e => e.1 == Ascii.lower key⟩

/-- Removes a key, and gives its values. -/
def remove (m : Metadata) (key : String) : List String × Metadata :=
  let taken := Keyed.takeOut (Ascii.lower key) m.entries
  (taken.1.getD [], ⟨taken.2⟩)

/-- All pairs of a key and a value, key by key. -/
def pairs (m : Metadata) : List (String × String) :=
  m.entries.flatMap fun e => e.2.map fun v => (e.1, v)

/-- Adds pairs one after another. -/
def appendAll (m : Metadata) (ps : List (String × String)) : Metadata :=
  ps.foldl (fun m p => m.append p.1 p.2) m

/-- Adds every value of another map. -/
def extend (m other : Metadata) : Metadata :=
  m.appendAll other.pairs

/-- Merges maps, in order. -/
def join (ms : List Metadata) : Metadata :=
  ms.foldl extend empty

/-- The map of some pairs. -/
def ofList (ps : List (String × String)) : Metadata :=
  empty.appendAll ps

theorem remove_eq (m : Metadata) (key : String) :
    m.remove key = (m.getAll key, m.erase key) := by
  unfold remove
  rw [Keyed.takeOut_eq]
  rfl

end Metadata

structure CallMetadata where
  /-- What comes before the response. -/
  header : Metadata := .empty
  /-- What comes after the response. -/
  trailer : Metadata := .empty
  deriving DecidableEq, Repr

namespace CallMetadata

def empty : CallMetadata := ⟨.empty, .empty⟩

/-- Whether both parts are empty. -/
def isEmpty (m : CallMetadata) : Bool :=
  m.header.isEmpty && m.trailer.isEmpty

/-- Adds other metadata, part by part. -/
def merge (m added : CallMetadata) : CallMetadata :=
  ⟨m.header.extend added.header, m.trailer.extend added.trailer⟩

/-- Makes the trailer a part of the header. -/
def collapsed (m : CallMetadata) : CallMetadata :=
  ⟨m.header.extend m.trailer, .empty⟩

def withHeader (m : CallMetadata) (key value : String) : CallMetadata :=
  { m with header := m.header.append key value }

def withTrailer (m : CallMetadata) (key value : String) : CallMetadata :=
  { m with trailer := m.trailer.append key value }

end CallMetadata
end RpcGateway
