import RpcGateway.Collection.Keyed
import RpcGateway.Text.Ascii
import RpcGateway.Text.Utf8

/-!
# HTTP header maps

A header map holds header lines grouped by name, the names in the order in which they first came
and the values of a name in the order in which they were added.

**Names and values.**  A name is a token and is kept in lower case.  A value is a byte string
without controls, TAB apart; it shows as text when all its bytes are visible ASCII.
-/

namespace RpcGateway

abbrev HeaderValue := List UInt8

namespace HeaderValue

/-- Whether bytes may stand in a header line. -/
def isLegal (bytes : List UInt8) : Bool :=
  bytes.all Ascii.isHeaderByte

/-- The value that a text makes, if it may stand in a header line. -/
def ofText? (s : String) : Option HeaderValue :=
  let bytes := Utf8.bytes s
  if isLegal bytes then some bytes else none

/-- The text of a value of visible ASCII. -/
def text? (v : HeaderValue) : Option String :=
  if v.all Ascii.isVisible then some (String.ofList (v.map fun b => Char.ofNat b.toNat)) else none

/-- A byte as it is shown between quotes. -/
def listingByte (b : UInt8) : List Char :=
  if b = 34 then ['\\', '"']
  else if Ascii.isVisible b then [Char.ofNat b.toNat]
  else ['\\', 'x'] ++ Nat.toDigits 16 b.toNat

/-- The value between quotes, with a code for every byte that does not show as text. -/
def listing (v : HeaderValue) : String :=
  String.ofList ('"' :: (v.flatMap listingByte ++ ['"']))

end HeaderValue

/-- The name of a header line in lower case, if the text is a token. -/
def headerName? (s : String) : Option String :=
  if Ascii.isToken s.toList then some (Ascii.lower s) else none

/-- Header lines grouped by name. -/
structure HeaderMap where
  /-- The values of every name, names in the order in which they first came. -/
  groups : Keyed (List HeaderValue) := []
  deriving DecidableEq, Repr

namespace HeaderMap

/-- The map without lines. -/
def empty : HeaderMap := ⟨[]⟩

/-- Adds a line. -/
def append (h : HeaderMap) (name : String) (value : HeaderValue) : HeaderMap :=
  ⟨Keyed.append name value h.groups⟩

/-- Makes a line the only one of its name, in the place of the others. -/
def insert (h : HeaderMap) (name : String) (value : HeaderValue) : HeaderMap :=
  ⟨Keyed.put name [value] h.groups⟩

/-- The values of a name, in order. -/
def getAll (h : HeaderMap) (name : String) : List HeaderValue :=
  (h.groups.lookup name).getD []

def get? (h : HeaderMap) (name : String) : Option HeaderValue :=
  (h.getAll name).head?

/-- All lines, grouped by name. -/
def lines (h : HeaderMap) : List (String × HeaderValue) :=
  h.groups.flatMap fun g => g.2.map fun v => (g.1, v)

/-- Adds a line given as two texts; a bad name or value makes no line. -/
def appendText (h : HeaderMap) (name value : String) : HeaderMap :=
  match headerName? name, HeaderValue.ofText? value with
  | some n, some v => h.append n v
  | _, _ => h

/-- Adding a line adds its value behind those of its name and touches no other name. -/
theorem getAll_append (h : HeaderMap) (name other : String) (value : HeaderValue) :
    (h.append name value).getAll other =
      if other = name then h.getAll name ++ [value] else h.getAll other := by
  unfold getAll append
  rw [Keyed.lookup_append]
  split <;> simp

end HeaderMap
end RpcGateway
