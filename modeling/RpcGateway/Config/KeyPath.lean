import RpcGateway.Config.Setting
import RpcGateway.Text.Ascii

/-!
# Key paths

The name of a setting may lead into nested settings: `a.b` is the entry `b` of the table `a`, and
`a[2]` is an item of the list `a`.  A name that is no such path is the key of an entry as it stands.

**Writing.**  What stands in the way of a path is replaced by a table or a list.  Writing a table
merges its entries into the table that is there; anything else replaces what is there.

**Origin.**  A table or a list that is written into keeps the source that it came from, and one that
is made on the way has none.
-/

namespace RpcGateway

inductive KeyStep
  | entry (key : String)
  /-- To an item of a list, counted from the end if negative. -/
  | item (index : Int)
  deriving DecidableEq, Repr

namespace KeyPath

def isKeyChar (c : Char) : Bool :=
  c.isAlphanum || c == ' ' || c == '_' || c == '-'

/-- A key at the front of a text, and what follows. -/
def key? (cs : List Char) : Option (String × List Char) :=
  let key := cs.takeWhile isKeyChar
  if key.isEmpty then none else some (String.ofList key, cs.dropWhile isKeyChar)

/-- A blank around the number of an item. -/
def isBlank (c : Char) : Bool :=
  c == ' ' || c == '\t'

/-- The number of an item: an integer of 64 bits without a plus sign. -/
def index? (cs : List Char) : Option Int :=
  if cs.head? = some '+' then none else Decimal.within? Decimal.minInt64 Decimal.maxInt64 cs

/-- The number of an item and the bracket behind it, at the front of a text. -/
def bracketed? (cs : List Char) : Option (Int × List Char) :=
  let inner := (cs.takeWhile (· != ']')).dropWhile isBlank
  match cs.dropWhile (· != ']'), index? (inner.reverse.dropWhile isBlank).reverse with
  | ']' :: rest, some n => some (n, rest)
  | _, _ => none

/-- The steps that a text spells; `fuel` is at least their number. -/
def steps? : Nat → List Char → Option (List KeyStep)
  | _, [] => some []
  | 0, _ :: _ => none
  | fuel + 1, '.' :: cs =>
      match key? cs with
      | some (key, rest) => (steps? fuel rest).map (.entry key :: ·)
      | none => none
  | fuel + 1, '[' :: cs =>
      match bracketed? cs with
      | some (n, rest) => (steps? fuel rest).map (.item n :: ·)
      | none => none
  | _ + 1, _ => none

/-- The first key of a name and the steps behind it. -/
def ofName (name : String) : String × List KeyStep :=
  match key? name.toList with
  | none => (name, [])
  | some (key, rest) =>
      match steps? rest.length rest with
      | some steps => (key, steps)
      | none => (name, [])

end KeyPath

namespace Setting

/-- The source of a table, and none of anything else. -/
def tableOrigin? : Setting → Option String
  | .table origin _ => origin
  | _ => none

/-- The source of a list, and none of anything else. -/
def listOrigin? : Setting → Option String
  | .array origin _ => origin
  | _ => none

mutual

/-- What a setting becomes when another is written to its place. -/
def merged (old : Option Setting) : Setting → Setting
  | .scalar origin v => .scalar origin v
  | .array origin items => .array origin items
  | .table _ incoming => mergedEntries (old.getD emptyTable) incoming

/-- What a setting becomes when entries are written into it. -/
def mergedEntries (target : Setting) : Entries → Setting
  | [] => target
  | (key, s) :: rest =>
      let es := target.entries
      mergedEntries
        (.table (tableOrigin? target) (Keyed.put key (merged (es.lookup key) s) es)) rest

end

/-- The place of an item among so many. -/
def place (index : Int) (length : Nat) : Nat :=
  if index < 0 then length - index.natAbs else index.natAbs

/-- Replaces an item, behind missing ones if there are not enough. -/
def putItem (i : Nat) (s : Setting) (xs : List Setting) : List Setting :=
  (xs ++ List.replicate (i + 1 - xs.length) (ofScalar .nothing)).set i s

/-- What a setting becomes when another is written at the end of some steps. -/
def written (value : Setting) : List KeyStep → Option Setting → Setting
  | [], old => merged old value
  | [.item n], old =>
      let xs := (old.map items).getD []
      .array (old.bind listOrigin?) (putItem (place n xs.length) value xs)
  | .entry key :: rest, old =>
      let es := (old.map entries).getD []
      .table (old.bind tableOrigin?) (Keyed.put key (written value rest (es.lookup key)) es)
  | .item n :: step :: rest, old =>
      let xs := (old.map items).getD []
      let i := place n xs.length
      .array (old.bind listOrigin?) (putItem i (written value (step :: rest) xs[i]?) xs)

/-- Writes a named setting into a table. -/
def assign (es : Entries) (named : String × Setting) : Entries :=
  let (key, steps) := KeyPath.ofName (Ascii.lower named.1)
  Keyed.put key (written named.2 steps (es.lookup key)) es

/-- Writes the settings of a source over those that are there. -/
def layered (es source : Entries) : Entries :=
  source.foldl assign es

end Setting
end RpcGateway
