import RpcGateway.Config.Setting

/-!
# TOML tables

While a TOML text is read, its tables are kept as nodes that remember how they came about.

**Tables.**  A table may be given by a header, be implied by the header of a table within it, or be
implied by a key with points.  A header makes an implied table its own, once; a key with points
leads only through tables that keys with points have implied.
-/

namespace RpcGateway
namespace Toml

inductive TableKind
  | headed
  /-- By the header of a table within it. -/
  | implied
  /-- By a key with points. -/
  | dotted
  deriving DecidableEq, Repr

inductive Node
  | value (s : Setting)
  | table (kind : TableKind) (entries : List (String × Node))
  /-- A list of tables, each given by a header. -/
  | tables (items : List (List (String × Node)))

namespace Node

abbrev Entries := Keyed Node

/-- What can be done at the end of a path. -/
abbrev Edit := TableKind → Entries → Option Entries

/-- Goes along a path of keys and edits the table at its end. -/
def descend (viaDots : Bool) (edit : Edit) : List String → Edit
  | [], kind, es => edit kind es
  | key :: path, _, es =>
      match es.lookup key with
      | none =>
          let kind : TableKind := if viaDots then .dotted else .implied
          (descend viaDots edit path kind []).map fun sub => Keyed.put key (.table kind sub) es
      | some (.table kind sub) =>
          if viaDots && kind == .headed then none
          else
            (descend viaDots edit path kind sub).map fun sub => Keyed.put key (.table kind sub) es
      | some (.tables items) =>
          match items.getLast? with
          | none => none
          | some sub =>
              (descend viaDots edit path .headed sub).map fun sub =>
                Keyed.put key (.tables (items.dropLast ++ [sub])) es
      | some (.value _) => none

/-- Goes along a path of keys from a table that a header gave. -/
def along (viaDots : Bool) (path : List String) (edit : Edit) (es : Entries) : Option Entries :=
  descend viaDots edit path .headed es

/-- Gives a new key a value; the path of its other parts may lead to a table of its kind only. -/
def addValue (path : List String) (key : String) (v : Setting) : Edit := fun kind es =>
  if (kind == .dotted) == path.isEmpty then none
  else if (es.lookup key).isSome then none
  else some (Keyed.put key (.value v) es)

def addTable (key : String) : Edit := fun _ es =>
  match es.lookup key with
  | none => some (Keyed.put key (.table .headed []) es)
  | some (.table .implied sub) => some (Keyed.put key (.table .headed sub) es)
  | some _ => none

def addToTables (key : String) : Edit := fun _ es =>
  match es.lookup key with
  | none => some (Keyed.put key (.tables [[]]) es)
  | some (.tables items) => some (Keyed.put key (.tables (items ++ [[]])) es)
  | some _ => none

mutual

def setting : Node → Setting
  | .value s => s
  | .table _ es => .table none (settings es)
  | .tables items => .array none (tableSettings items)

def settings : Entries → Setting.Entries
  | [] => []
  | (k, n) :: rest => (k, setting n) :: settings rest

def tableSettings : List Entries → List Setting
  | [] => []
  | es :: rest => .table none (settings es) :: tableSettings rest

end

end Node
end Toml
end RpcGateway
