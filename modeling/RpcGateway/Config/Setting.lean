import RpcGateway.Collection.Keyed
import RpcGateway.Json.Basic
import RpcGateway.Number.Shortest
import RpcGateway.Text.Quoted

/-!
# Settings

A configuration source is a tree of settings: scalars, lists, and tables of named settings.

**Origin.**  A setting knows the source that it came from, so that a complaint can name it.  A table
that was merged from several sources has none.
-/

namespace RpcGateway

/-- A single value in a configuration source. -/
inductive Scalar
  | nothing
  /-- A truth value. -/
  | flag (b : Bool)
  | whole (n : Int)
  /-- A floating-point number. -/
  | real (x : Binary64)
  | text (s : String)
  deriving DecidableEq, Repr

inductive Setting
  | scalar (origin : Option String) (value : Scalar)
  | array (origin : Option String) (items : List Setting)
  | table (origin : Option String) (entries : List (String × Setting))
  deriving Inhabited

/-- The word for a truth value. -/
def Scalar.flagText (b : Bool) : String :=
  if b then "true" else "false"

/-- The text of a scalar, unless it is none. -/
def Scalar.text? : Scalar → Option String
  | .nothing => none
  | .flag b => some (flagText b)
  | .whole n => some (Decimal.text n)
  | .real x => some (String.ofList x.positional)
  | .text s => some s

/-- What a scalar is, in a complaint. -/
def Scalar.found : Scalar → String
  | .nothing => "unit value"
  | .flag b => s!"boolean `{flagText b}`"
  | .whole n => s!"64-bit integer `{Decimal.text n}`"
  | .real x => s!"floating point `{String.ofList x.positional}`"
  | .text s => "string " ++ Quoted.quote s

namespace Setting

/-- A table of named settings. -/
abbrev Entries := Keyed Setting

/-- A scalar of no known source. -/
def ofScalar (v : Scalar) : Setting :=
  .scalar none v

/-- What a setting is, in a complaint. -/
def found : Setting → String
  | .scalar _ v => v.found
  | .array _ _ => "sequence"
  | .table _ _ => "map"

def origin? : Setting → Option String
  | .scalar origin _ => origin
  | .array origin _ => origin
  | .table origin _ => origin

/-- The table without entries. -/
def emptyTable : Setting :=
  .table none []

mutual

/-- Marks a tree with the source that it came from. -/
def comingFrom (origin : String) : Setting → Setting
  | .scalar _ v => .scalar (some origin) v
  | .array _ items => .array (some origin) (itemsComingFrom origin items)
  | .table _ entries => .table (some origin) (entriesComingFrom origin entries)

def itemsComingFrom (origin : String) : List Setting → List Setting
  | [] => []
  | s :: rest => comingFrom origin s :: itemsComingFrom origin rest

/-- Marks the settings of a table. -/
def entriesComingFrom (origin : String) : Entries → Entries
  | [] => []
  | (k, s) :: rest => (k, comingFrom origin s) :: entriesComingFrom origin rest

end

/-- The entries of a table, and none of anything else. -/
def entries : Setting → Entries
  | .table _ es => es
  | _ => []

/-- The items of a list, and none of anything else. -/
def items : Setting → List Setting
  | .array _ xs => xs
  | _ => []

/-- The scalar of a JSON number; an integer too large for 64 bits is a floating-point number. -/
def scalarOfNumber : Json.Number → Scalar
  | .integer n => if n ≤ Decimal.maxInt64 then .whole n else .real (Binary64.ofInt n)
  | .real x => .real x

mutual

def ofJson : Json.Value → Setting
  | .null => ofScalar .nothing
  | .boolean b => ofScalar (.flag b)
  | .number n => ofScalar (scalarOfNumber n)
  | .string s => ofScalar (.text s)
  | .array vs => .array none (itemsOfJson vs)
  | .object ms => .table none (entriesOfJson ms)

def itemsOfJson : List Json.Value → List Setting
  | [] => []
  | v :: vs => ofJson v :: itemsOfJson vs

/-- The settings of the members of a JSON object. -/
def entriesOfJson : List (String × Json.Value) → Entries
  | [] => []
  | (k, v) :: ms => (k, ofJson v) :: entriesOfJson ms

end

end Setting
end RpcGateway
