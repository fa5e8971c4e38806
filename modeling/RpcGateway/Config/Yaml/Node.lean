import RpcGateway.Config.Setting
import RpcGateway.Number.Numeral
import RpcGateway.Text.Ascii

/-!
# YAML nodes

A document is a tree of nodes: scalars, lists and tables.  The keys of a table are nodes too.

**Meaning.**  A plain scalar may be a number, a truth value or nothing; any other scalar is a text.
A tag of the language says which of them a plain scalar is.

**Unfit nodes.**  A scalar that its tag does not suit is no value.  In the place of a key it does
not count, and the next node is the key.

**Settings.**  Only texts and integers are keys of settings, and a number has to be one that a
setting can hold.
-/

namespace RpcGateway
namespace Yaml

inductive Node
  | unfit
  | nothing
  /-- A truth value. -/
  | flag (b : Bool)
  | whole (n : Int)
  /-- A floating-point number, as it is written. -/
  | real (cs : List Char)
  | text (cs : List Char)
  | list (items : List Node)
  | table (entries : List (Node × Node))
  deriving Inhabited

namespace Node

/-!
## Meaning
-/

/-- An integer in a base, with or without a sign. -/
def basedInteger? (base : Nat) (cs : List Char) : Option Int :=
  let (negative, digits) : Bool × List Char :=
    match cs with
    | '-' :: rest => (true, rest)
    | '+' :: rest => (false, rest)
    | rest => (false, rest)
  let n? := digits.foldlM
    (fun n c => ((Ascii.hexValue? c).filter (· < base)).map fun d => n * base + d) 0
  if digits.isEmpty then none
  else
    (n?.map fun (n : Nat) => if negative then -(n : Int) else (n : Int)).filter fun n =>
      decide (Decimal.minInt64 ≤ n) && decide (n ≤ Decimal.maxInt64)

def decimalInteger? (cs : List Char) : Option Int :=
  Decimal.within? Decimal.minInt64 Decimal.maxInt64 cs

/-- The integer that a plain scalar is; behind a plus sign another sign may stand. -/
def integer? (cs : List Char) : Option Int :=
  let marked? :=
    match cs with
    | '0' :: 'x' :: rest => basedInteger? 16 rest
    | '0' :: 'o' :: rest => basedInteger? 8 rest
    | '+' :: rest => decimalInteger? rest
    | _ => none
  marked?.orElse fun _ => decimalInteger? cs

/-- The words for what is no finite number. -/
def specialReals : List String :=
  [".inf", ".Inf", ".INF", "+.inf", "+.Inf", "+.INF", "-.inf", "-.Inf", "-.INF", ".nan", ".NAN"]

/-- Whether a plain scalar is a floating-point number. -/
def isReal (cs : List Char) : Bool :=
  specialReals.contains (String.ofList cs) || (Numeral.number? cs).isSome

/-- Whether a plain scalar is nothing. -/
def isNothing (cs : List Char) : Bool :=
  cs == "~".toList || cs == "null".toList

/-- The truth value that a plain scalar is. -/
def flag? (cs : List Char) : Option Bool :=
  if cs = "true".toList then some true else if cs = "false".toList then some false else none

/-- What a plain scalar means. -/
def ofPlain (cs : List Char) : Node :=
  if isNothing cs then .nothing
  else
    match flag? cs, integer? cs with
    | some b, _ => .flag b
    | none, some n => .whole n
    | none, none => if isReal cs then .real cs else .text cs

/-- What a plain scalar means that has a tag of the language. -/
def ofTyped (type cs : List Char) : Node :=
  if type = "int".toList then ((decimalInteger? cs).map Node.whole).getD .unfit
  else if type = "bool".toList then ((flag? cs).map Node.flag).getD .unfit
  else if type = "float".toList then if isReal cs then .real cs else .unfit
  else if type = "null".toList then if isNothing cs then .nothing else .unfit
  else .text cs

/-!
## Tables
-/

/-- Whether two nodes are the same key. -/
def isSameKey : Node → Node → Bool
  | .text a, .text b => a == b
  | .whole m, .whole n => m == n
  | _, _ => false

/-- Pairs keys and values, which come one after the other; no key comes twice. -/
def pairs? : List (Node × Node) → List Node → Option (List (Node × Node))
  | acc, .unfit :: rest => pairs? acc rest
  | acc, k :: v :: rest =>
      if acc.any fun e => isSameKey e.1 k then none else pairs? (acc ++ [(k, v)]) rest
  | acc, _ => some acc

/-- The table of keys and values. -/
def table? (nodes : List Node) : Option Node :=
  (pairs? [] nodes).map Node.table

/-!
## Settings
-/

/-- The name of the setting of a key. -/
def name? : Node → Option String
  | .text cs => some (String.ofList cs)
  | .whole n => some (Decimal.text n)
  | _ => none

mutual

def setting? : Node → Option Setting
  | .unfit => some (Setting.ofScalar .nothing)
  | .nothing => some (Setting.ofScalar .nothing)
  | .flag b => some (Setting.ofScalar (.flag b))
  | .whole n => some (Setting.ofScalar (.whole n))
  | .real cs => (Numeral.number? cs).map fun x => Setting.ofScalar (.real x)
  | .text cs => some (Setting.ofScalar (.text (String.ofList cs)))
  | .list items => (itemSettings? items).map (Setting.array none)
  | .table entries => (entrySettings? [] entries).map (Setting.table none)

def itemSettings? : List Node → Option (List Setting)
  | [] => some []
  | v :: rest =>
      match setting? v, itemSettings? rest with
      | some s, some more => some (s :: more)
      | _, _ => none

/-- The settings of the entries of a table, behind others; of two that have one name, the later one
counts. -/
def entrySettings? : Setting.Entries → List (Node × Node) → Option Setting.Entries
  | acc, [] => some acc
  | acc, (k, v) :: rest =>
      match name? k, setting? v with
      | some name, some s => entrySettings? (Keyed.put name s acc) rest
      | _, _ => none

end

end Node
end Yaml
end RpcGateway
