import RpcGateway.Config.KeyPath
import RpcGateway.Number.Numeral
import RpcGateway.Text.Utf8

/-!
# Settings from the environment

A variable whose name begins with `TETHER_`, in any letter case, is a setting.  Two underscores in
the rest of the name lead into a table.

**Values.**  The value is taken for a truth value, else for a 64-bit integer, else for a
floating-point number, else for a text.

**Block.**  A process is given its environment as a block of bytes: each variable is written as its
name, an equals sign and its value, and a zero byte ends it.
-/

namespace RpcGateway
namespace Environment

/-- The variable that a text stands for. -/
def ofEntry? (cs : List Char) : Option (String × String) :=
  match cs.dropWhile (· != '=') with
  | _ :: value => some (String.ofList (cs.takeWhile (· != '=')), String.ofList value)
  | [] => none

def ofBlock (bytes : List UInt8) : List (String × String) :=
  (bytes.splitOn 0).filterMap fun entry => (Utf8.text? entry).bind fun s => ofEntry? s.toList

/-- What the name of a variable that is a setting begins with, in lower case. -/
def mark : String := "tether_"

/-- The source that settings of the environment come from. -/
def origin : String := "the environment"

/-- Turns two underscores into a point. -/
def pointed : List Char → List Char
  | '_' :: '_' :: cs => '.' :: pointed cs
  | c :: cs => c :: pointed cs
  | [] => []

def settingName? (variableName : String) : Option String :=
  match mark.toList.isPrefixOf? (Ascii.lower variableName).toList with
  | some rest => some (String.ofList (pointed rest))
  | none => none

def scalar (value : String) : Scalar :=
  let lower := Ascii.lower value
  if lower = "true" then .flag true
  else if lower = "false" then .flag false
  else
    match Decimal.within? Decimal.minInt64 Decimal.maxInt64 value.toList with
    | some n => .whole n
    | none =>
        match Numeral.number? value.toList with
        | some x => .real x
        | none => .text value

def setting? (v : String × String) : Option (String × Setting) :=
  (settingName? v.1).map fun name => (name, .scalar (some origin) (scalar v.2))

def settings (vs : List (String × String)) : Setting.Entries :=
  vs.filterMap setting?

end Environment
end RpcGateway
