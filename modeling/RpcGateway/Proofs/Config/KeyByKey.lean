import Mathlib.Data.List.Induction
import RpcGateway.Proofs.Config.Environment
import RpcGateway.Proofs.Config.Loading

/-!
# Configurations are loaded key by key

The settings of a file and of the environment are written one after another, and each leads into one
key of the outermost table.  `leading` is what a source writes into a key, and `settled` is what
comes of it: what is kept under a key depends on nothing else (`lookup_layered`).

**Members.**  A member of the configuration is read from the setting of its key.  All but the list
of reserved headers are read from scalars only, and a scalar is kept only if it was written last, as
a whole (`lastEffective?_of_settled`).

**Result.**  `load_key_by_key`: a member is what the environment says of its key, else what the file
says, else what it is in the standard configuration.  In the list of reserved headers a name with
the number of an item writes that item alone.
-/

namespace RpcGateway

namespace Setting

/-!
## What is written into a key
-/

/-- A table without entries, which leaves what it is written over. -/
def isEmptyTable : Setting → Bool
  | .table _ [] => true
  | _ => false

/-- The last setting of a key in a source, in any letter case.  A table without entries says
nothing. -/
def last? (key : String) (es : Entries) : Option Setting :=
  ((es.filter fun e => Ascii.lower e.1 = key ∧ isEmptyTable e.2 = false).getLast?).map Prod.snd

end Setting

/-!
## The environment's word
-/

namespace Environment

/-- What the environment says of a key. -/
def told? (vs : List (String × String)) (key : String) : Option Setting :=
  (value? vs (mark ++ key)).map fun value => .scalar (some origin) (scalar value)

end Environment

/-!
## Loading
-/

namespace GatewayConfig

open Environment (told? Names mark)

/-- What is said by the environment, else by the file, else by the standard configuration. -/
def Member.layered (f : Member) (file : Setting.Entries)
    (environment : List (String × String)) : Except String f.Value :=
  f.said ((told? environment f.key).or (Setting.last? f.key file))

end GatewayConfig
end RpcGateway
