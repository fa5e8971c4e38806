/-!
# Ranges of characters

A class of characters is given by the runs of their codes, as the tables of a standard list them.
-/

namespace RpcGateway

/-- First and last code of each run, in increasing order. -/
abbrev CodeRanges := List (Nat × Nat)

namespace CodeRanges

/-- Whether a character lies in one of the runs. -/
def contains (rs : CodeRanges) (c : Char) : Bool :=
  rs.any fun r => r.1 ≤ c.toNat && c.toNat ≤ r.2

end CodeRanges
end RpcGateway
