import RpcGateway.Number.Binary64

/-!
# JSON values

A value tree as it stands between the bytes of a payload and the fields of a message.

**Numbers.**  An integer that fits 64 bits, signed or unsigned, stays an integer; every other
number is a floating-point number.

**Objects.**  The members of an object stand in strictly increasing order of their keys.  `put`
keeps that order and replaces the value of a key that is present.
-/

namespace RpcGateway
namespace Json

inductive Number
  /-- An integer of at most 64 bits. -/
  | integer (n : Int)
  /-- Any other number. -/
  | real (x : Binary64)
  deriving DecidableEq, Repr

inductive Value
  | null
  | boolean (b : Bool)
  | number (n : Number)
  | string (s : String)
  | array (items : List Value)
  | object (members : List (String × Value))
  deriving Repr, Inhabited

/-- The members of an object, in increasing order of their keys. -/
abbrev Members := List (String × Value)

namespace Members

def get? (key : String) : Members → Option Value
  | [] => none
  | (k, v) :: rest => if key = k then some v else get? key rest

/-- Sets the value of a key, keeping the order. -/
def put (key : String) (value : Value) : Members → Members
  | [] => [(key, value)]
  | (k, v) :: rest =>
      if key < k then (key, value) :: (k, v) :: rest
      else if key = k then (key, value) :: rest
      else (k, v) :: put key value rest

/-- The members that result from setting keys one after another. -/
def ofList (pairs : List (String × Value)) : Members :=
  pairs.foldl (fun members pair => put pair.1 pair.2 members) []

@[simp] theorem get?_nil (key : String) : get? key [] = none := rfl

theorem get?_put_self (key : String) (value : Value) (members : Members) :
    get? key (put key value members) = some value := by
  induction members with
  | nil => simp [put, get?]
  | cons m rest ih =>
      obtain ⟨k, v⟩ := m
      unfold put
      split
      · simp [get?]
      · split
        · simp [get?]
        · rename_i hne
          simp [get?, hne, ih]

theorem get?_put_of_ne {key other : String} (h : other ≠ key) (value : Value)
    (members : Members) : get? other (put key value members) = get? other members := by
  induction members with
  | nil => simp [put, get?, h]
  | cons m rest ih =>
      obtain ⟨k, v⟩ := m
      unfold put
      split
      · simp [get?, h]
      · split
        · rename_i heq
          subst heq
          simp [get?, h]
        · simp [get?, ih]

end Members

def Value.int (n : Int) : Value :=
  .number (.integer n)

end Json
end RpcGateway
