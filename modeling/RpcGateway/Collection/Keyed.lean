/-!
# Keyed lists

A keyed list is a list of entries, each a key and what is kept under it.  The keys stand in the
order in which they first came.

**Changing.**  `alter` changes what is kept under a key, in its place; a new key goes behind the
others.  `put` replaces what is kept, and `append` adds to a list that is kept.  `takeOut` gives
away what is kept.

**Results.**  `lookup_alter` says that a change is found under its key and that all other keys keep
what they have.
-/

namespace RpcGateway

abbrev Keyed (α : Type) := List (String × α)

namespace Keyed

variable {α : Type}

/-- Changes what is kept under a key. -/
def alter (key : String) (f : Option α → α) : Keyed α → Keyed α
  | [] => [(key, f none)]
  | (k, x) :: rest => if k = key then (k, f (some x)) :: rest else (k, x) :: alter key f rest

/-- Keeps something under a key, in place of what was there. -/
def put (key : String) (x : α) (es : Keyed α) : Keyed α :=
  alter key (fun _ => x) es

/-- Adds to the list that is kept under a key. -/
def append (key : String) (x : α) (es : Keyed (List α)) : Keyed (List α) :=
  alter key (fun xs => xs.getD [] ++ [x]) es

/-- Takes the first entry of a key away, and gives what was kept there. -/
def takeOut (key : String) : Keyed α → Option α × Keyed α
  | [] => (none, [])
  | (k, x) :: rest =>
      if k = key then (some x, rest)
      else ((takeOut key rest).1, (k, x) :: (takeOut key rest).2)

theorem lookup_alter (key other : String) (f : Option α → α) (es : Keyed α) :
    (alter key f es).lookup other =
      if other = key then some (f (es.lookup key)) else es.lookup other := by
  induction es with
  | nil =>
      by_cases h : other = key
      · simp [alter, h]
      · simp [alter, h, List.lookup_cons, beq_eq_false_iff_ne.mpr h]
  | cons e rest ih =>
      obtain ⟨k, x⟩ := e
      by_cases hk : k = key
      · subst hk
        by_cases h : other = k
        · simp [alter, h]
        · simp [alter, h, List.lookup_cons, beq_eq_false_iff_ne.mpr h]
      · by_cases h : other = k
        · subst h
          simp [alter, hk]
        · simp [alter, hk, List.lookup_cons, beq_eq_false_iff_ne.mpr h,
            beq_eq_false_iff_ne.mpr (Ne.symm hk), ih]

theorem lookup_put (key other : String) (x : α) (es : Keyed α) :
    (put key x es).lookup other = if other = key then some x else es.lookup other :=
  lookup_alter key other (fun _ => x) es

theorem lookup_append (key other : String) (x : α) (es : Keyed (List α)) :
    (append key x es).lookup other =
      if other = key then some ((es.lookup key).getD [] ++ [x]) else es.lookup other :=
  lookup_alter key other (fun xs => xs.getD [] ++ [x]) es

theorem takeOut_eq (key : String) (es : Keyed α) :
    takeOut key es = (es.lookup key, es.eraseP fun e => e.1 == key) := by
  induction es with
  | nil => rfl
  | cons e rest ih =>
      obtain ⟨k, x⟩ := e
      by_cases hk : k = key
      · simp [takeOut, hk]
      · simp [takeOut, hk, ih, List.lookup_cons, beq_eq_false_iff_ne.mpr (Ne.symm hk)]

end Keyed
end RpcGateway
