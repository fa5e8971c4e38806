/-!
# Results

A computation in steps has a result if every step has one.  These are the inversions of `map`,
`bind` and `mapError`: what the steps came to when the whole came to something.
-/

namespace RpcGateway

variable {α β ε : Type} {x : Except ε α}

theorem exists_of_map_eq_ok
    {f : α → β} {y : β}
    (h : x.map f = .ok y) :
    ∃ a, x = .ok a ∧ f a = y := by
  cases x with
  | error e => cases h
  | ok a => exact ⟨a, rfl, Except.ok.inj h⟩

theorem exists_of_bind_eq_ok
    {f : α → Except ε β} {y : β}
    (h : (x >>= f) = .ok y) :
    ∃ a, x = .ok a ∧ f a = .ok y := by
  cases x with
  | error e => cases h
  | ok a => exact ⟨a, rfl, h⟩

theorem eq_ok_of_mapError_eq_ok
    {δ : Type} {f : ε → δ} {a : α}
    (h : x.mapError f = .ok a) :
    x = .ok a := by
  cases x with
  | error e => cases h
  | ok b => exact congrArg Except.ok (Except.ok.inj h)

end RpcGateway
