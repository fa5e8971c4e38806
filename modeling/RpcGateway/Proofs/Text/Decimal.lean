import Mathlib.Data.List.Induction
import Mathlib.Tactic.IntervalCases
import RpcGateway.Proofs.Text.Utf8
import RpcGateway.Text.Decimal

/-!
# Decimal numerals

Which texts are numerals, and which integers they stand for.

**Numerals.**  `Denotes` relates a numeral to its integer: at least one digit, with a sign before
the digits or none.  `signed?` reads just these texts.

**Bytes.**  A digit is one byte, and the values of the two are the same.
-/

namespace RpcGateway
namespace Decimal

/-- At least one digit, and nothing else. -/
structure IsDigits (cs : List Char) : Prop where
  filled : cs ≠ []
  decimal : ∀ c ∈ cs, c.isDigit = true

/-- A numeral with an optional sign stands for an integer. -/
inductive Denotes : List Char → Int → Prop
  | plain {ds : List Char}
      (h : IsDigits ds) :
      Denotes ds (Nat.ofDigitChars 10 ds 0)
  | plus {ds : List Char}
      (h : IsDigits ds) :
      Denotes ('+' :: ds) (Nat.ofDigitChars 10 ds 0)
  | minus {ds : List Char}
      (h : IsDigits ds) :
      Denotes ('-' :: ds) (-(Nat.ofDigitChars 10 ds 0 : Nat))

theorem toNat_of_isDigit
    {c : Char}
    (h : c.isDigit = true) :
    48 ≤ c.toNat ∧ c.toNat ≤ 57 :=
  Char.isDigit_iff_toNat.mp h

theorem digits?_eq_some_iff
    {cs : List Char} {n : Nat} :
    digits? cs = some n ↔ IsDigits cs ∧ Nat.ofDigitChars 10 cs 0 = n := by
  have hcondition : (!cs.isEmpty && cs.all Char.isDigit) = true ↔ IsDigits cs := by
    simp only [Bool.and_eq_true, Bool.not_eq_true', List.isEmpty_eq_false_iff, List.all_eq_true]
    exact ⟨fun h => ⟨h.1, h.2⟩, fun h => ⟨h.filled, h.decimal⟩⟩
  rw [digits?, Option.ite_none_right_eq_some, hcondition, Option.some.injEq]

/-- The signed numerals are read, and nothing else is. -/
theorem signed?_eq_some_iff
    {cs : List Char} {n : Int} :
    signed? cs = some n ↔ Denotes cs n := by
  constructor
  · intro h
    unfold signed? at h
    split at h
    all_goals
      obtain ⟨k, hk, rfl⟩ := Option.map_eq_some_iff.mp h
      obtain ⟨hdigits, rfl⟩ := digits?_eq_some_iff.mp hk
    · exact .plus hdigits
    · exact .minus hdigits
    · exact .plain hdigits
  · intro h
    cases h with
    | plus h => rw [signed?, digits?_eq_some_iff.mpr ⟨h, rfl⟩]; rfl
    | minus h => rw [signed?, digits?_eq_some_iff.mpr ⟨h, rfl⟩]; rfl
    | plain h =>
        -- a digit is no sign
        have hdigits := digits?_eq_some_iff.mpr ⟨h, rfl⟩
        unfold signed?
        split
        next ds => exact absurd (h.decimal '+' (List.mem_cons_self ..)) (by decide)
        next ds => exact absurd (h.decimal '-' (List.mem_cons_self ..)) (by decide)
        next => rw [hdigits]; rfl

/-- The signed numerals of the integers between two bounds are read. -/
theorem within?_eq_some_iff
    {least greatest n : Int} {cs : List Char} :
    within? least greatest cs = some n ↔ Denotes cs n ∧ least ≤ n ∧ n ≤ greatest := by
  rw [within?, Option.filter_eq_some_iff, signed?_eq_some_iff, Bool.and_eq_true,
    decide_eq_true_iff, decide_eq_true_iff]

theorem Denotes.unique
    {cs : List Char} {m n : Int}
    (hm : Denotes cs m) (hn : Denotes cs n) :
    m = n :=
  Option.some.inj ((signed?_eq_some_iff.mpr hm).symm.trans (signed?_eq_some_iff.mpr hn))

/-- The numeral of an integer stands for it. -/
theorem denotes_ofInt
    (n : Int) :
    Denotes (ofInt n) n := by
  cases n with
  | ofNat n =>
      obtain ⟨hdigits, hvalue⟩ := digits?_eq_some_iff.mp (digits?_ofNat n)
      have hplain := Denotes.plain hdigits
      rw [hvalue] at hplain
      exact hplain
  | negSucc n =>
      obtain ⟨hdigits, hvalue⟩ := digits?_eq_some_iff.mp (digits?_ofNat (n + 1))
      have hminus := Denotes.minus hdigits
      rw [hvalue] at hminus
      exact hminus

/-- Digits make less than the power of ten that their number gives. -/
theorem ofDigitChars_lt
    {ds : List Char}
    (h : ∀ c ∈ ds, c.isDigit = true) (sum : Nat) :
    Nat.ofDigitChars 10 ds sum < (sum + 1) * 10 ^ ds.length := by
  induction ds generalizing sum with
  | nil => simp
  | cons c ds ih =>
      obtain ⟨hc, hds⟩ := List.forall_mem_cons.mp h
      have hrange := toNat_of_isDigit hc
      have hzero : '0'.toNat = 48 := rfl
      have hstep : 10 * sum + (c.toNat - '0'.toNat) + 1 ≤ 10 * (sum + 1) := by omega
      calc Nat.ofDigitChars 10 (c :: ds) sum
          = Nat.ofDigitChars 10 ds (10 * sum + (c.toNat - '0'.toNat)) := Nat.ofDigitChars_cons
        _ < (10 * sum + (c.toNat - '0'.toNat) + 1) * 10 ^ ds.length := ih hds _
        _ ≤ 10 * (sum + 1) * 10 ^ ds.length := Nat.mul_le_mul_right _ hstep
        _ = (sum + 1) * 10 ^ (c :: ds).length := by
            rw [List.length_cons, pow_succ, Nat.mul_comm 10, Nat.mul_assoc, Nat.mul_comm 10]

/-- Zeros in front do not count. -/
theorem ofDigitChars_zeros_append
    (k : Nat) (ds : List Char) :
    Nat.ofDigitChars 10 (List.replicate k '0' ++ ds) 0 = Nat.ofDigitChars 10 ds 0 := by
  rw [Nat.ofDigitChars_append, Nat.ofDigitChars_replicate_zero, Nat.mul_zero]

/-- Digits that make no more than the bound are an unsigned numeral. -/
theorem unsigned?_of_isDigits
    {ds : List Char} {greatest : Nat}
    (h : IsDigits ds) (hle : Nat.ofDigitChars 10 ds 0 ≤ greatest) :
    unsigned? greatest ds = some (Nat.ofDigitChars 10 ds 0) := by
  have hdigits := digits?_eq_some_iff.mpr ⟨h, rfl⟩
  unfold unsigned?
  split
  next rest => exact absurd (h.decimal '+' (List.mem_cons_self ..)) (by decide)
  next => rw [hdigits, Option.filter_some, if_pos (decide_eq_true hle)]

/-!
## Canonical numerals
-/

/-- The digits of a positive number do not begin with a zero. -/
theorem head?_ofNat
    {n : Nat}
    (h : 0 < n) :
    (ofNat n).head? ≠ some '0' := by
  induction n using Nat.strong_induction_on with
  | _ n ih =>
      by_cases hsmall : n < 10
      · interval_cases n <;> decide
      · -- the first digit is that of the number without its last one
        have hfront := ih (n / 10) (by omega) (by omega)
        obtain ⟨d, ds, hds⟩ :=
          List.exists_cons_of_ne_nil (digits?_eq_some_iff.mp (digits?_ofNat (n / 10))).1.filled
        have hsplit : ofNat (n / 10) ++ ofNat (n % 10) = ofNat n := by
          have happend := Nat.toDigits_append_toDigits (b := 10) (n := n / 10) (d := n % 10)
            (by decide) (by omega) (by omega)
          rwa [Nat.div_add_mod] at happend
        rw [← hsplit, hds]
        rwa [hds] at hfront

theorem ofNat_digit
    {c : Char}
    (h : c.isDigit = true) :
    ofNat (c.toNat - '0'.toNat) = [c] := by
  have hrange := toNat_of_isDigit h
  have hzero : '0'.toNat = 48 := rfl
  have hchar : (c.toNat - '0'.toNat).digitChar = c := by
    refine Char.toNat_inj.mp ?_
    rw [Nat.toNat_digitChar_of_lt_ten (by omega)]
    omega
  rw [ofNat, Nat.toDigits_of_lt_base (by omega), hchar]

/-- Digits without a zero in front of others are those of their value. -/
theorem ofNat_ofDigitChars
    {ds : List Char}
    (h : IsDigits ds) (hnormal : ds.head? = some '0' → ds = ['0']) :
    ofNat (Nat.ofDigitChars 10 ds 0) = ds := by
  induction ds using List.reverseRecOn with
  | nil => exact absurd rfl h.filled
  | append_singleton front c ih =>
      have hc : c.isDigit = true := h.decimal c (by simp)
      have hvalue : Nat.ofDigitChars 10 (front ++ [c]) 0 =
          10 * Nat.ofDigitChars 10 front 0 + (c.toNat - '0'.toNat) := by
        rw [Nat.ofDigitChars_append, Nat.ofDigitChars_cons, Nat.ofDigitChars_nil]
      rw [hvalue]
      by_cases hempty : front = []
      · subst hempty
        rw [Nat.ofDigitChars_nil]
        simpa using ofNat_digit hc
      · -- the digits in front do not begin with a zero, or there would be no others
        have hhead : front.head? ≠ some '0' := by
          intro hzero
          have hall := hnormal (by rw [List.head?_append, hzero, Option.some_or])
          have hlength := congrArg List.length hall
          have hfilled := List.length_pos_iff.mpr hempty
          simp only [List.length_append, List.length_singleton] at hlength
          omega
        have hfront := ih ⟨hempty, fun d hd => h.decimal d (List.mem_append_left _ hd)⟩
          fun hzero => absurd hzero hhead
        have hpositive : 0 < Nat.ofDigitChars 10 front 0 := by
          refine Nat.pos_of_ne_zero fun hzero => hhead ?_
          rw [← hfront, hzero]
          rfl
        have hrange := toNat_of_isDigit hc
        have hzero : '0'.toNat = 48 := rfl
        rw [ofNat, ← Nat.toDigits_append_toDigits (by decide) hpositive (by omega), ← ofNat,
          ← ofNat, hfront, ofNat_digit hc]

/-- A numeral in the form in which integers are written. -/
inductive Canonical : List Char → Prop
  | plain {ds : List Char}
      (h : IsDigits ds) (hnormal : ds.head? = some '0' → ds = ['0']) :
      Canonical ds
  | minus {ds : List Char}
      (h : IsDigits ds) (hnormal : ds.head? ≠ some '0') :
      Canonical ('-' :: ds)

theorem canonical_ofInt (n : Int) : Canonical (ofInt n) := by
  cases n with
  | ofNat n =>
      refine .plain (digits?_eq_some_iff.mp (digits?_ofNat n)).1 fun hzero => ?_
      cases n with
      | zero => rfl
      | succ n => exact absurd hzero (head?_ofNat (Nat.succ_pos n))
  | negSucc n =>
      exact .minus (digits?_eq_some_iff.mp (digits?_ofNat (n + 1))).1
        (head?_ofNat (Nat.succ_pos n))

/-- A numeral is written back as it was if and only if it is canonical. -/
theorem Denotes.ofInt_eq_iff
    {cs : List Char} {n : Int}
    (h : Denotes cs n) :
    ofInt n = cs ↔ Canonical cs := by
  constructor
  · rintro rfl
    exact canonical_ofInt n
  · rintro (⟨hdigits, hnormal⟩ | ⟨hdigits, hnormal⟩)
    · rw [h.unique (.plain hdigits)]
      exact ofNat_ofDigitChars hdigits hnormal
    · have hwritten := ofNat_ofDigitChars hdigits fun hzero => absurd hzero hnormal
      rw [h.unique (.minus hdigits)]
      cases hvalue : Nat.ofDigitChars 10 _ 0 with
      | zero =>
          rw [hvalue] at hwritten
          exact absurd (congrArg List.head? hwritten.symm) hnormal
      | succ k =>
          rw [hvalue] at hwritten
          exact congrArg ('-' :: ·) hwritten

/-!
## Bytes
-/

/-- The byte of a digit. -/
def digitByte (c : Char) : UInt8 :=
  UInt8.ofNat c.toNat

theorem toNat_digitByte
    {c : Char}
    (h : c.isDigit = true) :
    (digitByte c).toNat = c.toNat := by
  have hrange := toNat_of_isDigit h
  exact Utf8.toNat_byte (by omega)

theorem encode_digits
    {ds : List Char}
    (h : ∀ c ∈ ds, c.isDigit = true) :
    Utf8.encode ds = ds.map digitByte := by
  induction ds with
  | nil => rfl
  | cons c ds ih =>
      obtain ⟨hc, hds⟩ := List.forall_mem_cons.mp h
      have hrange := toNat_of_isDigit hc
      have hsingle := Utf8.encode_singleton_of_lt (n := c.toNat) (by omega)
      rw [Char.ofNat_toNat] at hsingle
      rw [← List.singleton_append, Utf8.encode_append, hsingle, ih hds]
      rfl

end Decimal
end RpcGateway
