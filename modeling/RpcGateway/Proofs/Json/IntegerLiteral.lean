import RpcGateway.Json.Scalar
import RpcGateway.Proofs.Number.Rounding
import RpcGateway.Proofs.Text.Decimal

/-!
# Integer literals

What the reader of numbers makes of a number that has neither a fraction nor an exponent.

**Literals.**  An `IntegerLiteral` has a sign or none and at least one digit, and no zero stands in
front of other digits.  It ends where nothing follows that could be part of a number.

**Reading.**  Of a literal of at most 64 bits all digits are kept.  Of a longer one, the digits that
do not fit become a power of ten, and the product is far beyond 64 bits (`ReadAs`).
-/

namespace RpcGateway
namespace Json

open Decimal

/-- An integer as it stands in a text. -/
structure IntegerLiteral where
  negative : Bool
  digits : List Char
  isDigits : IsDigits digits
  /-- No zero stands in front of other digits. -/
  normal : digits.head? = some '0' → digits = ['0']

namespace IntegerLiteral

/-- The value of the digits. -/
def magnitude (l : IntegerLiteral) : Nat :=
  Nat.ofDigitChars 10 l.digits 0

def value (l : IntegerLiteral) : Int :=
  if l.negative then -(l.magnitude : Int) else l.magnitude

def text (l : IntegerLiteral) : List Char :=
  if l.negative then '-' :: l.digits else l.digits

def bytes (l : IntegerLiteral) : List UInt8 :=
  Utf8.encode l.text

end IntegerLiteral

/-- Nothing that could be part of a number stands in front of some bytes. -/
def EndsNumber (bs : List UInt8) : Prop :=
  ∀ b ∈ bs.head?, Cursor.isDigit b = false ∧ b ≠ 46 ∧ b ≠ 101 ∧ b ≠ 69

/-!
## Digits
-/

theorem isDigit_digitByte
    {c : Char}
    (h : c.isDigit = true) :
    Cursor.isDigit (digitByte c) = true := by
  have hrange := toNat_of_isDigit h
  simp only [Cursor.isDigit, Bool.and_eq_true, decide_eq_true_eq, UInt8.le_iff_toNat_le,
    toNat_digitByte h, UInt8.reduceToNat]
  exact hrange

/-- Digits are taken as long as the number stays within the bound. -/
theorem takeDigits_digits
    {bound sum : Nat} {ds : List Char} {tail : List UInt8}
    (hds : ∀ c ∈ ds, c.isDigit = true) (htail : EndsNumber tail) (hsum : sum ≤ bound)
    (count : Nat) :
    ∃ front back, ds = front ++ back ∧
      takeDigits bound sum count (ds.map digitByte ++ tail) =
        (Nat.ofDigitChars 10 front sum, count + front.length, back.map digitByte ++ tail) ∧
      Nat.ofDigitChars 10 front sum ≤ bound ∧
      ∀ c ∈ back.head?, bound < Nat.ofDigitChars 10 (front ++ [c]) sum := by
  induction ds generalizing sum count with
  | nil =>
      refine ⟨[], [], rfl, ?_, by simpa using hsum, by simp⟩
      cases tail with
      | nil => rfl
      | cons b bs =>
          have hb := (htail b rfl).1
          simp [takeDigits, hb]
  | cons c ds ih =>
      obtain ⟨hc, hrest⟩ := List.forall_mem_cons.mp hds
      have hsub : (digitByte c).toNat - 48 = c.toNat - '0'.toNat := by rw [toNat_digitByte hc]; rfl
      by_cases hfits : sum * 10 + (c.toNat - '0'.toNat) ≤ bound
      · obtain ⟨front, back, rfl, htake, hbound, hnext⟩ := ih hrest hfits (count + 1)
        have hstep : 10 * sum + (c.toNat - '0'.toNat) = sum * 10 + (c.toNat - '0'.toNat) := by ring
        refine ⟨c :: front, back, rfl, ?_, ?_, ?_⟩
        · rw [List.map_cons, List.cons_append, takeDigits, isDigit_digitByte hc, hsub, Bool.true_and,
            if_pos (decide_eq_true hfits), htake, Nat.ofDigitChars_cons, hstep, List.length_cons,
            Nat.add_right_comm, Nat.add_assoc]
        · rw [Nat.ofDigitChars_cons, hstep]
          exact hbound
        · intro c' hc'
          rw [List.cons_append, Nat.ofDigitChars_cons, hstep]
          exact hnext c' hc'
      · refine ⟨[], c :: ds, rfl, ?_, by simpa using hsum, ?_⟩
        · rw [List.map_cons, List.cons_append, takeDigits, isDigit_digitByte hc, hsub, Bool.true_and,
            if_neg (by simpa using hfits)]
          rfl
        · intro c' hc'
          obtain rfl : c = c' := Option.some.inj hc'
          rw [List.nil_append, Nat.ofDigitChars_cons, Nat.ofDigitChars_nil]
          omega

theorem skipDigits_digits
    {ds : List Char} {tail : List UInt8}
    (hds : ∀ c ∈ ds, c.isDigit = true) (htail : EndsNumber tail) (line column : Nat) :
    Cursor.skipDigits ⟨ds.map digitByte ++ tail, line, column⟩ =
      ⟨tail, line, column + ds.length⟩ := by
  unfold Cursor.skipDigits
  induction ds generalizing column with
  | nil =>
      cases tail with
      | nil => rfl
      | cons b bs =>
          have hb := (htail b rfl).1
          simp [Cursor.skipWhile, hb]
  | cons c ds ih =>
      obtain ⟨hc, hrest⟩ := List.forall_mem_cons.mp hds
      have hbreak : digitByte c ≠ 10 := by
        intro heq
        have hrange := toNat_of_isDigit hc
        rw [← toNat_digitByte hc, heq] at hrange
        exact absurd hrange (by decide)
      have hrest := ih hrest (column + 1)
      simp only [List.map_cons, List.cons_append, Cursor.skipWhile, isDigit_digitByte hc, if_true,
        if_neg hbreak] at hrest ⊢
      rw [hrest, List.length_cons, Nat.add_right_comm, Nat.add_assoc]

/-!
## Numbers
-/

section Ends

variable {c : Cursor}

theorem digitNext_of_ends
    (h : EndsNumber c.rest) :
    digitNext c = false := by
  unfold digitNext Cursor.peek?
  cases hb : c.rest.head? with
  | none => rfl
  | some b => exact (h b hb).1

theorem afterInteger_of_ends
    (h : EndsNumber c.rest) (positive : Bool) (n : Nat) :
    afterInteger positive n c = .ok (afterInteger.integerNumber positive n, c) := by
  unfold afterInteger Cursor.peek?
  cases hb : c.rest.head? with
  | none => rfl
  | some b =>
      obtain ⟨-, hpoint, hlower, hupper⟩ := h b hb
      simp [hpoint, hlower, hupper]

theorem exponentOrEnd_of_ends
    (h : EndsNumber c.rest) (positive : Bool) (n : Nat) (start : Int) :
    exponentOrEnd positive n start c = ofParts positive n start c := by
  unfold exponentOrEnd Cursor.peek?
  cases hb : c.rest.head? with
  | none => rfl
  | some b =>
      obtain ⟨-, -, hlower, hupper⟩ := h b hb
      simp [hlower, hupper]

/-- Behind the digits that do not fit comes their number as a power of ten. -/
theorem afterLongInteger_of_ends
    {ds : List Char} {tail : List UInt8}
    (hds : ∀ c ∈ ds, c.isDigit = true) (htail : EndsNumber tail) (positive : Bool) (n : Nat)
    (line column : Nat) :
    afterLongInteger positive n ⟨ds.map digitByte ++ tail, line, column⟩ =
      ofParts positive n ds.length ⟨tail, line, column + ds.length⟩ := by
  have hextra : ((column + ds.length : Nat) : Int) - column = ds.length := by push_cast; ring
  unfold afterLongInteger
  simp only [skipDigits_digits hds htail, hextra, Cursor.peek?]
  cases hb : tail.head? with
  | none => rfl
  | some b =>
      simp only [if_neg (htail b hb).2.1]
      exact exponentOrEnd_of_ends htail positive n _

end Ends

/-- What is read of a number that is all digits, with some bytes behind it. -/
inductive ReadAs (positive : Bool) (n : Nat) (tail : List UInt8) :
    Except Fault (Number × Cursor) → Prop
  /-- All digits are kept. -/
  | kept {after : Cursor}
      (h : n ≤ maxUInt64) (hrest : after.rest = tail) :
      ReadAs positive n tail (.ok (afterInteger.integerNumber positive n, after))
  /-- Some digits do not fit. -/
  | scaled {digits extra : Nat} {after : Cursor}
      (h : maxUInt64 < n) (hdigits : maxUInt64 / 10 ≤ digits) (hmost : digits ≤ maxUInt64)
      (hextra : 1 ≤ extra) :
      ReadAs positive n tail (ofParts positive digits extra after)

/-- A prefix of digits is no greater than all of them. -/
theorem ofDigitChars_le_append
    (front back : List Char) (sum : Nat) :
    Nat.ofDigitChars 10 front sum ≤ Nat.ofDigitChars 10 (front ++ back) sum := by
  rw [Nat.ofDigitChars_append]
  generalize Nat.ofDigitChars 10 front sum = n
  induction back generalizing n with
  | nil => exact Nat.le_of_eq Nat.ofDigitChars_nil.symm
  | cons c back ih =>
      rw [Nat.ofDigitChars_cons]
      exact Nat.le_trans (by omega) (ih _)

/-- Digits whose number does not stay within a bound when another one is added make at least a
tenth of the bound. -/
theorem tenth_le_of_lt
    {bound : Nat} {front : List Char} {c : Char}
    (hc : c.isDigit = true) (h : bound < Nat.ofDigitChars 10 (front ++ [c]) 0) :
    bound / 10 ≤ Nat.ofDigitChars 10 front 0 := by
  have hrange := toNat_of_isDigit hc
  have hzero : '0'.toNat = 48 := rfl
  rw [Nat.ofDigitChars_append, Nat.ofDigitChars_cons, Nat.ofDigitChars_nil] at h
  omega

/-- Digits of which the first is no zero are read up to the bound of 64 bits; the others, if there
are any, become a power of ten. -/
theorem readAs_digits
    {ds : List Char} {tail : List UInt8}
    (hds : ∀ c ∈ ds, c.isDigit = true) (htail : EndsNumber tail)
    (positive : Bool) (line column : Nat) :
    ReadAs positive (Nat.ofDigitChars 10 ds 0) tail
      (match digitsBelow maxUInt64 0 ⟨ds.map digitByte ++ tail, line, column⟩ with
        | (digits, _, c) =>
            if digitNext c then afterLongInteger positive digits c
            else afterInteger positive digits c) := by
  obtain ⟨front, back, rfl, htake, hbound, hnext⟩ :=
    takeDigits_digits hds htail (Nat.zero_le maxUInt64) 0
  simp only [digitsBelow, htake]
  cases back with
  | nil =>
      simp only [List.map_nil, List.nil_append, List.append_nil]
      rw [digitNext_of_ends htail, if_neg Bool.false_ne_true, afterInteger_of_ends htail]
      exact .kept hbound rfl
  | cons c back =>
      have hback : ∀ c' ∈ c :: back, c'.isDigit = true := fun c' hc' =>
        hds c' (List.mem_append_right _ hc')
      have hc := hback c (List.mem_cons_self ..)
      have hmore : digitNext
          ⟨(c :: back).map digitByte ++ tail, line, column + (0 + front.length)⟩ = true :=
        isDigit_digitByte hc
      have hover := hnext c rfl
      rw [if_pos hmore, afterLongInteger_of_ends hback htail]
      refine .scaled ?_ (tenth_le_of_lt hc hover) hbound (by simp)
      rw [List.append_cons front c back]
      exact Nat.lt_of_lt_of_le hover (ofDigitChars_le_append _ back 0)

theorem readAs_unsignedNumber
    {ds : List Char} {tail : List UInt8}
    (hds : IsDigits ds) (hnormal : ds.head? = some '0' → ds = ['0']) (htail : EndsNumber tail)
    (positive : Bool) (line column : Nat) :
    ReadAs positive (Nat.ofDigitChars 10 ds 0) tail
      (unsignedNumber positive ⟨ds.map digitByte ++ tail, line, column⟩) := by
  obtain ⟨hfilled, hdecimal⟩ := hds
  obtain ⟨d, ds, rfl⟩ := List.exists_cons_of_ne_nil hfilled
  have hd := hdecimal d (List.mem_cons_self ..)
  have hpeek : Cursor.peek? ⟨(d :: ds).map digitByte ++ tail, line, column⟩ =
      some (digitByte d) := rfl
  unfold unsignedNumber
  simp only [hpeek]
  by_cases hzero : d = '0'
  · subst hzero
    obtain rfl : ds = [] := (List.cons.inj (hnormal rfl)).2
    have hbyte : digitByte '0' = 48 := by decide
    have hadvance : Cursor.advance ⟨['0'].map digitByte ++ tail, line, column⟩ =
        ⟨tail, line, column + 1⟩ := rfl
    rw [if_pos hbyte, hadvance]
    simp only [digitNext_of_ends (c := ⟨tail, line, column + 1⟩) htail, Bool.false_eq_true,
      if_false]
    rw [afterInteger_of_ends htail]
    exact .kept (Nat.zero_le _) rfl
  · have hbyte : digitByte d ≠ 48 := by
      intro heq
      have hnat := toNat_digitByte hd
      rw [heq] at hnat
      exact hzero (Char.toNat_inj.mp hnat.symm)
    rw [if_neg hbyte, if_pos (isDigit_digitByte hd)]
    exact readAs_digits hdecimal htail positive line column

/-- The bytes of a literal are its digits, behind a sign if there is one. -/
theorem IntegerLiteral.bytes_eq
    (l : IntegerLiteral) :
    l.bytes = if l.negative then 45 :: l.digits.map digitByte else l.digits.map digitByte := by
  unfold bytes text
  split
  · have hsign : Utf8.encode ['-'] = [45] := by decide
    rw [← List.singleton_append, Utf8.encode_append, hsign, encode_digits l.isDigits.decimal]
    rfl
  · exact encode_digits l.isDigits.decimal

/-- The first byte of a literal is a sign or a digit, and the number that begins with it is read. -/
theorem IntegerLiteral.readAs_number
    (l : IntegerLiteral) {tail : List UInt8}
    (htail : EndsNumber tail) {c : Cursor} (hc : c.rest = l.bytes ++ tail) :
    ∃ b, c.peek? = some b ∧ (b = 45 ∨ Cursor.isDigit b = true) ∧
      ReadAs (!l.negative) l.magnitude tail (number b c) := by
  obtain ⟨rest, line, column⟩ := c
  obtain rfl : rest = _ := hc
  rw [l.bytes_eq]
  cases hsign : l.negative with
  | true =>
      refine ⟨45, rfl, Or.inl rfl, ?_⟩
      rw [number, if_pos rfl]
      exact readAs_unsignedNumber l.isDigits l.normal htail false line (column + 1)
  | false =>
      have hread := readAs_unsignedNumber l.isDigits l.normal htail true line column
      obtain ⟨d, ds, hdigits⟩ := List.exists_cons_of_ne_nil l.isDigits.filled
      have hd : d.isDigit = true := l.isDigits.decimal d (hdigits ▸ List.mem_cons_self ..)
      have hbyte : digitByte d ≠ 45 := by
        intro heq
        have hrange := toNat_of_isDigit hd
        rw [← toNat_digitByte hd, heq] at hrange
        exact absurd hrange (by decide)
      refine ⟨digitByte d, by simp [Cursor.peek?, hdigits], Or.inr (isDigit_digitByte hd), ?_⟩
      rw [number, if_neg hbyte]
      exact hread

/-!
## Numbers beyond 64 bits
-/

/-- Digits of which some do not fit make a number that is greater than any of 64 bits with a
sign. -/
theorem lt_absValue_of_scaled?
    {digits extra : Nat} {x : Binary64}
    (hdigits : maxUInt64 / 10 ≤ digits) (hextra : 1 ≤ extra)
    (h : scaled? 8 (Binary64.ofNat digits) extra = some x) :
    2 ^ 63 < x.absValue := by
  have hfinite : ∀ {y : ℚ}, y ≤ 2 ^ 64 → y ≤ 2 ^ 1024 := fun hy =>
    hy.trans (pow_le_pow_right₀ one_le_two (by decide))
  have hmany : 3 * 2 ^ 59 ≤ digits := by
    simp only [maxUInt64] at hdigits
    omega
  have hleft : 21 * 2 ^ 56 ≤ (Binary64.ofNat digits).absValue := by
    have hcast : (3 * 2 ^ 59 : ℚ) ≤ digits := by exact_mod_cast hmany
    exact Binary64.le_absValue_ofNat (by omega) (by linarith) (hfinite (by norm_num))
  have hright : 35 / 4 ≤ (Binary64.powerOfTen extra).absValue := by
    have hten : (10 : ℚ) ≤ (10 ^ extra : ℕ) := by
      exact_mod_cast Nat.le_self_pow (Nat.one_le_iff_ne_zero.mp hextra) 10
    refine Binary64.le_absValue_ofNat (Nat.pow_pos (by decide)) ?_ (hfinite (by norm_num))
    rw [Nat.pow_eq]
    linarith
  have hproduct : 735 * 2 ^ 54 ≤
      (Binary64.ofNat digits).absValue * (Binary64.powerOfTen extra).absValue := by
    calc (735 * 2 ^ 54 : ℚ) = 21 * 2 ^ 56 * (35 / 4) := by norm_num
      _ ≤ _ := by gcongr
  rw [scaled?, Int.natAbs_natCast] at h
  split at h
  · simp only [if_pos (Int.natCast_nonneg extra)] at h
    split at h
    case isTrue => cases h
    case isFalse =>
      obtain rfl := Option.some.inj h
      have hmul : 5145 * 2 ^ 51 ≤
          ((Binary64.ofNat digits).mul (Binary64.powerOfTen extra)).absValue :=
        Binary64.le_absValue_mul (by linarith) (by linarith) (hfinite (by norm_num))
      linarith
  · split at h
    case isTrue hzero =>
      rw [hzero, Binary64.absValue_zero] at hleft
      norm_num at hleft
    case isFalse =>
      rw [if_pos (Int.natCast_nonneg extra)] at h
      cases h

end Json
end RpcGateway
