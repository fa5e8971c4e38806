import RpcGateway.Call.Timeout
import RpcGateway.Proofs.Text.Blank
import RpcGateway.Proofs.Text.Decimal

/-!
# Exact timeouts

Which texts are timeouts, and how long they are.

**Grammar.**  `Gives` relates a text to the digits and the unit that it gives: between blanks stand
one to eight digits and one letter.  The text is a timeout if and only if there are such digits and
such a unit, and it is as long as their product (`parse?_eq_some_iff`).

**Words.**  Eight digits make less than a hundred million (`value_lt`), so neither the amount nor
its seconds leave 64 bits, and the products in words are those of the numbers (`span?_eq`).

**Cutting.**  Where the last character of a text begins is a place between two characters whatever
the text is (`split?_eq`, `isValid_cut`).
-/

namespace RpcGateway

namespace Timeout

open Decimal (IsDigits)

/-- The number that digits make. -/
def value (digits : List Char) : Nat :=
  Nat.ofDigitChars 10 digits 0

/-- Between blanks a text gives one to eight digits and the letter of a unit. -/
structure Gives (s : String) (digits : List Char) (unit : Char) : Prop where
  text : ∃ front behind,
    s.toList = front ++ (digits ++ [unit]) ++ behind ∧
      (∀ c ∈ front, Blank.isBlank c = true) ∧ ∀ c ∈ behind, Blank.isBlank c = true
  isDigits : IsDigits digits
  few : digits.length ≤ 8
  letter : unit ∈ ['H', 'M', 'S', 'm', 'u', 'n']

/-!
## Units
-/

theorem mem_letters_iff
    {unit : Char} :
    unit ∈ ['H', 'M', 'S', 'm', 'u', 'n'] ↔ ∃ length, unit? unit = some length := by
  simp only [List.mem_cons, List.not_mem_nil, or_false]
  constructor
  · rintro (rfl | rfl | rfl | rfl | rfl | rfl) <;> exact ⟨_, rfl⟩
  · rintro ⟨length, h⟩
    unfold unit? at h
    split at h
    case h_7 => cases h
    all_goals simp

/-- As long as the seconds of the amount stay within 64 bits, a span is a product. -/
theorem span?_eq
    {amount : UInt64}
    (h : amount.toNat * 3600 < UInt64.size) (unit : Char) :
    span? amount unit = (unit? unit).map (amount.toNat * ·) := by
  have hhours : (amount * 3600).toNat = amount.toNat * 3600 := by
    rw [UInt64.toNat_mul]
    exact Nat.mod_eq_of_lt h
  have hminutes : (amount * 60).toNat = amount.toNat * 60 := by
    rw [UInt64.toNat_mul]
    exact Nat.mod_eq_of_lt (Nat.lt_of_le_of_lt (Nat.mul_le_mul_left _ (by decide)) h)
  unfold span? unit? ofSeconds
  split <;> simp only [hhours, hminutes, Option.map_some, Option.map_none, Nat.mul_assoc,
    Nat.mul_one, Nat.reduceMul]

/-!
## Digits
-/

theorem value_lt
    {digits : List Char}
    (h : IsDigits digits) (hfew : digits.length ≤ 8) :
    value digits < 100000000 := by
  have hpower : 10 ^ digits.length ≤ 10 ^ 8 := Nat.pow_le_pow_right (by decide) hfew
  have hlt := Decimal.ofDigitChars_lt h.decimal 0
  unfold value
  omega

/-- The seconds of as many hours as eight digits can give fit in a word. -/
theorem seconds_fit
    {digits : List Char}
    (h : IsDigits digits) (hfew : digits.length ≤ 8) :
    value digits * 3600 < UInt64.size := by
  have hlt := value_lt h hfew
  have hsize : UInt64.size = 18446744073709551616 := rfl
  omega

/-- One to eight digits give the number that they make. -/
theorem amount?_eq_some_iff
    {digits : List Char} {amount : UInt64} :
    amount? digits = some amount ↔
      IsDigits digits ∧ digits.length ≤ 8 ∧ amount.toNat = value digits := by
  have hbytes : (∀ c ∈ digits, c.isDigit = true) →
      (Utf8.encode digits).length = digits.length := fun h => by
    rw [Decimal.encode_digits h, List.length_map]
  unfold amount?
  constructor
  · intro h
    simp only [Option.ite_none_left_eq_some, Bool.or_eq_true, Bool.not_eq_true', not_or,
      Bool.not_eq_true, Bool.not_eq_false, List.isEmpty_eq_false_iff, List.all_eq_true,
      decide_eq_true_eq, Nat.not_lt] at h
    obtain ⟨⟨⟨hfilled, hshort⟩, hdecimal⟩, h⟩ := h
    have hdigits : IsDigits digits := ⟨hfilled, hdecimal⟩
    have hfew : digits.length ≤ 8 := hbytes hdecimal ▸ hshort
    have hlt := value_lt hdigits hfew
    have hle : value digits ≤ Decimal.maxUInt64 := Nat.le_trans (Nat.le_of_lt hlt) (by decide)
    rw [Decimal.unsigned?_of_isDigits hdigits hle, Option.map_some, Option.some.injEq] at h
    subst h
    exact ⟨hdigits, hfew,
      UInt64.toNat_ofNat_of_lt' (Nat.lt_of_lt_of_le hlt (by decide))⟩
  · rintro ⟨hdigits, hfew, hvalue⟩
    have hlt := value_lt hdigits hfew
    have hle : value digits ≤ Decimal.maxUInt64 := Nat.le_trans (Nat.le_of_lt hlt) (by decide)
    have hcheck : (digits.isEmpty || decide (8 < (Utf8.encode digits).length) ||
        !digits.all Char.isDigit) = false := by
      simp only [Bool.or_eq_false_iff, List.isEmpty_eq_false_iff, decide_eq_false_iff_not,
        Bool.not_eq_false', List.all_eq_true, Nat.not_lt, hbytes hdigits.decimal]
      exact ⟨⟨hdigits.filled, hfew⟩, hdigits.decimal⟩
    rw [hcheck, if_neg Bool.false_ne_true, Decimal.unsigned?_of_isDigits hdigits hle,
      Option.map_some, ← value, ← hvalue, UInt64.ofNat_toNat]

/-!
## Cutting
-/

/-- The letter of a unit is cut off between two characters. -/
theorem split?_eq
    (cs : List Char) :
    split? cs = cs.getLast?.map fun last => (cs.dropLast, last) := by
  unfold split?
  cases hlast : cs.getLast? with
  | none => rfl
  | some last =>
      obtain ⟨front, rfl⟩ := List.getLast?_eq_some_iff.mp hlast
      have hsingle : (Utf8.encode [last]).length = last.utf8Size := by
        rw [Utf8.encode, List.flatMap_singleton, String.length_utf8EncodeChar]
      have hcut : (Utf8.encode (front ++ [last])).take
          ((Utf8.encode (front ++ [last])).length - last.utf8Size) = Utf8.encode front := by
        rw [Utf8.encode_append, List.length_append, hsingle, Nat.add_sub_cancel, List.take_left]
      have htext : Utf8.text? (Utf8.encode front) = some (String.ofList front) :=
        Utf8.text?_eq_some_iff.mpr (by rw [Utf8.bytes, String.toList_ofList])
      simp only [hcut, htext, Option.map_some, String.toList_ofList, List.dropLast_concat]

/-- Where the last character of a text begins, one may cut the text. -/
theorem isValid_cut
    {cs : List Char} {last : Char}
    (h : last ∈ cs.getLast?) :
    String.Pos.Raw.IsValid (String.ofList cs)
      ⟨(String.ofList cs).utf8ByteSize - last.utf8Size⟩ := by
  obtain ⟨front, rfl⟩ := List.getLast?_eq_some_iff.mp h
  refine String.Pos.Raw.isValid_iff_exists_append.mpr
    ⟨String.ofList front, String.ofList [last], String.ofList_append, ?_⟩
  have hsingle : (String.ofList [last]).utf8ByteSize = last.utf8Size :=
    String.utf8ByteSize_singleton
  rw [String.ofList_append, String.utf8ByteSize_append, hsingle, Nat.add_sub_cancel]
  rfl

/-!
## Timeouts
-/

theorem parseTrimmed?_eq_some_iff
    {cs : List Char} {span : Nat} :
    parseTrimmed? cs = some span ↔
      ∃ digits unit length,
        cs = digits ++ [unit] ∧ IsDigits digits ∧ digits.length ≤ 8 ∧
          unit? unit = some length ∧ span = value digits * length := by
  unfold parseTrimmed?
  rw [split?_eq]
  constructor
  · intro h
    cases hlast : cs.getLast? with
    | none => simp [hlast] at h
    | some unit =>
        obtain ⟨digits, rfl⟩ := List.getLast?_eq_some_iff.mp hlast
        simp only [hlast, Option.map_some, List.dropLast_concat] at h
        cases hamount : amount? digits with
        | none => simp [hamount] at h
        | some amount =>
            obtain ⟨hdigits, hfew, hvalue⟩ := amount?_eq_some_iff.mp hamount
            have hword := seconds_fit hdigits hfew
            simp only [hamount, span?_eq (hvalue ▸ hword), Option.map_eq_some_iff, hvalue] at h
            obtain ⟨length, hlength, rfl⟩ := h
            exact ⟨digits, unit, length, rfl, hdigits, hfew, hlength, rfl⟩
  · rintro ⟨digits, unit, length, rfl, hdigits, hfew, hlength, rfl⟩
    have hword := seconds_fit hdigits hfew
    have hvalue : (UInt64.ofNat (value digits)).toNat = value digits :=
      UInt64.toNat_ofNat_of_lt' (Nat.lt_of_le_of_lt (by omega) hword)
    have hamount := amount?_eq_some_iff.mpr ⟨hdigits, hfew, hvalue⟩
    simp only [List.getLast?_concat, Option.map_some, List.dropLast_concat, hamount,
      span?_eq (hvalue.symm ▸ hword), hlength, hvalue]

/-- Digits and the letter of a unit have no blanks at their ends. -/
theorem trimmed_concat
    {digits : List Char} {unit : Char}
    (h : IsDigits digits) (hletter : unit ∈ ['H', 'M', 'S', 'm', 'u', 'n']) :
    Blank.Trimmed (digits ++ [unit]) := by
  obtain ⟨c, rest, rfl⟩ := List.exists_cons_of_ne_nil h.filled
  refine ⟨fun first hfirst => ?_, fun last hlast => ?_⟩
  · obtain rfl : c = first := by simpa using hfirst
    exact Blank.isBlank_of_isDigit (h.decimal c (List.mem_cons_self ..))
  · obtain rfl : unit = last := by
      rw [List.getLast?_concat] at hlast
      exact Option.some.inj hlast
    simp only [List.mem_cons, List.not_mem_nil, or_false] at hletter
    rcases hletter with rfl | rfl | rfl | rfl | rfl | rfl <;> rfl

theorem gives_iff
    {s : String} {digits : List Char} {unit : Char} :
    Gives s digits unit ↔
      Blank.trim s.toList = digits ++ [unit] ∧ IsDigits digits ∧ digits.length ≤ 8 ∧
        unit ∈ ['H', 'M', 'S', 'm', 'u', 'n'] := by
  constructor
  · rintro ⟨htext, hdigits, hfew, hletter⟩
    exact ⟨Blank.trim_eq_iff.mpr ⟨trimmed_concat hdigits hletter, htext⟩, hdigits, hfew, hletter⟩
  · rintro ⟨htrim, hdigits, hfew, hletter⟩
    exact ⟨(Blank.trim_eq_iff.mp htrim).2, hdigits, hfew, hletter⟩

/-- A text is a timeout if and only if it gives digits and a unit. -/
theorem parse?_eq_some_iff
    {s : String} {span : Nat} :
    parse? s = some span ↔
      ∃ digits unit length,
        Gives s digits unit ∧ unit? unit = some length ∧ span = value digits * length := by
  unfold parse?
  rw [parseTrimmed?_eq_some_iff]
  constructor
  · rintro ⟨digits, unit, length, htrim, hdigits, hfew, hlength, hspan⟩
    have hletter := mem_letters_iff.mpr ⟨length, hlength⟩
    exact ⟨digits, unit, length, gives_iff.mpr ⟨htrim, hdigits, hfew, hletter⟩, hlength, hspan⟩
  · rintro ⟨digits, unit, length, hgives, hlength, hspan⟩
    obtain ⟨htrim, hdigits, hfew, -⟩ := gives_iff.mp hgives
    exact ⟨digits, unit, length, htrim, hdigits, hfew, hlength, hspan⟩

/-- The unit of a text that gives one has a length, by which the text is a timeout. -/
theorem Gives.exists_length
    {s : String} {digits : List Char} {unit : Char}
    (h : Gives s digits unit) :
    ∃ length, unit? unit = some length ∧ parse? s = some (value digits * length) := by
  obtain ⟨length, hlength⟩ := mem_letters_iff.mp h.letter
  exact ⟨length, hlength, parse?_eq_some_iff.mpr ⟨digits, unit, length, h, hlength, rfl⟩⟩

/-- What it is for a text to be read exactly. -/
structure ReadExactly (s : String) : Prop where
  /-- One to eight digits and a unit make a timeout, and nothing else does. -/
  grammar : ∀ span, parse? s = some span ↔
    ∃ digits unit length,
      Gives s digits unit ∧ unit? unit = some length ∧ span = value digits * length
  /-- The last character is cut off between two characters, and nothing else goes with it. -/
  cut : ∀ last ∈ (Blank.trim s.toList).getLast?,
    String.Pos.Raw.IsValid (String.ofList (Blank.trim s.toList))
        ⟨(String.ofList (Blank.trim s.toList)).utf8ByteSize - last.utf8Size⟩ ∧
      split? (Blank.trim s.toList) = some ((Blank.trim s.toList).dropLast, last)
  /-- The products of an amount are no larger than a word. -/
  words : ∀ digits last, split? (Blank.trim s.toList) = some (digits, last) →
    ∀ amount, amount? digits = some amount →
      amount.toNat = value digits ∧ amount.toNat * 3600 < UInt64.size ∧
        amount.toNat * 60 < UInt64.size
  /-- More of the same unit is at least as long. -/
  monotone : ∀ digits unit, Gives s digits unit →
    ∀ t more, Gives t more unit → value digits ≤ value more →
      ∃ span longer, parse? s = some span ∧ parse? t = some longer ∧ span ≤ longer
  /-- Zeros in front of the digits change nothing. -/
  zeros : ∀ digits unit, Gives s digits unit →
    ∀ t k, Gives t (List.replicate k '0' ++ digits) unit → parse? t = parse? s

/-- **Exact timeouts.**  Every text is read exactly: as the product of its digits and its unit if it
gives them and as nothing otherwise, without leaving 64 bits and without cutting a character. -/
theorem read_exactly
    (s : String) :
    ReadExactly s where
  grammar _ := parse?_eq_some_iff
  cut last hlast := by
    refine ⟨isValid_cut hlast, ?_⟩
    rw [split?_eq, Option.mem_def.mp hlast, Option.map_some]
  words digits last _ amount hamount := by
    obtain ⟨hdigits, hfew, hvalue⟩ := amount?_eq_some_iff.mp hamount
    have hhours := seconds_fit hdigits hfew
    rw [← hvalue] at hhours
    exact ⟨hvalue, hhours, Nat.lt_of_le_of_lt (Nat.mul_le_mul_left _ (by decide)) hhours⟩
  monotone digits unit hs t more ht hle := by
    obtain ⟨length, hlength, hspan⟩ := hs.exists_length
    obtain ⟨length', hlength', hlonger⟩ := ht.exists_length
    obtain rfl : length = length' := Option.some.inj (hlength.symm.trans hlength')
    exact ⟨_, _, hspan, hlonger, Nat.mul_le_mul_right length hle⟩
  zeros digits unit hs t k ht := by
    obtain ⟨length, hlength, hspan⟩ := hs.exists_length
    obtain ⟨length', hlength', hpadded⟩ := ht.exists_length
    obtain rfl : length = length' := Option.some.inj (hlength.symm.trans hlength')
    have hvalue : value (List.replicate k '0' ++ digits) = value digits :=
      Decimal.ofDigitChars_zeros_append k digits
    rw [hpadded, hspan, hvalue]

/-- The longest timeout. -/
example :
    parse? " 99999999H\t" = some 359999996400000000000 := by
  decide

end Timeout
end RpcGateway
