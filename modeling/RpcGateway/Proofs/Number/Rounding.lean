import Mathlib.Algebra.Order.Field.Power
import Mathlib.Data.Nat.Cast.Field
import Mathlib.Data.Rat.Cast.Order
import Mathlib.Tactic.Linarith
import Mathlib.Tactic.Positivity
import Mathlib.Tactic.Ring
import RpcGateway.Number.Binary64

/-!
# Rounding

The numbers that arithmetic on floating-point words gives, as rational numbers.

**Values.**  `absValue` is the magnitude of a word, an infinite one counting as `2 ^ 1024`; `toInt?`
reads it off a finite word when it is an integer.

**Rounding.**  `ofRatio` gives `rounded` units of `2 ^ lastPlace`, and no number of at least one
loses more than an eighth of itself (`le_absValue_ofRatio`).  Between `2 ^ 63` and `2 ^ 64` the
numbers are multiples of 2048 (`absValue_ofNat_of_wide`).
-/

namespace RpcGateway
namespace Binary64

/-- The magnitude; that of an infinite number is the power of two above the finite ones. -/
def absValue (x : Binary64) : ℚ :=
  x.significand * (2 : ℚ) ^ x.exponent

/-- A fraction with a power of two in its numerator or its denominator. -/
theorem scaled_div
    (a b : ℕ) (e : ℤ) :
    ((a * Nat.pow 2 e.toNat : ℕ) : ℚ) / ((b * Nat.pow 2 (-e).toNat : ℕ) : ℚ) =
      a / b * 2 ^ e := by
  obtain ⟨n, rfl | rfl⟩ := e.eq_nat_or_neg
  · simp [mul_div_right_comm]
  · simp [div_eq_mul_inv, mul_assoc, mul_comm]

/-!
## Words
-/

theorem fields_of_word
    {w : ℕ}
    (hw : w < 2 ^ 63) :
    (⟨UInt64.ofNat w⟩ : Binary64).exponentField = w / 2 ^ 52 ∧
      (⟨UInt64.ofNat w⟩ : Binary64).fraction = w % 2 ^ 52 ∧
      (⟨UInt64.ofNat w⟩ : Binary64).isNegative = false := by
  have hbits : (UInt64.ofNat w).toNat = w := UInt64.toNat_ofNat_of_lt' (hw.trans (by decide))
  refine ⟨?_, ?_, ?_⟩
  · simp only [exponentField, hbits, Nat.pow_eq]
    omega
  · simp only [fraction, hbits, Nat.pow_eq]
  · simp only [isNegative, hbits, Nat.pow_eq, decide_eq_false_iff_not]
    omega

/-- A word of `k` steps of the exponent and a significand, which may carry into the exponent. -/
theorem absValue_word
    {k q : ℕ}
    (hq : q ≤ 2 ^ 53) (hnormal : 2 ^ 52 ≤ q ∨ k = 0) (hk : k * 2 ^ 52 + q < 2 ^ 63) :
    absValue ⟨UInt64.ofNat (k * 2 ^ 52 + q)⟩ = q * (2 : ℚ) ^ ((k : ℤ) - 1074) := by
  obtain ⟨hfield, hfraction, -⟩ := fields_of_word hk
  rw [absValue, significand, exponent, hfield, hfraction, Nat.pow_eq]
  rcases Nat.lt_or_ge q (2 ^ 52) with hsmall | hlarge
  · obtain rfl : k = 0 := by omega
    have hzero : (0 * 2 ^ 52 + q) / 2 ^ 52 = 0 := by omega
    have hrest : (0 * 2 ^ 52 + q) % 2 ^ 52 = q := by omega
    rw [hzero, hrest]
    norm_num
  · rcases Nat.lt_or_ge q (2 ^ 53) with hlt | hge
    · have hfield : (k * 2 ^ 52 + q) / 2 ^ 52 = k + 1 := by omega
      have hrest : (k * 2 ^ 52 + q) % 2 ^ 52 + 2 ^ 52 = q := by omega
      rw [hfield, if_neg (by omega), hrest, max_eq_left (by omega)]
      congr 2
      push_cast
      ring
    · obtain rfl : q = 2 ^ 53 := by omega
      have hfield : (k * 2 ^ 52 + 2 ^ 53) / 2 ^ 52 = k + 2 := by omega
      have hrest : (k * 2 ^ 52 + 2 ^ 53) % 2 ^ 52 + 2 ^ 52 = 2 ^ 52 := by omega
      have hexponent : ((k + 2 : ℕ) : ℤ) - 1075 = (k : ℤ) - 1074 + 1 := by push_cast; ring
      rw [hfield, if_neg (by omega), hrest, max_eq_left (by omega), hexponent,
        zpow_add_one₀ two_ne_zero]
      push_cast
      ring

theorem absValue_infinity :
    absValue infinity = 2 ^ 1024 := by
  have hsignificand : infinity.significand = 2 ^ 52 := by decide
  have hexponent : infinity.exponent = 972 := by decide
  rw [absValue, hsignificand, hexponent, Nat.cast_pow, Nat.cast_ofNat, ← zpow_natCast,
    ← zpow_add₀ two_ne_zero]
  norm_num

/-!
## Rounding a fraction
-/

theorem abs_roundDiv_sub_le
    (num : ℕ) {den : ℕ}
    (hden : 0 < den) :
    |(roundDiv num den : ℚ) - num / den| ≤ 1 / 2 := by
  have hq : (0 : ℚ) < den := by exact_mod_cast hden
  have hnum : (num : ℚ) = den * (num / den : ℕ) + (num % den : ℕ) := by
    exact_mod_cast (Nat.div_add_mod num den).symm
  have hlt : num % den < den := Nat.mod_lt num hden
  have hdiff : ∀ x : ℚ, x - num / den = (x * den - num) / den := fun x => by
    rw [sub_div, mul_div_cancel_right₀ x hq.ne']
  rw [hdiff, abs_div, abs_of_pos hq, div_le_iff₀ hq, abs_le]
  unfold roundDiv
  simp only
  split
  case isTrue h =>
    have hhalf : (den : ℚ) ≤ 2 * (num % den : ℕ) := by
      have : den ≤ 2 * (num % den) := by omega
      exact_mod_cast this
    have hrest : ((num % den : ℕ) : ℚ) ≤ den := by exact_mod_cast hlt.le
    rw [hnum]
    push_cast
    constructor <;> linarith
  case isFalse h =>
    have hhalf : 2 * ((num % den : ℕ) : ℚ) ≤ den := by
      have : 2 * (num % den) ≤ den := by omega
      exact_mod_cast this
    have hrest : (0 : ℚ) ≤ (num % den : ℕ) := by positivity
    rw [hnum]
    constructor <;> linarith

theorem scaled_lt_iff
    (num : ℕ) {den : ℕ}
    (hden : 0 < den) (e : ℤ) :
    num * Nat.pow 2 (-e).toNat < den * Nat.pow 2 e.toNat ↔ (num : ℚ) / den < 2 ^ e := by
  have hpos : (0 : ℚ) < (den * Nat.pow 2 e.toNat : ℕ) := by
    rw [Nat.pow_eq]
    positivity
  have hscaled := scaled_div num den (-e)
  rw [neg_neg] at hscaled
  rw [← Nat.cast_lt (α := ℚ), ← div_lt_one hpos, hscaled, zpow_neg, ← div_eq_mul_inv,
    div_lt_one (by positivity)]

/-- The order of a fraction is the binary logarithm of its value. -/
theorem binaryOrder_spec
    {num den : ℕ}
    (hnum : 0 < num) (hden : 0 < den) :
    (2 : ℚ) ^ binaryOrder num den ≤ num / den ∧
      (num : ℚ) / den < 2 ^ (binaryOrder num den + 1) := by
  have hq : (0 : ℚ) < den := by exact_mod_cast hden
  have hnumLow : (2 : ℚ) ^ num.log2 ≤ num := by exact_mod_cast Nat.log2_self_le hnum.ne'
  have hnumHigh : (num : ℚ) < 2 ^ (num.log2 + 1) := by exact_mod_cast Nat.lt_log2_self
  have hdenLow : (2 : ℚ) ^ den.log2 ≤ den := by exact_mod_cast Nat.log2_self_le hden.ne'
  have hdenHigh : (den : ℚ) < 2 ^ (den.log2 + 1) := by exact_mod_cast Nat.lt_log2_self
  -- the difference of the two logarithms is the order, or one more than the order
  have hlow : (2 : ℚ) ^ ((num.log2 : ℤ) - den.log2 - 1) ≤ num / den := by
    rw [le_div_iff₀ hq]
    calc (2 : ℚ) ^ ((num.log2 : ℤ) - den.log2 - 1) * den
        ≤ 2 ^ ((num.log2 : ℤ) - den.log2 - 1) * 2 ^ (den.log2 + 1) := by gcongr
      _ = 2 ^ num.log2 := by
          rw [← zpow_natCast, ← zpow_natCast, ← zpow_add₀ two_ne_zero]
          congr 1
          push_cast
          ring
      _ ≤ num := hnumLow
  have hhigh : (num : ℚ) / den < 2 ^ ((num.log2 : ℤ) - den.log2 + 1) := by
    rw [div_lt_iff₀ hq]
    calc (num : ℚ) < 2 ^ (num.log2 + 1) := hnumHigh
      _ = 2 ^ ((num.log2 : ℤ) - den.log2 + 1) * 2 ^ den.log2 := by
          rw [← zpow_natCast, ← zpow_natCast, ← zpow_add₀ two_ne_zero]
          congr 1
          push_cast
          ring
      _ ≤ 2 ^ ((num.log2 : ℤ) - den.log2 + 1) * den := by gcongr
  unfold binaryOrder
  simp only [scaled_lt_iff num hden]
  split
  case isTrue h => exact ⟨hlow, by rwa [sub_add_cancel]⟩
  case isFalse h => exact ⟨not_lt.mp h, hhigh⟩

/-- The power of two that a rounded fraction is counted in. -/
def lastPlace (num den : ℕ) : ℤ :=
  max (binaryOrder num den - 52) (-1074)

/-- The units of the last place that a fraction is rounded to. -/
def rounded (num den : ℕ) : ℕ :=
  roundDiv (num * Nat.pow 2 (-lastPlace num den).toNat) (den * Nat.pow 2 (lastPlace num den).toNat)

/-- A fraction is rounded by half a unit of its last place at most. -/
theorem abs_rounded_sub_le
    (num : ℕ) {den : ℕ}
    (hden : 0 < den) :
    |(rounded num den : ℚ) - num / den * 2 ^ (-lastPlace num den)| ≤ 1 / 2 := by
  have hscaled := scaled_div num den (-lastPlace num den)
  rw [neg_neg] at hscaled
  rw [← hscaled]
  exact abs_roundDiv_sub_le _ (Nat.mul_pos hden (Nat.pow_pos two_pos))

/-- In units of the last place a fraction has 53 bits, or less if it is too small. -/
theorem units_bounds
    {num den : ℕ}
    (hnum : 0 < num) (hden : 0 < den) :
    (num : ℚ) / den * 2 ^ (-lastPlace num den) < 2 ^ 53 ∧
      (lastPlace num den = -1074 ∨ 2 ^ 52 ≤ (num : ℚ) / den * 2 ^ (-lastPlace num den)) := by
  obtain ⟨hlow, hhigh⟩ := binaryOrder_spec hnum hden
  have hunit : (0 : ℚ) < 2 ^ lastPlace num den := by positivity
  rw [zpow_neg, ← div_eq_mul_inv, div_lt_iff₀ hunit, le_div_iff₀ hunit, ← zpow_natCast,
    ← zpow_natCast, ← zpow_add₀ two_ne_zero, ← zpow_add₀ two_ne_zero]
  constructor
  · refine hhigh.trans_le (zpow_le_zpow_right₀ one_le_two ?_)
    have := le_max_left (binaryOrder num den - 52) (-1074)
    simp only [lastPlace]
    omega
  · rcases le_total (binaryOrder num den - 52) (-1074) with h | h
    · exact Or.inl (max_eq_right h)
    · right
      rw [lastPlace, max_eq_left h]
      refine le_trans (zpow_le_zpow_right₀ one_le_two ?_) hlow
      omega

theorem rounded_bounds
    {num den : ℕ}
    (hnum : 0 < num) (hden : 0 < den) :
    rounded num den ≤ 2 ^ 53 ∧ (lastPlace num den = -1074 ∨ 2 ^ 52 ≤ rounded num den) := by
  obtain ⟨hlt, hnormal⟩ := units_bounds hnum hden
  obtain ⟨hbelow, habove⟩ := abs_le.mp (abs_rounded_sub_le num hden)
  constructor
  · have : (rounded num den : ℚ) < (2 ^ 53 + 1 : ℕ) := by push_cast; linarith
    have := Nat.cast_lt.mp this
    omega
  · refine hnormal.imp_right fun hle => ?_
    have : ((2 ^ 52 - 1 : ℕ) : ℚ) < rounded num den := by
      push_cast
      linarith
    have := Nat.cast_lt.mp this
    omega

/-- What a fraction is rounded to: a finite number, by its units of the last place, or an infinite
one if it is large. -/
theorem ofRatio_cases
    {num den : ℕ}
    (hnum : 0 < num) (hden : 0 < den) :
    (absValue (ofRatio num den) = rounded num den * 2 ^ lastPlace num den ∧
        (ofRatio num den).isFinite = true ∧ (ofRatio num den).isNegative = false) ∨
      (ofRatio num den = infinity ∧ (2 : ℚ) ^ 1023 ≤ num / den) := by
  obtain ⟨hmost, hnormal⟩ := rounded_bounds hnum hden
  have hplace : -1074 ≤ lastPlace num den := le_max_right _ _
  have hword : ofRatio num den =
      if (lastPlace num den + 1074).toNat * 2 ^ 52 + rounded num den < infinity.bits.toNat
      then ⟨UInt64.ofNat ((lastPlace num den + 1074).toNat * 2 ^ 52 + rounded num den)⟩
      else infinity := by
    rw [ofRatio, if_neg hnum.ne']
    rfl
  have hinfinity : infinity.bits.toNat = 2047 * 2 ^ 52 := by decide
  rw [hword]
  split
  case isTrue hlt =>
    rw [hinfinity] at hlt
    have hk : (((lastPlace num den + 1074).toNat : ℕ) : ℤ) - 1074 = lastPlace num den := by
      omega
    obtain ⟨hfield, -, hsign⟩ := fields_of_word (hlt.trans (by decide))
    refine Or.inl ⟨?_, ?_, hsign⟩
    · rw [absValue_word hmost (by omega) (hlt.trans (by decide)), hk]
    · rw [isFinite, hfield, bne_iff_ne]
      omega
  case isFalse hge =>
    rw [hinfinity] at hge
    have horder : 1023 ≤ binaryOrder num den := by
      have hlarge : 971 ≤ lastPlace num den := by omega
      rcases le_max_iff.mp hlarge with h | h <;> omega
    refine Or.inr ⟨rfl, ?_⟩
    calc (2 : ℚ) ^ 1023 = 2 ^ (1023 : ℤ) := (zpow_natCast 2 1023).symm
      _ ≤ 2 ^ binaryOrder num den := zpow_le_zpow_right₀ one_le_two horder
      _ ≤ num / den := (binaryOrder_spec hnum hden).1

/-- Rounding takes away an eighth of a number of at least one at most. -/
theorem le_absValue_ofRatio
    {num den : ℕ} {c : ℚ}
    (hden : 0 < den) (hone : den ≤ num) (hc : c ≤ 7 / 8 * (num / den)) (hmax : c ≤ 2 ^ 1024) :
    c ≤ absValue (ofRatio num den) := by
  have hnum : 0 < num := hden.trans_le hone
  rcases ofRatio_cases hnum hden with ⟨hvalue, -⟩ | ⟨hinfinity, -⟩
  · rw [hvalue]
    have hunit : (0 : ℚ) < 2 ^ lastPlace num den := by positivity
    obtain ⟨hbelow, -⟩ := abs_le.mp (abs_rounded_sub_le num hden)
    obtain ⟨-, hsmall | hlarge⟩ := units_bounds hnum hden
    · -- the last place of a number of at least one is not the least one
      have hratio : (1 : ℚ) ≤ num / den := by
        rw [one_le_div (by exact_mod_cast hden)]
        exact_mod_cast hone
      have horder := hratio.trans_lt (binaryOrder_spec hnum hden).2
      have hpositive : 0 < binaryOrder num den + 1 := (one_lt_zpow_iff_right₀ one_lt_two).mp horder
      have := le_max_left (binaryOrder num den - 52) (-1074)
      rw [lastPlace] at hsmall
      omega
    · have hback : (num : ℚ) / den =
          num / den * 2 ^ (-lastPlace num den) * 2 ^ lastPlace num den := by
        rw [mul_assoc, ← zpow_add₀ two_ne_zero, neg_add_cancel, zpow_zero, mul_one]
      calc c ≤ 7 / 8 * (num / den) := hc
        _ = 7 / 8 * (num / den * 2 ^ (-lastPlace num den)) * 2 ^ lastPlace num den := by
            rw [mul_assoc (7 / 8), ← hback]
        _ ≤ rounded num den * 2 ^ lastPlace num den := by
            gcongr
            linarith
  · rw [hinfinity, absValue_infinity]
    exact hmax

theorem le_absValue_ofNat
    {n : ℕ} {c : ℚ}
    (hn : 0 < n) (hc : c ≤ 7 / 8 * n) (hmax : c ≤ 2 ^ 1024) :
    c ≤ absValue (ofNat n) :=
  le_absValue_ofRatio one_pos hn (by simpa using hc) hmax

theorem le_absValue_mul
    {x y : Binary64} {c : ℚ}
    (hone : 1 ≤ absValue x * absValue y) (hc : c ≤ 7 / 8 * (absValue x * absValue y))
    (hmax : c ≤ 2 ^ 1024) :
    c ≤ absValue (x.mul y) := by
  have hratio := scaled_div (x.significand * y.significand) 1 (x.exponent + y.exponent)
  have hproduct : (((x.significand * y.significand : ℕ) : ℚ) / (1 : ℕ)) *
      2 ^ (x.exponent + y.exponent) = absValue x * absValue y := by
    rw [zpow_add₀ two_ne_zero, absValue, absValue]
    push_cast
    ring
  rw [hproduct, one_mul] at hratio
  have hden : 0 < Nat.pow 2 (-(x.exponent + y.exponent)).toNat := Nat.pow_pos two_pos
  refine le_absValue_ofRatio hden ?_ ?_ hmax
  · rw [← hratio, one_le_div (by exact_mod_cast hden)] at hone
    exact_mod_cast hone
  · rw [hratio]
    exact hc

/-!
## Signs and integers
-/

/-- A negated number has the sign bit flipped and all the other bits as they were. -/
theorem fields_neg
    (x : Binary64) :
    x.neg.exponentField = x.exponentField ∧ x.neg.fraction = x.fraction ∧
      x.neg.isNegative = !x.isNegative := by
  have hbits : x.neg.bits.toNat = x.bits.toNat ^^^ 2 ^ 63 := UInt64.toNat_xor ..
  have hlt : x.bits.toNat < 2 ^ 64 := UInt64.toNat_lt _
  refine ⟨?_, ?_, ?_⟩
  · have hlow : (2 ^ 63 / 2 ^ 52) % 2 ^ 11 = 0 := by decide
    have hfield : (x.bits.toNat ^^^ 2 ^ 63) / 2 ^ 52 % 2 ^ 11 = x.bits.toNat / 2 ^ 52 % 2 ^ 11 := by
      rw [Nat.xor_div_two_pow, Nat.xor_mod_two_pow, hlow, Nat.xor_zero]
    rw [exponentField, exponentField, hbits]
    exact hfield
  · have hlow : 2 ^ 63 % 2 ^ 52 = 0 := by decide
    rw [fraction, fraction, hbits, Nat.pow_eq, Nat.xor_mod_two_pow, hlow, Nat.xor_zero]
  · have hhigh : (x.bits.toNat ^^^ 2 ^ 63) / 2 ^ 63 = x.bits.toNat / 2 ^ 63 ^^^ 1 := by
      rw [Nat.xor_div_two_pow, Nat.div_self (by decide)]
    have htop : x.bits.toNat / 2 ^ 63 = 0 ∨ x.bits.toNat / 2 ^ 63 = 1 := by omega
    simp only [isNegative, hbits, Nat.pow_eq]
    rcases htop with htop | htop
    · rw [htop, Nat.zero_xor] at hhigh
      rw [decide_eq_true (by omega), decide_eq_false (by omega)]
      rfl
    · rw [htop, Nat.xor_self] at hhigh
      rw [decide_eq_false (by omega), decide_eq_true (by omega)]
      rfl

theorem absValue_neg
    (x : Binary64) :
    absValue x.neg = absValue x := by
  obtain ⟨hfield, hfraction, -⟩ := fields_neg x
  simp only [absValue, significand, exponent, hfield, hfraction]

theorem isFinite_neg
    (x : Binary64) :
    x.neg.isFinite = x.isFinite := by
  rw [isFinite, isFinite, (fields_neg x).1]

theorem magnitude_div
    (x : Binary64) :
    (x.magnitude.1 : ℚ) / x.magnitude.2 = absValue x := by
  have hscaled := scaled_div x.significand 1 x.exponent
  rw [one_mul] at hscaled
  rw [magnitude, hscaled, absValue]
  simp

theorem magnitude_snd_pos
    (x : Binary64) :
    0 < x.magnitude.2 :=
  Nat.pow_pos two_pos

/-- An integer that is read off a number has its magnitude. -/
theorem natAbs_of_toInt?
    {x : Binary64} {i : ℤ}
    (h : x.toInt? = some i) :
    absValue x = i.natAbs := by
  unfold toInt? at h
  split at h
  case isFalse => cases h
  case isTrue hfinite =>
    simp only at h
    split at h
    case isFalse => cases h
    case isTrue hdiv =>
      have hden : (x.magnitude.2 : ℚ) ≠ 0 := by exact_mod_cast x.magnitude_snd_pos.ne'
      have hvalue : absValue x = (x.magnitude.1 / x.magnitude.2 : ℕ) := by
        rw [← magnitude_div, Nat.cast_div (Nat.dvd_of_mod_eq_zero hdiv) hden]
      obtain rfl := Option.some.inj h
      rw [hvalue]
      split
      · rw [Int.natAbs_neg, Int.natAbs_natCast]
      · rw [Int.natAbs_natCast]

/-- A finite number whose magnitude is an integer is read as that integer. -/
theorem toInt?_of_absValue
    {x : Binary64} {k : ℕ}
    (hfinite : x.isFinite = true) (h : absValue x = k) :
    x.toInt? = some (if x.isNegative then -(k : ℤ) else k) := by
  have hpos := x.magnitude_snd_pos
  have hnum : x.magnitude.1 = k * x.magnitude.2 := by
    have hden : (x.magnitude.2 : ℚ) ≠ 0 := by exact_mod_cast hpos.ne'
    have hvalue := magnitude_div x
    rw [h, div_eq_iff hden] at hvalue
    exact_mod_cast hvalue
  have hmod : x.magnitude.1 % x.magnitude.2 = 0 := by rw [hnum, Nat.mul_mod_left]
  have hdiv : x.magnitude.1 / x.magnitude.2 = k := by rw [hnum, Nat.mul_div_cancel _ hpos]
  unfold toInt?
  rw [if_pos hfinite]
  simp only [hmod, hdiv, if_true]

theorem absValue_zero :
    absValue zero = 0 := by
  have hsignificand : zero.significand = 0 := by decide
  rw [absValue, hsignificand, Nat.cast_zero, zero_mul]

/-- A zero is read as zero, also with a sign. -/
theorem toInt?_neg_zero :
    zero.neg.toInt? = some 0 := by
  have hvalue : absValue zero.neg = (0 : ℕ) := by rw [absValue_neg, absValue_zero, Nat.cast_zero]
  have hread := toInt?_of_absValue (by decide) hvalue
  rwa [Nat.cast_zero, neg_zero, ite_self] at hread

/-!
## Integers of 64 bits
-/

/-- A number of 64 bits is rounded to a multiple of 2048. -/
theorem absValue_ofNat_of_wide
    {n : ℕ}
    (hlow : 2 ^ 63 ≤ n) (hhigh : n < 2 ^ 64) :
    absValue (ofNat n) = (2048 * roundDiv n 2048 : ℕ) ∧ (ofNat n).isFinite = true ∧
      (ofNat n).isNegative = false := by
  have hnum : 0 < n := by omega
  have horder : binaryOrder n 1 = 63 := by
    obtain ⟨hle, hlt⟩ := binaryOrder_spec hnum one_pos
    rw [Nat.cast_one, div_one] at hle hlt
    have hlow' : (2 : ℚ) ^ (63 : ℤ) ≤ n := by exact_mod_cast hlow
    have hhigh' : (n : ℚ) < 2 ^ (64 : ℤ) := by exact_mod_cast hhigh
    have := (zpow_lt_zpow_iff_right₀ one_lt_two).mp (hle.trans_lt hhigh')
    have := (zpow_lt_zpow_iff_right₀ one_lt_two).mp (hlow'.trans_lt hlt)
    omega
  have hplace : lastPlace n 1 = 11 := by
    rw [lastPlace, horder]
    rfl
  have hrounded : rounded n 1 = roundDiv n 2048 := by
    rw [rounded, hplace]
    simp
  rcases ofRatio_cases hnum one_pos with ⟨hvalue, hfinite, hsign⟩ | ⟨-, hlarge⟩
  · refine ⟨?_, hfinite, hsign⟩
    rw [ofNat, hvalue, hplace, hrounded]
    push_cast
    ring
  · -- the greatest number of 64 bits is far below the infinite ones
    have hhigh' : (n : ℚ) < 2 ^ 64 := by exact_mod_cast hhigh
    have hpow : (2 : ℚ) ^ 64 ≤ 2 ^ 1023 := pow_le_pow_right₀ one_le_two (by decide)
    rw [Nat.cast_one, div_one] at hlarge
    exact absurd (hpow.trans hlarge) (not_le.mpr hhigh')

end Binary64
end RpcGateway
