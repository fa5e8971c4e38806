import Mathlib.Tactic.Common
import RpcGateway.Text.Utf8

/-!
# UTF-8 is read as it is written

Reading and writing are inverse to each other.  A character is at the front of a byte list if and
only if the list begins with the bytes of the character, and a byte list has a text if and only if
it is the bytes of that text.

**Arithmetic.**  Both directions compare a scalar value with its digits in base 64, so the bytes are
taken to natural numbers first.
-/

namespace RpcGateway
namespace Utf8

/-!
## The bytes of one character
-/

theorem encodeChar_one
    {c : Char}
    (h : c.toNat ≤ 0x7f) :
    String.utf8EncodeChar c = [UInt8.ofNat c.toNat] := by
  unfold String.utf8EncodeChar
  exact if_pos h

theorem encodeChar_two
    {c : Char}
    (h₁ : 0x7f < c.toNat) (h₂ : c.toNat ≤ 0x7ff) :
    String.utf8EncodeChar c =
      [UInt8.ofNat (c.toNat / 64 % 32 + 0xc0), UInt8.ofNat (c.toNat % 64 + 0x80)] := by
  unfold String.utf8EncodeChar
  exact (if_neg (Nat.not_le.mpr h₁)).trans (if_pos h₂)

theorem encodeChar_three
    {c : Char}
    (h₁ : 0x7ff < c.toNat) (h₂ : c.toNat ≤ 0xffff) :
    String.utf8EncodeChar c =
      [UInt8.ofNat (c.toNat / 4096 % 16 + 0xe0), UInt8.ofNat (c.toNat / 64 % 64 + 0x80),
        UInt8.ofNat (c.toNat % 64 + 0x80)] := by
  have h₀ : ¬ c.toNat ≤ 0x7f := by omega
  unfold String.utf8EncodeChar
  exact ((if_neg h₀).trans (if_neg (Nat.not_le.mpr h₁))).trans (if_pos h₂)

theorem encodeChar_four
    {c : Char}
    (h : 0xffff < c.toNat) :
    String.utf8EncodeChar c =
      [UInt8.ofNat (c.toNat / 262144 % 8 + 0xf0), UInt8.ofNat (c.toNat / 4096 % 64 + 0x80),
        UInt8.ofNat (c.toNat / 64 % 64 + 0x80), UInt8.ofNat (c.toNat % 64 + 0x80)] := by
  have h₀ : ¬ c.toNat ≤ 0x7f := by omega
  have h₁ : ¬ c.toNat ≤ 0x7ff := by omega
  unfold String.utf8EncodeChar
  exact ((if_neg h₀).trans (if_neg h₁)).trans (if_neg (Nat.not_le.mpr h))

theorem toNat_lt_or_gt
    (c : Char) :
    c.toNat < 0xd800 ∨ 0xdfff < c.toNat ∧ c.toNat < 0x110000 := by
  exact c.valid

theorem toNat_ofNat
    {n : Nat}
    (h : n < 0xd800 ∨ 0xdfff < n ∧ n < 0x110000) :
    (Char.ofNat n).toNat = n := by
  unfold Char.ofNat
  rw [dif_pos h]
  rfl

theorem toNat_byte
    {n : Nat}
    (h : n < 256) :
    (UInt8.ofNat n).toNat = n := by
  rw [UInt8.toNat_ofNat', Nat.mod_eq_of_lt h]

theorem ofNat_eq_byte
    {n : Nat} {b : UInt8}
    (h : n = b.toNat) :
    UInt8.ofNat n = b := by
  rw [h, UInt8.ofNat_toNat]

theorem encode_singleton_of_lt
    {n : Nat}
    (h : n < 128) :
    encode [Char.ofNat n] = [UInt8.ofNat n] := by
  have hn : (Char.ofNat n).toNat = n := toNat_ofNat (by omega)
  have hone := encodeChar_one (c := Char.ofNat n) (by omega)
  rw [hn] at hone
  simp only [encode, List.flatMap_cons, List.flatMap_nil, List.append_nil, hone]

/-!
## Classes of bytes as numbers
-/

theorem isTail_iff
    {b : UInt8} :
    isTail b = true ↔ 0x80 ≤ b.toNat ∧ b.toNat ≤ 0xbf := by
  simp [isTail, UInt8.le_iff_toNat_le]

theorem isSecondOfThree_iff
    {a b : UInt8} :
    isSecondOfThree a b = true ↔
      (0x80 ≤ b.toNat ∧ b.toNat ≤ 0xbf) ∧
        (a.toNat = 0xe0 → 0xa0 ≤ b.toNat) ∧ (a.toNat = 0xed → b.toNat ≤ 0x9f) := by
  unfold isSecondOfThree
  simp only [← UInt8.toNat_inj, UInt8.reduceToNat]
  split_ifs with h₁ h₂
  · simp only [Bool.and_eq_true, decide_eq_true_eq, UInt8.le_iff_toNat_le, UInt8.reduceToNat]
    omega
  · simp only [Bool.and_eq_true, decide_eq_true_eq, UInt8.le_iff_toNat_le, UInt8.reduceToNat]
    omega
  · rw [isTail_iff]
    omega

theorem isSecondOfFour_iff
    {a b : UInt8} :
    isSecondOfFour a b = true ↔
      (0x80 ≤ b.toNat ∧ b.toNat ≤ 0xbf) ∧
        (a.toNat = 0xf0 → 0x90 ≤ b.toNat) ∧ (a.toNat = 0xf4 → b.toNat ≤ 0x8f) := by
  unfold isSecondOfFour
  simp only [← UInt8.toNat_inj, UInt8.reduceToNat]
  split_ifs with h₁ h₂
  · simp only [Bool.and_eq_true, decide_eq_true_eq, UInt8.le_iff_toNat_le, UInt8.reduceToNat]
    omega
  · simp only [Bool.and_eq_true, decide_eq_true_eq, UInt8.le_iff_toNat_le, UInt8.reduceToNat]
    omega
  · rw [isTail_iff]
    omega

theorem front_eq_ite
    (a : UInt8) (bs : List UInt8) :
    front a bs =
      if a.toNat < 0x80 then .char (Char.ofNat a.toNat) bs
      else if 0xc2 ≤ a.toNat ∧ a.toNat ≤ 0xdf then frontTwo a bs
      else if 0xe0 ≤ a.toNat ∧ a.toNat ≤ 0xef then frontThree a bs
      else if 0xf0 ≤ a.toNat ∧ a.toNat ≤ 0xf4 then frontFour a bs
      else .broken 1 bs := by
  simp [front, UInt8.lt_iff_toNat_lt, UInt8.le_iff_toNat_le]

/-!
## What stands at the front is written so
-/

theorem frontTwo_eq_char
    {a : UInt8} {bs rest : List UInt8} {c : Char}
    (h₁ : 0xc2 ≤ a.toNat) (h₂ : a.toNat ≤ 0xdf)
    (h : frontTwo a bs = .char c rest) :
    String.utf8EncodeChar c ++ rest = a :: bs := by
  cases bs with
  | nil => cases h
  | cons b bs =>
      rw [frontTwo] at h
      split at h
      case isFalse => cases h
      case isTrue hb =>
        rw [isTail_iff] at hb
        obtain ⟨rfl, rfl⟩ := Front.char.inj h
        have hn : (Char.ofNat (a.toNat % 32 * 64 + b.toNat % 64)).toNat =
            a.toNat % 32 * 64 + b.toNat % 64 := toNat_ofNat (by omega)
        rw [encodeChar_two (by omega) (by omega), hn, ofNat_eq_byte (b := a) (by omega),
          ofNat_eq_byte (b := b) (by omega)]
        rfl

theorem frontThree_eq_char
    {a : UInt8} {bs rest : List UInt8} {c : Char}
    (h₁ : 0xe0 ≤ a.toNat) (h₂ : a.toNat ≤ 0xef)
    (h : frontThree a bs = .char c rest) :
    String.utf8EncodeChar c ++ rest = a :: bs := by
  rcases bs with - | ⟨b, - | ⟨d, ds⟩⟩
  · cases h
  · rw [frontThree] at h
    split at h <;> cases h
  · rw [frontThree] at h
    split at h
    case isFalse => cases h
    case isTrue hb =>
      split at h
      case isFalse => cases h
      case isTrue hd =>
        rw [isSecondOfThree_iff] at hb
        rw [isTail_iff] at hd
        obtain ⟨rfl, rfl⟩ := Front.char.inj h
        have hn : (Char.ofNat (a.toNat % 16 * 4096 + b.toNat % 64 * 64 + d.toNat % 64)).toNat =
            a.toNat % 16 * 4096 + b.toNat % 64 * 64 + d.toNat % 64 := toNat_ofNat (by omega)
        rw [encodeChar_three (by omega) (by omega), hn, ofNat_eq_byte (b := a) (by omega),
          ofNat_eq_byte (b := b) (by omega), ofNat_eq_byte (b := d) (by omega)]
        rfl

theorem frontFour_eq_char
    {a : UInt8} {bs rest : List UInt8} {c : Char}
    (h₁ : 0xf0 ≤ a.toNat) (h₂ : a.toNat ≤ 0xf4)
    (h : frontFour a bs = .char c rest) :
    String.utf8EncodeChar c ++ rest = a :: bs := by
  rcases bs with - | ⟨b, - | ⟨d, - | ⟨e, es⟩⟩⟩
  · cases h
  · rw [frontFour] at h
    split at h <;> cases h
  · rw [frontFour] at h
    split at h
    case isFalse => cases h
    case isTrue hb =>
      split at h <;> cases h
  · rw [frontFour] at h
    split at h
    case isFalse => cases h
    case isTrue hb =>
      split at h
      case isFalse => cases h
      case isTrue hd =>
        split at h
        case isFalse => cases h
        case isTrue he =>
          rw [isSecondOfFour_iff] at hb
          rw [isTail_iff] at hd he
          obtain ⟨rfl, rfl⟩ := Front.char.inj h
          have hn : (Char.ofNat (a.toNat % 8 * 262144 + b.toNat % 64 * 4096 +
              d.toNat % 64 * 64 + e.toNat % 64)).toNat =
              a.toNat % 8 * 262144 + b.toNat % 64 * 4096 + d.toNat % 64 * 64 + e.toNat % 64 :=
            toNat_ofNat (by omega)
          rw [encodeChar_four (by omega), hn, ofNat_eq_byte (b := a) (by omega),
            ofNat_eq_byte (b := b) (by omega), ofNat_eq_byte (b := d) (by omega),
            ofNat_eq_byte (b := e) (by omega)]
          rfl

/-- The list begins with the bytes of the character at its front. -/
theorem encodeChar_append_of_front
    {a : UInt8} {bs rest : List UInt8} {c : Char}
    (h : front a bs = .char c rest) :
    String.utf8EncodeChar c ++ rest = a :: bs := by
  rw [front_eq_ite] at h
  split_ifs at h with h₁ h₂ h₃ h₄
  · obtain ⟨rfl, rfl⟩ := Front.char.inj h
    have hn : (Char.ofNat a.toNat).toNat = a.toNat := toNat_ofNat (by omega)
    rw [encodeChar_one (by omega), hn, UInt8.ofNat_toNat]
    rfl
  · exact frontTwo_eq_char h₂.1 h₂.2 h
  · exact frontThree_eq_char h₃.1 h₃.2 h
  · exact frontFour_eq_char h₄.1 h₄.2 h

/-!
## What is written stands at the front
-/

theorem frontTwo_of_toNat
    {c : Char} {a b : UInt8} (rest : List UInt8)
    (h : c.toNat ≤ 0x7ff)
    (ha : a.toNat = c.toNat / 64 % 32 + 0xc0) (hb : b.toNat = c.toNat % 64 + 0x80) :
    frontTwo a (b :: rest) = .char c rest := by
  have hn : a.toNat % 32 * 64 + b.toNat % 64 = c.toNat := by omega
  rw [frontTwo, if_pos (isTail_iff.mpr (by omega)), hn, Char.ofNat_toNat]

theorem frontThree_of_toNat
    {c : Char} {a b d : UInt8} (rest : List UInt8)
    (h₁ : 0x7ff < c.toNat) (h₂ : c.toNat ≤ 0xffff)
    (ha : a.toNat = c.toNat / 4096 % 16 + 0xe0) (hb : b.toNat = c.toNat / 64 % 64 + 0x80)
    (hd : d.toNat = c.toNat % 64 + 0x80) :
    frontThree a (b :: d :: rest) = .char c rest := by
  have hc := toNat_lt_or_gt c
  have hn : a.toNat % 16 * 4096 + b.toNat % 64 * 64 + d.toNat % 64 = c.toNat := by omega
  have hsecond : isSecondOfThree a b = true := isSecondOfThree_iff.mpr (by omega)
  have hthird : isTail d = true := isTail_iff.mpr (by omega)
  simp only [frontThree, if_pos hsecond, if_pos hthird]
  rw [hn, Char.ofNat_toNat]

theorem frontFour_of_toNat
    {c : Char} {a b d e : UInt8} (rest : List UInt8)
    (h : 0xffff < c.toNat)
    (ha : a.toNat = c.toNat / 262144 % 8 + 0xf0) (hb : b.toNat = c.toNat / 4096 % 64 + 0x80)
    (hd : d.toNat = c.toNat / 64 % 64 + 0x80) (he : e.toNat = c.toNat % 64 + 0x80) :
    frontFour a (b :: d :: e :: rest) = .char c rest := by
  have hc := toNat_lt_or_gt c
  have hn : a.toNat % 8 * 262144 + b.toNat % 64 * 4096 + d.toNat % 64 * 64 + e.toNat % 64 =
      c.toNat := by
    omega
  have hsecond : isSecondOfFour a b = true := isSecondOfFour_iff.mpr (by omega)
  have hthird : isTail d = true := isTail_iff.mpr (by omega)
  have hfourth : isTail e = true := isTail_iff.mpr (by omega)
  simp only [frontFour, if_pos hsecond, if_pos hthird, if_pos hfourth]
  rw [hn, Char.ofNat_toNat]

/-- A character is at the front of what begins with its bytes. -/
theorem exists_front
    (c : Char) (rest : List UInt8) :
    ∃ a bs, String.utf8EncodeChar c ++ rest = a :: bs ∧ front a bs = .char c rest := by
  have hc := toNat_lt_or_gt c
  by_cases h₁ : c.toNat ≤ 0x7f
  · have ha := toNat_byte (n := c.toNat) (by omega)
    refine ⟨UInt8.ofNat c.toNat, rest, by rw [encodeChar_one h₁]; rfl, ?_⟩
    rw [front_eq_ite, if_pos (by omega), ha, Char.ofNat_toNat]
  by_cases h₂ : c.toNat ≤ 0x7ff
  · have ha := toNat_byte (n := c.toNat / 64 % 32 + 0xc0) (by omega)
    refine ⟨_, _, by rw [encodeChar_two (by omega) h₂]; rfl, ?_⟩
    rw [front_eq_ite, if_neg (by omega), if_pos (by omega)]
    exact frontTwo_of_toNat rest h₂ ha (toNat_byte (by omega))
  by_cases h₃ : c.toNat ≤ 0xffff
  · have ha := toNat_byte (n := c.toNat / 4096 % 16 + 0xe0) (by omega)
    refine ⟨_, _, by rw [encodeChar_three (by omega) h₃]; rfl, ?_⟩
    rw [front_eq_ite, if_neg (by omega), if_neg (by omega), if_pos (by omega)]
    exact frontThree_of_toNat rest (by omega) h₃ ha (toNat_byte (by omega))
      (toNat_byte (by omega))
  · have ha := toNat_byte (n := c.toNat / 262144 % 8 + 0xf0) (by omega)
    refine ⟨_, _, by rw [encodeChar_four (by omega)]; rfl, ?_⟩
    rw [front_eq_ite, if_neg (by omega), if_neg (by omega), if_neg (by omega), if_pos (by omega)]
    exact frontFour_of_toNat rest (by omega) ha (toNat_byte (by omega)) (toNat_byte (by omega))
      (toNat_byte (by omega))

/-!
## Whole texts
-/

/-- Reading gives back the characters that were written, if the fuel lasts. -/
theorem decodeWithin_encode
    (total : Nat) {fuel : Nat} {cs : List Char}
    (h : (encode cs).length ≤ fuel) :
    decodeWithin total fuel (encode cs) = .ok cs := by
  induction cs generalizing fuel with
  | nil => cases fuel <;> rfl
  | cons c cs ih =>
      obtain ⟨a, bs, hbytes, hfront⟩ := exists_front c (encode cs)
      have hencode : encode (c :: cs) = a :: bs := hbytes
      have hlength := congrArg List.length hbytes
      simp only [List.length_append, List.length_cons, String.length_utf8EncodeChar] at hlength
      rw [hencode, List.length_cons] at h
      have hsize := Char.utf8Size_pos c
      obtain ⟨n, rfl⟩ : ∃ n, fuel = n + 1 := ⟨fuel - 1, by omega⟩
      rw [hencode, decodeWithin, hfront]
      simp only
      rw [ih (by omega)]
      rfl

/-- What was read is written back byte for byte. -/
theorem encode_of_decodeWithin
    {total fuel : Nat} {bs : List UInt8} {cs : List Char}
    (hfuel : bs.length ≤ fuel)
    (h : decodeWithin total fuel bs = .ok cs) :
    encode cs = bs := by
  induction fuel generalizing bs cs with
  | zero =>
      obtain rfl := List.eq_nil_of_length_eq_zero (Nat.le_zero.mp hfuel)
      cases h
      rfl
  | succ fuel ih =>
      cases bs with
      | nil =>
          cases h
          rfl
      | cons b bs =>
          rw [decodeWithin] at h
          cases hfront : front b bs with
          | char c rest =>
              rw [hfront] at h
              cases hrest : decodeWithin total fuel rest with
              | error e =>
                  simp only [hrest] at h
                  cases h
              | ok ds =>
                  simp only [hrest] at h
                  obtain rfl := Except.ok.inj h
                  have hbytes := encodeChar_append_of_front hfront
                  have hlength := congrArg List.length hbytes
                  simp only [List.length_append, List.length_cons,
                    String.length_utf8EncodeChar] at hlength hfuel
                  have hsize := Char.utf8Size_pos c
                  have hencode := ih (by omega) hrest
                  rw [← hbytes, ← hencode]
                  rfl
          | broken n rest =>
              rw [hfront] at h
              cases h
          | cut =>
              rw [hfront] at h
              cases h

/-- A byte list has a text if and only if it is the bytes of that text. -/
theorem text?_eq_some_iff
    {bs : List UInt8} {s : String} :
    text? bs = some s ↔ bytes s = bs := by
  unfold text? bytes
  constructor
  · intro h
    split at h
    · rename_i cs hdecode
      obtain rfl := Option.some.inj h
      rw [String.toList_ofList]
      exact encode_of_decodeWithin (Nat.le_refl _) hdecode
    · cases h
  · rintro rfl
    rw [decode, decodeWithin_encode _ (Nat.le_refl _)]
    simp only [String.ofList_toList]

theorem bytes_injective :
    Function.Injective bytes := by
  intro s t h
  have hs : text? (bytes s) = some s := text?_eq_some_iff.mpr rfl
  have ht : text? (bytes t) = some t := text?_eq_some_iff.mpr rfl
  rw [h, ht] at hs
  exact (Option.some.inj hs).symm

end Utf8
end RpcGateway
