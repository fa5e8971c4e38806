/-!
# ASCII text

Header names, metadata keys and media types compare without regard to ASCII letter case and are
built from a small set of characters.  This module holds those classes and the lower-case form.

**Classes.**
* `isTokenChar`: the characters of a header name;
* `isVisible`: the bytes that a header value shows as text (`0x20`–`0x7e` and TAB);
* `isHeaderByte`: the bytes that a header value may carry at all.

**Results.**  `lower` is idempotent, so a key needs folding only once.
-/

namespace RpcGateway
namespace Ascii

/-- The lower-case form of a text: ASCII letters only, everything else untouched. -/
def lower (s : String) : String :=
  String.ofList (s.toList.map Char.toLower)

@[simp] theorem toList_lower (s : String) :
    (lower s).toList = s.toList.map Char.toLower := by
  simp [lower]

theorem isUpper_iff (c : Char) : c.isUpper = true ↔ 65 ≤ c.toNat ∧ c.toNat ≤ 90 := by
  have hrange : c.isUpper = decide (65 ≤ c.toNat ∧ c.toNat ≤ 90) := rfl
  rw [hrange, decide_eq_true_iff]

theorem isLower_iff (c : Char) : c.isLower = true ↔ 97 ≤ c.toNat ∧ c.toNat ≤ 122 := by
  have hrange : c.isLower = (decide (97 ≤ c.toNat) && decide (c.toNat ≤ 122)) := rfl
  rw [hrange, Bool.and_eq_true, decide_eq_true_iff, decide_eq_true_iff]

/-- A capital letter becomes a small one, and any other character stays as it is. -/
theorem toLower_cases (c : Char) :
    (c.isUpper = true ∧ c.toLower.isLower = true) ∨ (c.isUpper = false ∧ c.toLower = c) := by
  by_cases hupper : c.val ≥ 'A'.val ∧ c.val ≤ 'Z'.val
  · have hrange : 65 ≤ c.val.toNat ∧ c.val.toNat ≤ 90 := hupper
    -- thirty-two behind a capital letter stands the small one
    have hshift : c.toLower.toNat = (c.val.toNat + 32) % 2 ^ 32 :=
      congrArg Char.toNat (dif_pos hupper)
    refine Or.inl ⟨(isUpper_iff c).mpr hrange, (isLower_iff _).mpr ?_⟩
    rw [hshift]
    omega
  · exact Or.inr ⟨Bool.eq_false_iff.mpr fun h => hupper ((isUpper_iff c).mp h), dif_neg hupper⟩

theorem toLower_toLower (c : Char) : c.toLower.toLower = c.toLower := by
  rcases toLower_cases c with ⟨-, hlower⟩ | ⟨-, hsame⟩
  · rcases toLower_cases c.toLower with ⟨hupper, -⟩ | ⟨-, hsame⟩
    · -- no letter is both small and capital
      rw [isLower_iff] at hlower
      rw [isUpper_iff] at hupper
      omega
    · exact hsame
  · rw [hsame, hsame]

/-- The lower case does not hang on whether the letter was made a capital one before. -/
theorem toLower_toUpper (c : Char) : c.toUpper.toLower = c.toLower := by
  by_cases hlower : 'a'.val ≤ c.val ∧ c.val ≤ 'z'.val
  · have hrange : 97 ≤ c.val.toNat ∧ c.val.toNat ≤ 122 := hlower
    -- thirty-two before a small letter stands the capital one, and from there it is back again
    have hgap : ('A'.val - 'a'.val).toNat = 4294967264 := by decide
    have hupper : c.toUpper.val = c.val + ('A'.val - 'a'.val) := by
      unfold Char.toUpper
      rw [dif_pos hlower]
    have hraise : c.toUpper.val.toNat = (c.val.toNat + 4294967264) % 2 ^ 32 := by
      rw [hupper, UInt32.toNat_add, hgap]
    have hraised : 65 ≤ c.toUpper.val.toNat ∧ c.toUpper.val.toNat ≤ 90 := by omega
    have hback : c.toUpper.toLower.toNat = (c.toUpper.val.toNat + 32) % 2 ^ 32 :=
      congrArg Char.toNat (dif_pos hraised)
    have hsmall : ¬ (65 ≤ c.val.toNat ∧ c.val.toNat ≤ 90) := by omega
    have hself : c.toLower = c := dif_neg hsmall
    refine Char.toNat_inj.mp ?_
    have hself' : c.toLower.toNat = c.val.toNat := congrArg Char.toNat hself
    omega
  · rw [show c.toUpper = c from dif_neg hlower]

/-- Only letters come from other characters. -/
theorem toLower_eq_iff
    {d : Char}
    (hd : d.isAlpha = false) (c : Char) :
    c.toLower = d ↔ c = d := by
  have hno := Bool.or_eq_false_iff.mp hd
  rcases toLower_cases c with ⟨hupper, hlower⟩ | ⟨-, hsame⟩
  · constructor
    · rintro rfl
      exact absurd hlower (by simp [hno.2])
    · rintro rfl
      exact absurd hupper (by simp [hno.1])
  · rw [hsame]

theorem lower_lower (s : String) : lower (lower s) = lower s := by
  simp only [lower, String.toList_ofList, List.map_map, Function.comp_def, toLower_toLower]

theorem lower_append (s t : String) : lower (s ++ t) = lower s ++ lower t := by
  apply String.toList_injective
  simp

/-- Behind a text in lower case, only lower case stays as it is. -/
theorem lower_append_eq_self_iff {s : String} (hs : lower s = s) (t : String) :
    lower (s ++ t) = s ++ t ↔ lower t = t := by
  rw [lower_append, hs, String.append_right_inj]

/-- Characters of a header name or other token. -/
def isTokenChar (c : Char) : Bool :=
  c.isAlphanum || "!#$%&'*+-.^_`|~".toList.contains c

/-- A token has at least one character. -/
def isToken (cs : List Char) : Bool :=
  !cs.isEmpty && cs.all isTokenChar

/-- A letter is a token character, in particular a small one. -/
theorem isTokenChar_of_isLower {c : Char} (h : c.isLower = true) : isTokenChar c = true := by
  have halpha : c.isAlpha = true := Bool.or_eq_true_iff.mpr (.inr h)
  have halphanum : c.isAlphanum = true := Bool.or_eq_true_iff.mpr (.inl halpha)
  exact Bool.or_eq_true_iff.mpr (.inl halphanum)

theorem isTokenChar_toLower {c : Char} (h : isTokenChar c = true) :
    isTokenChar c.toLower = true := by
  rcases toLower_cases c with ⟨-, hlower⟩ | ⟨-, hsame⟩
  · exact isTokenChar_of_isLower hlower
  · rw [hsame]
    exact h

/-- The lower-case form of a token is a token. -/
theorem isToken_lower {s : String} (h : isToken s.toList = true) :
    isToken (lower s).toList = true := by
  simp only [isToken, Bool.and_eq_true, List.all_eq_true, toList_lower] at h ⊢
  refine ⟨by simpa using h.1, ?_⟩
  intro c hc
  obtain ⟨d, hd, rfl⟩ := List.mem_map.mp hc
  exact isTokenChar_toLower (h.2 d hd)

/-- A byte that a header value shows as text. -/
def isVisible (b : UInt8) : Bool :=
  (32 ≤ b && b < 127) || b == 9

/-- A byte that a header value may carry. -/
def isHeaderByte (b : UInt8) : Bool :=
  (32 ≤ b && b != 127) || b == 9

/-- Blank bytes of a request body. -/
def isBlankByte (b : UInt8) : Bool :=
  b == 32 || b == 9 || b == 10 || b == 12 || b == 13

/-- The two lower-case hexadecimal digits of a byte. -/
def hexByte (b : UInt8) : List Char :=
  [Nat.digitChar (b.toNat / 16), Nat.digitChar (b.toNat % 16)]

/-- The value of a hexadecimal digit, in either case. -/
def hexValue? (c : Char) : Option Nat :=
  if '0' ≤ c ∧ c ≤ '9' then some (c.toNat - '0'.toNat)
  else if 'a' ≤ c ∧ c ≤ 'f' then some (c.toNat - 'a'.toNat + 10)
  else if 'A' ≤ c ∧ c ≤ 'F' then some (c.toNat - 'A'.toNat + 10)
  else none

/-- The text of a byte list, two digits a byte. -/
def hex (bs : List UInt8) : String :=
  String.ofList (bs.flatMap hexByte)

end Ascii
end RpcGateway
