import Mathlib.Tactic.IntervalCases
import RpcGateway.Json.Printer
import RpcGateway.Json.Scalar
import RpcGateway.Proofs.Text.Utf8

/-!
# Words and string literals are read as they are written

`word` steps over a word that stands in the text.  `stringText` writes a text between quotes,
`stringLiteral` reads it back.

**Characters.**  A character stands in a literal either as itself, and then its bytes are plain ones
that the reader keeps, or as a backslash and an escape that the reader resolves to the bytes of the
character.

**Fuel.**  Every character takes at least one byte of the literal, so the reader never runs out of
fuel.
-/

namespace RpcGateway
namespace Json

namespace Cursor

variable {c : Cursor} {b : UInt8} {bs : List UInt8}

theorem peek?_of_rest
    (h : c.rest = b :: bs) :
    c.peek? = some b := by
  rw [peek?, h]
  rfl

theorem rest_advance
    (h : c.rest = b :: bs) :
    c.advance.rest = bs := by
  unfold advance
  rw [h]
  simp only
  split <;> rfl

end Cursor

theorem word_of_rest
    {bs tail : List UInt8} {c : Cursor}
    (hc : c.rest = bs ++ tail) :
    ∃ after, word bs c = .ok after ∧ after.rest = tail := by
  induction bs generalizing c with
  | nil => exact ⟨c, rfl, hc⟩
  | cons b bs ih =>
      rw [word, Cursor.peek?_of_rest hc]
      simp only [if_true]
      exact ih (Cursor.rest_advance hc)

/-- A byte that stands for itself in a string literal. -/
structure IsPlain (b : UInt8) : Prop where
  noControl : ¬ b < 32
  noQuote : b ≠ 34
  noBackslash : b ≠ 92

/-- What stands behind a backslash is read as the given bytes. -/
def EscapeOf (written bs : List UInt8) : Prop :=
  ∀ (c : Cursor) (rest : List UInt8), c.rest = written ++ rest →
    ∃ after, escape c = .ok (bs, after) ∧ after.rest = rest

/-!
## Escapes
-/

theorem escapeOf_short
    {e b : UInt8}
    (he : e ≠ 117) (h : shortEscape? e = some b) :
    EscapeOf [e] [b] := by
  intro c rest hc
  refine ⟨c.advance, ?_, Cursor.rest_advance hc⟩
  unfold escape
  rw [Cursor.peek?_of_rest hc]
  simp only [if_neg he, h]

theorem hexDigit?_digitChar
    {n : Nat}
    (h : n < 16) :
    hexDigit? (UInt8.ofNat (Nat.digitChar n).toNat) = some n := by
  interval_cases n <;> decide

/-- A control character is written with two zeros in front of two digits. -/
theorem escapeOf_control
    {k : Nat}
    (h : k < 32) :
    EscapeOf
      [117, 48, 48, UInt8.ofNat (Nat.digitChar (k / 16)).toNat,
        UInt8.ofNat (Nat.digitChar (k % 16)).toNat]
      [UInt8.ofNat k] := by
  intro c rest hc
  simp only [List.cons_append, List.nil_append] at hc
  have hc₁ := Cursor.rest_advance hc
  have hc₂ := Cursor.rest_advance hc₁
  have hc₃ := Cursor.rest_advance hc₂
  have hc₄ := Cursor.rest_advance hc₃
  have hc₅ := Cursor.rest_advance hc₄
  refine ⟨_, ?_, hc₅⟩
  have hzero : hexDigit? 48 = some 0 := by decide
  have hcode : fourHexDigits? 48 48 (UInt8.ofNat (Nat.digitChar (k / 16)).toNat)
      (UInt8.ofNat (Nat.digitChar (k % 16)).toNat) = some k := by
    simp only [fourHexDigits?, hzero, hexDigit?_digitChar (n := k / 16) (by omega),
      hexDigit?_digitChar (n := k % 16) (by omega), Option.bind_eq_bind, Option.bind_some,
      Option.some.injEq]
    omega
  have hhex : hexEscape c.advance =
      .ok (k, c.advance.advance.advance.advance.advance) := by
    unfold hexEscape
    rw [hc₁]
    simp only [hcode]
  have hbytes := Utf8.encode_singleton_of_lt (n := k) (by omega)
  simp only [Utf8.encode, List.flatMap_cons, List.flatMap_nil, List.append_nil] at hbytes
  unfold escape unicodeEscape
  rw [Cursor.peek?_of_rest hc]
  simp only [if_true, hhex, bind, Except.bind, hbytes]
  rw [if_neg (by simp; omega), if_pos (by simp; omega)]

/-!
## Characters
-/

/-- The bytes of a character that is not escaped are plain. -/
theorem isPlain_of_mem_encodeChar
    {ch : Char} {b : UInt8}
    (hcontrol : 32 ≤ ch.toNat) (hquote : ch ≠ '"') (hbackslash : ch ≠ '\\')
    (h : b ∈ String.utf8EncodeChar ch) :
    IsPlain b := by
  have hne : ∀ k : Char, ch ≠ k → ch.toNat ≠ k.toNat := fun k hk heq => hk (Char.toNat_inj.mp heq)
  have hquote := hne _ hquote
  have hbackslash := hne _ hbackslash
  have hplain : ∀ {n : Nat}, n < 256 → 32 ≤ n → n ≠ 34 → n ≠ 92 → IsPlain (UInt8.ofNat n) := by
    intro n hbyte h₁ h₂ h₃
    have hn := Utf8.toNat_byte hbyte
    constructor
    · rw [UInt8.lt_iff_toNat_lt, hn]
      simpa using h₁
    · exact fun heq => h₂ (by rw [← hn, heq]; rfl)
    · exact fun heq => h₃ (by rw [← hn, heq]; rfl)
  have hmost := Utf8.toNat_lt_or_gt ch
  by_cases h₁ : ch.toNat ≤ 0x7f
  · rw [Utf8.encodeChar_one h₁, List.mem_singleton] at h
    rw [h]
    exact hplain (by omega) hcontrol hquote hbackslash
  -- the bytes of a longer character are all beyond the ASCII ones
  have hbeyond : ∀ n, 0x80 ≤ n → n < 256 → IsPlain (UInt8.ofNat n) := fun n hleast hbyte =>
    hplain hbyte (by omega) (by omega) (by omega)
  by_cases h₂ : ch.toNat ≤ 0x7ff
  · rw [Utf8.encodeChar_two (by omega) h₂] at h
    simp only [List.mem_cons, List.not_mem_nil, or_false] at h
    rcases h with rfl | rfl <;> exact hbeyond _ (by omega) (by omega)
  by_cases h₃ : ch.toNat ≤ 0xffff
  · rw [Utf8.encodeChar_three (by omega) h₃] at h
    simp only [List.mem_cons, List.not_mem_nil, or_false] at h
    rcases h with rfl | rfl | rfl <;> exact hbeyond _ (by omega) (by omega)
  · rw [Utf8.encodeChar_four (by omega)] at h
    simp only [List.mem_cons, List.not_mem_nil, or_false] at h
    rcases h with rfl | rfl | rfl | rfl <;> exact hbeyond _ (by omega) (by omega)

/-- How a character stands in a literal. -/
inductive CharWritten (ch : Char) : List UInt8 → Prop
  | plain
      (h : ∀ b ∈ String.utf8EncodeChar ch, IsPlain b) :
      CharWritten ch (String.utf8EncodeChar ch)
  | escaped {written : List UInt8}
      (h : EscapeOf written (String.utf8EncodeChar ch)) :
      CharWritten ch (92 :: written)

theorem charWritten_escapeChar
    (ch : Char) :
    CharWritten ch (Utf8.encode (escapeChar ch)) := by
  by_cases hquote : ch = '"'
  · subst hquote
    exact .escaped (escapeOf_short (e := 34) (by decide) rfl)
  by_cases hbackslash : ch = '\\'
  · subst hbackslash
    exact .escaped (escapeOf_short (e := 92) (by decide) rfl)
  unfold escapeChar
  rw [if_neg hquote, if_neg hbackslash]
  by_cases hcontrol : 32 ≤ ch.toNat
  · rw [if_pos hcontrol, Utf8.encode, List.flatMap_singleton]
    exact .plain fun b hb => isPlain_of_mem_encodeChar hcontrol hquote hbackslash hb
  · have hlow : ch.toNat < 32 := Nat.lt_of_not_le hcontrol
    have hchar : ch = Char.ofNat ch.toNat := (Char.ofNat_toNat ch).symm
    rw [if_neg hcontrol, hchar]
    generalize ch.toNat = k at hlow
    clear hquote hbackslash hcontrol hchar ch
    interval_cases k
    all_goals
      first
        | exact .escaped (escapeOf_short (by decide) rfl)
        | exact .escaped (escapeOf_control (by decide))

/-!
## Literals
-/

/-- The reader gathers bytes up to the closing quote, with the given bytes behind it. -/
def Gathers (fuel : Nat) (c : Cursor) (bs tail : List UInt8) : Prop :=
  ∃ behind, stringBytes fuel c = .ok (bs, behind) ∧ behind.rest = 34 :: tail

theorem gathers_plain
    {fuel : Nat} {bs more rest tail : List UInt8}
    (hplain : ∀ b ∈ bs, IsPlain b)
    (hrest : ∀ c : Cursor, c.rest = rest → Gathers fuel c more tail)
    {c : Cursor} (hc : c.rest = bs ++ rest) :
    Gathers (fuel + bs.length) c (bs ++ more) tail := by
  induction bs generalizing c with
  | nil => exact hrest c hc
  | cons b bs ih =>
      obtain ⟨hb, hbs⟩ := List.forall_mem_cons.mp hplain
      obtain ⟨behind, hread, hbehind⟩ := ih hbs (Cursor.rest_advance hc)
      refine ⟨behind, ?_, hbehind⟩
      rw [List.length_cons, ← Nat.add_assoc, stringBytes, Cursor.peek?_of_rest hc]
      simp only [if_neg hb.noQuote, if_neg hb.noBackslash, if_neg hb.noControl, hread,
        List.cons_append]

theorem gathers_escaped
    {fuel : Nat} {written bs more rest tail : List UInt8}
    (hescape : EscapeOf written bs)
    (hrest : ∀ c : Cursor, c.rest = rest → Gathers fuel c more tail)
    {c : Cursor} (hc : c.rest = 92 :: written ++ rest) :
    Gathers (fuel + 1) c (bs ++ more) tail := by
  obtain ⟨after, hread, hafter⟩ := hescape c.advance rest (Cursor.rest_advance hc)
  obtain ⟨behind, hmore, hbehind⟩ := hrest after hafter
  refine ⟨behind, ?_, hbehind⟩
  have hquote : ¬ (92 : UInt8) = 34 := by decide
  rw [stringBytes, Cursor.peek?_of_rest hc]
  simp only [if_neg hquote, if_true, hread, hmore]

/-- The inside of a literal is read as the bytes of the characters, if the fuel lasts. -/
theorem gathers_escapeChars
    {cs : List Char} {tail : List UInt8} {fuel : Nat} {c : Cursor}
    (hc : c.rest = Utf8.encode (cs.flatMap escapeChar) ++ 34 :: tail)
    (hfuel : c.rest.length ≤ fuel) :
    Gathers fuel c (Utf8.encode cs) tail := by
  induction cs generalizing fuel c with
  | nil =>
      obtain ⟨n, rfl⟩ : ∃ n, fuel = n + 1 :=
        ⟨fuel - 1, by rw [hc, List.length_append, List.length_cons] at hfuel; omega⟩
      refine ⟨c, ?_, hc⟩
      rw [stringBytes, Cursor.peek?_of_rest hc]
      rfl
  | cons ch cs ih =>
      rw [List.flatMap_cons, Utf8.encode_append, List.append_assoc] at hc
      rw [hc, List.length_append] at hfuel
      have hencode : Utf8.encode (ch :: cs) = String.utf8EncodeChar ch ++ Utf8.encode cs := rfl
      rw [hencode]
      have hwritten := charWritten_escapeChar ch
      generalize Utf8.encode (escapeChar ch) = written at hwritten hc hfuel
      cases hwritten with
      | plain hplain =>
          obtain ⟨n, rfl⟩ := Nat.exists_eq_add_of_le' (Nat.le_of_add_right_le hfuel)
          exact gathers_plain hplain (fun c' hc' => ih hc' (by rw [hc']; omega)) hc
      | escaped hescape =>
          rw [List.length_cons] at hfuel
          obtain ⟨n, rfl⟩ : ∃ n, fuel = n + 1 := ⟨fuel - 1, by omega⟩
          exact gathers_escaped hescape (fun c' hc' => ih hc' (by rw [hc']; omega)) hc

/-- What is written as a literal is read back, whatever stands behind it. -/
theorem stringLiteral_stringText
    {s : String} {tail : List UInt8} {c : Cursor}
    (hc : c.rest = Utf8.encode (stringText s) ++ tail) :
    c.peek? = some 34 ∧ ∃ after, stringLiteral c.advance = .ok (s, after) ∧ after.rest = tail := by
  have hquote : Utf8.encode ['"'] = [34] := by decide
  rw [stringText, ← List.singleton_append, Utf8.encode_append, Utf8.encode_append, hquote,
    List.append_assoc, List.append_assoc] at hc
  simp only [List.cons_append, List.nil_append] at hc
  have hinside := Cursor.rest_advance hc
  obtain ⟨behind, hread, hbehind⟩ := gathers_escapeChars hinside (Nat.le_succ _)
  refine ⟨Cursor.peek?_of_rest hc, behind.advance, ?_, Cursor.rest_advance hbehind⟩
  have htext : Utf8.text? (Utf8.encode s.toList) = some s := Utf8.text?_eq_some_iff.mpr rfl
  unfold stringLiteral
  rw [hread]
  simp only [htext]

end Json
end RpcGateway
