import RpcGateway.Proofs.Text.Utf8
import RpcGateway.Route.Match

/-!
# Percent coding

What the raw segments of a path stand for.

**Reading.**  `Resolves` says byte by byte what a list with escapes stands for: a percent sign with
two hexadecimal digits is the byte that they denote, and everything else is itself, a malformed
escape included.  A raw segment has a text if and only if what it resolves to is UTF-8.

**Writing.**  `encodeWith` writes a text with escapes for all bytes but those of a class that may
stand for themselves.  It is read back if the class is `Clear`: ASCII only, and neither the percent
sign nor the slash.
-/

namespace RpcGateway
namespace PercentCoding

/-- What a byte list with escapes stands for. -/
inductive Resolves : List UInt8 → List UInt8 → Prop
  | nil :
      Resolves [] []
  | escape
      {hi lo v : UInt8} {rest out : List UInt8}
      (digits : escaped? hi lo = some v) (tail : Resolves rest out) :
      Resolves (37 :: hi :: lo :: rest) (v :: out)
  | plain
      {b : UInt8} {rest out : List UInt8}
      (bare : ∀ hi lo after, b = 37 → rest = hi :: lo :: after → escaped? hi lo = none)
      (tail : Resolves rest out) :
      Resolves (b :: rest) (b :: out)

theorem resolves_decodeBytes
    (bs : List UInt8) :
    Resolves bs (decodeBytes bs) := by
  fun_induction decodeBytes bs with
  | case1 b hi lo rest v hv ih =>
      split at hv
      case isTrue hb =>
        subst hb
        exact Resolves.escape hv ih
      case isFalse hb => cases hv
  | case2 b hi lo rest hnone ih =>
      refine Resolves.plain ?_ ih
      intro hi' lo' after hb hrest
      simp only [List.cons.injEq] at hrest
      obtain ⟨rfl, rfl, -⟩ := hrest
      rwa [if_pos hb] at hnone
  | case3 bs hshort =>
      -- at most two bytes are left, too few for an escape
      rcases bs with - | ⟨b, - | ⟨c, - | ⟨d, rest⟩⟩⟩
      · exact Resolves.nil
      · exact Resolves.plain (by simp) Resolves.nil
      · exact Resolves.plain (by simp) (Resolves.plain (by simp) Resolves.nil)
      · exact absurd rfl (hshort b c d rest)

theorem Resolves.unique
    {bs out out' : List UInt8}
    (h : Resolves bs out) (h' : Resolves bs out') :
    out = out' := by
  induction h generalizing out' with
  | nil =>
      cases h'
      rfl
  | escape digits tail ih =>
      cases h' with
      | escape digits' tail' =>
          rw [digits] at digits'
          rw [Option.some.inj digits', ih tail']
      | plain bare tail' =>
          rw [bare _ _ _ rfl rfl] at digits
          cases digits
  | plain bare tail ih =>
      cases h' with
      | escape digits' tail' =>
          rw [bare _ _ _ rfl rfl] at digits'
          cases digits'
      | plain bare' tail' => rw [ih tail']

theorem decodeBytes_eq_iff
    {bs out : List UInt8} :
    decodeBytes bs = out ↔ Resolves bs out := by
  constructor
  · rintro rfl
    exact resolves_decodeBytes bs
  · exact (resolves_decodeBytes bs).unique

/-- A raw segment stands for a text. -/
def Decodes (raw : List Char) (value : String) : Prop :=
  Resolves (Utf8.encode raw) (Utf8.bytes value)

theorem decode?_eq_some_iff
    {raw : List Char} {value : String} :
    decode? raw = some value ↔ Decodes raw value := by
  unfold decode? Decodes
  rw [Utf8.text?_eq_some_iff, ← decodeBytes_eq_iff, eq_comm]

/-!
## Writing
-/

/-- A hexadecimal digit in upper case. -/
def hexDigit (n : Nat) : Char :=
  (Nat.digitChar n).toUpper

/-- A byte as it is written: itself, or two digits behind a percent sign. -/
def encodeByte (keep : UInt8 → Bool) (b : UInt8) : List Char :=
  if keep b then [Char.ofNat b.toNat]
  else ['%', hexDigit (b.toNat / 16), hexDigit (b.toNat % 16)]

/-- A text with escapes for all bytes that are not kept. -/
def encodeWith (keep : UInt8 → Bool) (s : String) : List Char :=
  (Utf8.bytes s).flatMap (encodeByte keep)

/-- A class of bytes that may stand for themselves in a segment. -/
structure Clear (keep : UInt8 → Bool) : Prop where
  ascii : ∀ b, keep b = true → b < 128
  percent : keep 37 = false
  slash : keep 47 = false

/-- The letters and digits of ASCII. -/
def isPlain (b : UInt8) : Bool :=
  (Char.ofNat b.toNat).isAlphanum

theorem clear_isPlain :
    Clear isPlain := by
  refine ⟨?_, by decide, by decide⟩
  intro b hb
  have hall : ∀ n < 256, isPlain (UInt8.ofNat n) = true → n < 128 := by decide +kernel
  have hlt := hall b.toNat b.toNat_lt
  rw [UInt8.ofNat_toNat] at hlt
  exact UInt8.lt_iff_toNat_lt.mpr (hlt hb)

/-- A digit is one byte, and that byte has its value. -/
theorem hexDigit_spec :
    ∀ n < 16, Utf8.encode [hexDigit n] = [UInt8.ofNat (hexDigit n).toNat] ∧
      hexValue? (UInt8.ofNat (hexDigit n).toNat) = some n := by
  decide

theorem encode_escape
    (b : UInt8) :
    ∃ hi lo, Utf8.encode ['%', hexDigit (b.toNat / 16), hexDigit (b.toNat % 16)] = [37, hi, lo] ∧
      escaped? hi lo = some b := by
  have hb := b.toNat_lt
  obtain ⟨hhi, hhiValue⟩ := hexDigit_spec (b.toNat / 16) (by omega)
  obtain ⟨hlo, hloValue⟩ := hexDigit_spec (b.toNat % 16) (by omega)
  refine ⟨UInt8.ofNat (hexDigit (b.toNat / 16)).toNat,
    UInt8.ofNat (hexDigit (b.toNat % 16)).toNat, ?_, ?_⟩
  · have hpercent : Utf8.encode ['%'] = [37] := by decide
    have hsplit : Utf8.encode ['%', hexDigit (b.toNat / 16), hexDigit (b.toNat % 16)] =
        Utf8.encode ['%'] ++ Utf8.encode [hexDigit (b.toNat / 16)] ++
          Utf8.encode [hexDigit (b.toNat % 16)] := by
      rw [← Utf8.encode_append, ← Utf8.encode_append]
      rfl
    rw [hsplit, hpercent, hhi, hlo]
    rfl
  · have hvalue : b.toNat / 16 * 16 + b.toNat % 16 = b.toNat := by omega
    simp only [escaped?, hhiValue, hloValue, hvalue, UInt8.ofNat_toNat]

/-- A written byte stands for itself, whatever follows. -/
theorem Resolves.encodeByte
    {keep : UInt8 → Bool}
    (hk : Clear keep) (b : UInt8) {rest out : List UInt8} (h : Resolves rest out) :
    Resolves (Utf8.encode (encodeByte keep b) ++ rest) (b :: out) := by
  unfold PercentCoding.encodeByte
  split
  case isTrue hkeep =>
    have hb := UInt8.lt_iff_toNat_lt.mp (hk.ascii b hkeep)
    rw [Utf8.encode_singleton_of_lt hb, UInt8.ofNat_toNat]
    refine Resolves.plain ?_ h
    rintro - - - rfl -
    rw [hk.percent] at hkeep
    cases hkeep
  case isFalse hkeep =>
    obtain ⟨hi, lo, hdigits, hvalue⟩ := encode_escape b
    rw [hdigits]
    exact Resolves.escape hvalue h

/-- A written text stands for itself. -/
theorem decodes_encodeWith
    {keep : UInt8 → Bool}
    (hk : Clear keep) (s : String) :
    Decodes (encodeWith keep s) s := by
  unfold Decodes encodeWith
  generalize Utf8.bytes s = bs
  induction bs with
  | nil => exact Resolves.nil
  | cons b bs ih =>
      rw [List.flatMap_cons, Utf8.encode_append]
      exact ih.encodeByte hk b

theorem encodeWith_ne_nil
    {keep : UInt8 → Bool} {s : String}
    (h : s ≠ "") :
    encodeWith keep s ≠ [] := by
  intro hnil
  have hbytes : Utf8.bytes s = [] := by
    cases hs : Utf8.bytes s with
    | nil => rfl
    | cons b bs =>
        rw [encodeWith, hs, List.flatMap_cons] at hnil
        have hbyte := (List.append_eq_nil_iff.mp hnil).1
        unfold encodeByte at hbyte
        split at hbyte <;> cases hbyte
  exact h (Utf8.bytes_injective hbytes)

theorem slash_not_mem_encodeWith
    {keep : UInt8 → Bool}
    (hk : Clear keep) (s : String) :
    '/' ∉ encodeWith keep s := by
  unfold encodeWith
  simp only [List.mem_flatMap, not_exists, not_and]
  rintro b - hmem
  unfold encodeByte at hmem
  split at hmem
  case isTrue hkeep =>
    have hb : b.toNat < 128 := UInt8.lt_iff_toNat_lt.mp (hk.ascii b hkeep)
    have hslash := congrArg Char.toNat (List.mem_singleton.mp hmem)
    rw [Utf8.toNat_ofNat (n := b.toNat) (by omega)] at hslash
    have hb47 : b = 47 := UInt8.toNat_inj.mp hslash.symm
    rw [hb47, hk.slash] at hkeep
    cases hkeep
  case isFalse hkeep =>
    have hdigit : ∀ n < 16, '/' ≠ hexDigit n := by decide
    have hb := b.toNat_lt
    simp only [List.mem_cons, List.not_mem_nil, or_false] at hmem
    rcases hmem with hpercent | hhi | hlo
    · exact absurd hpercent (by decide)
    · exact hdigit _ (by omega) hhi
    · exact hdigit _ (by omega) hlo

end PercentCoding
end RpcGateway
