import RpcGateway.Message.Basic
import RpcGateway.Proofs.Collection.Result
import RpcGateway.Proofs.Json.IntegerLiteral
import RpcGateway.Proofs.Json.Scalar

/-!
# Reading 64-bit integers

What a member that holds a 64-bit integer is read as, straight from text and through a value tree.

**Numbers.**  A literal of an integer of 64 bits is read as that integer.  A literal that is less
than the least one by at most 1024 is rounded to a floating-point number, which is the least one;
no other literal is read.

**Result.**  `int64_exact_iff`: whatever stands in the place of the member is read exactly, unless
it is one of those literals.
-/

namespace RpcGateway
namespace Schema

open Json

variable {ρ : Type}

/-- The integers of 64 bits. -/
def IsInt64 (n : Int) : Prop :=
  Decimal.minInt64 ≤ n ∧ n ≤ Decimal.maxInt64

/-- The integers that are rounded up to the least one of 64 bits. -/
def RoundsUp (n : Int) : Prop :=
  Decimal.minInt64 - 1024 ≤ n ∧ n < Decimal.minInt64

/-- An integer literal is read as an integer. -/
def LiteralRead (l : IntegerLiteral) (i : Int) : Prop :=
  (IsInt64 l.value ∧ i = l.value) ∨ (RoundsUp l.value ∧ i = Decimal.minInt64)

/-!
## Numbers
-/

theorem int64OfNumber_integer_iff
    {n i : Int} :
    int64OfNumber (.integer n) = .ok i ↔ IsInt64 n ∧ i = n := by
  unfold int64OfNumber IsInt64
  simp only
  split
  case isTrue h => simp [h, eq_comm]
  case isFalse h => simp [h]

theorem int64OfNumber_real_iff
    {x : Binary64} {i : Int} :
    int64OfNumber (.real x) = .ok i ↔ x.toInt? = some i ∧ IsInt64 i := by
  unfold int64OfNumber IsInt64
  simp only
  cases hx : x.toInt? with
  | none => simp
  | some k =>
      simp only [Option.some.injEq]
      split
      case isTrue h =>
        rw [Except.ok.injEq]
        exact ⟨fun heq => ⟨heq, heq ▸ h⟩, fun heq => heq.1⟩
      case isFalse h =>
        simp only [reduceCtorEq, false_iff]
        rintro ⟨rfl, hi⟩
        exact h hi

/-- Below the least integer of 64 bits, a number of 64 bits without its sign is rounded to a
multiple of 2048. -/
theorem int64OfNumber_below_iff
    {n : Nat} {i : Int}
    (hlow : 2 ^ 63 < n) (hhigh : n ≤ Decimal.maxUInt64) :
    int64OfNumber (.real (Binary64.ofNat n).neg) = .ok i ↔
      RoundsUp (-n) ∧ i = Decimal.minInt64 := by
  obtain ⟨hvalue, hfinite, hsign⟩ :=
    Binary64.absValue_ofNat_of_wide hlow.le (by simp only [Decimal.maxUInt64] at hhigh; omega)
  have hnegative : (Binary64.ofNat n).neg.isNegative = true := by
    rw [(Binary64.fields_neg _).2.2, hsign]
    rfl
  have hread := Binary64.toInt?_of_absValue
    ((Binary64.isFinite_neg _).trans hfinite) ((Binary64.absValue_neg _).trans hvalue)
  rw [hnegative, if_pos rfl] at hread
  -- at most 1024 above `2 ^ 63`, the nearest multiple of 2048 is `2 ^ 63` itself
  have hround : (2048 * Binary64.roundDiv n 2048 = 2 ^ 63 ↔ n ≤ 2 ^ 63 + 1024) ∧
      2 ^ 63 ≤ 2048 * Binary64.roundDiv n 2048 := by
    unfold Binary64.roundDiv
    simp only
    split <;> omega
  rw [int64OfNumber_real_iff, hread, Option.some.injEq]
  simp only [IsInt64, RoundsUp, Decimal.minInt64, Decimal.maxInt64]
  omega

/-- The integer that digits with a sign or none stand for, all digits being kept. -/
theorem int64OfNumber_integerNumber_iff
    {l : IntegerLiteral} {i : Int}
    (h : l.magnitude ≤ Decimal.maxUInt64) :
    int64OfNumber (afterInteger.integerNumber (!l.negative) l.magnitude) = .ok i ↔
      LiteralRead l i := by
  unfold LiteralRead IntegerLiteral.value
  generalize l.magnitude = n at h
  cases l.negative with
  | false =>
      have hpositive : ¬ RoundsUp n := by
        simp only [RoundsUp, Decimal.minInt64]
        omega
      simp only [Bool.false_eq_true, if_false, hpositive, false_and, or_false]
      exact int64OfNumber_integer_iff
  | true =>
      simp only [if_true]
      rcases Nat.lt_or_ge (2 ^ 63) n with hlarge | hsmall
      · have hoverflow : ¬ IsInt64 (-n) := by
          simp only [IsInt64, Decimal.minInt64]
          omega
        have hreal : afterInteger.integerNumber (!true) n = .real (Binary64.ofNat n).neg := by
          simp [afterInteger.integerNumber]
          omega
        rw [hreal, int64OfNumber_below_iff hlarge h]
        simp only [hoverflow, false_and, false_or]
      · have hfits : ¬ RoundsUp (-n) := by
          simp only [RoundsUp, Decimal.minInt64]
          omega
        simp only [hfits, false_and, or_false]
        rcases Nat.eq_zero_or_pos n with rfl | hpos
        · -- a zero with a sign is a floating-point number
          have hreal : afterInteger.integerNumber (!true) 0 = .real Binary64.zero.neg := rfl
          rw [hreal, int64OfNumber_real_iff, Binary64.toInt?_neg_zero]
          simp only [Nat.cast_zero, neg_zero, Option.some.injEq]
          constructor
          · rintro ⟨rfl, hi⟩
            exact ⟨hi, rfl⟩
          · rintro ⟨hi, rfl⟩
            exact ⟨rfl, hi⟩
        · have hinteger : afterInteger.integerNumber (!true) n = .integer (-n) := by
            simp [afterInteger.integerNumber]
            omega
          rw [hinteger, int64OfNumber_integer_iff]

/-- What an integer literal is read as. -/
theorem int64_of_readAs
    {l : IntegerLiteral} {tail : List UInt8} {read : Except Json.Fault (Json.Number × Cursor)}
    (h : ReadAs (!l.negative) l.magnitude tail read) (i : Int) (rest : List UInt8) :
    (∃ x after, read = .ok (x, after) ∧ int64OfNumber x = .ok i ∧ after.rest = rest) ↔
      LiteralRead l i ∧ rest = tail := by
  cases h with
  | @kept after h hrest =>
      have hvalue := int64OfNumber_integerNumber_iff (i := i) h
      constructor
      · rintro ⟨x, after', heq, hx, rfl⟩
        cases heq
        exact ⟨hvalue.mp hx, hrest⟩
      · rintro ⟨hx, rfl⟩
        exact ⟨_, _, rfl, hvalue.mpr hx, hrest⟩
  | @scaled digits extra after h hdigits hmost hextra =>
      have hnone : ¬ LiteralRead l i := by
        simp only [LiteralRead, IsInt64, RoundsUp, Decimal.minInt64, Decimal.maxInt64,
          Decimal.maxUInt64, IntegerLiteral.value] at h ⊢
        split <;> omega
      simp only [hnone, false_and, iff_false]
      rintro ⟨x, after', hparts, hx, -⟩
      unfold ofParts at hparts
      split at hparts
      case h_2 => cases hparts
      case h_1 y hy =>
        -- what a power of ten makes of the digits is too large, whatever its sign
        have hlarge := lt_absValue_of_scaled? hdigits hextra hy
        obtain ⟨rfl, -⟩ := Prod.mk.inj (Except.ok.inj hparts)
        obtain ⟨hread, hi⟩ := int64OfNumber_real_iff.mp hx
        have hvalue := Binary64.natAbs_of_toInt? hread
        have habs : (if !l.negative then y else y.neg).absValue = y.absValue := by
          split
          · rfl
          · exact Binary64.absValue_neg y
        rw [habs] at hvalue
        rw [hvalue] at hlarge
        have hlarge : 2 ^ 63 < i.natAbs := by exact_mod_cast hlarge
        simp only [IsInt64, Decimal.minInt64, Decimal.maxInt64] at hi
        omega

/-!
## Strings
-/

theorem int64OfText_eq_ok_iff
    {s : String} {i : Int} :
    int64OfText s = .ok i ↔ Decimal.Denotes s.toList i ∧ IsInt64 i := by
  have hwithin : Decimal.within? Decimal.minInt64 Decimal.maxInt64 s.toList = some i ↔
      Decimal.Denotes s.toList i ∧ IsInt64 i :=
    Decimal.within?_eq_some_iff
  rw [← hwithin]
  unfold int64OfText
  split
  case h_1 k hk => rw [hk, Except.ok.injEq, Option.some.injEq]
  case h_2 hnone => simp [hnone]

/-!
## Members
-/

/-- The ways in which a member is read. -/
inductive Way
  /-- Straight from the text. -/
  | straight
  /-- The text is read as a value tree first. -/
  | throughTree
  deriving DecidableEq, Repr

/-- Reads a member that holds one 64-bit integer. -/
def readMember (schema : Schema ρ) (levels : Nat) : Way → Reader Datum
  | .straight => readAt schema levels .single .int64
  | .throughTree => fun c =>
      match Json.value levels c with
      | .error f => .error f
      | .ok (v, c) => settle c (ofValue schema .single .int64 v)

/-- A value is read by its first byte, and what is read where a list or an object begins is one. -/
theorem exists_valueWith
    (levels : Nat) :
    ∃ list object : Reader Json.Value, Json.value levels = valueWith list object ∧
      (∀ c v after, list c = .ok (v, after) → ∃ items, v = .array items) ∧
      ∀ c v after, object c = .ok (v, after) → ∃ ms, v = .object ms := by
  cases levels with
  | zero =>
      exact ⟨tooDeep, tooDeep, rfl, by simp [tooDeep], by simp [tooDeep]⟩
  | succ n =>
      refine ⟨listOf (Json.value n), objectOf (Json.value n), rfl, ?_, ?_⟩
      · intro c v after h
        unfold listOf at h
        split at h
        · cases h
        · exact ⟨_, (Prod.mk.inj (Except.ok.inj h)).1.symm⟩
      · intro c v after h
        unfold objectOf at h
        split at h
        · cases h
        · exact ⟨_, (Prod.mk.inj (Except.ok.inj h)).1.symm⟩

theorem settle_eq_ok_iff
    {α : Type} {c after : Cursor} {r : Except String α} {x : α} :
    settle c r = .ok (x, after) ↔ r = .ok x ∧ after = c := by
  cases r with
  | error e => simp [settle]
  | ok y => simp [settle, eq_comm]

theorem ofValue_int64
    (schema : Schema ρ) (v : Json.Value) :
    ofValue schema .single .int64 v = scalarOfValue (.int64 : Kind ρ) v := by
  cases v <;> simp [ofValue]

section FirstByte

variable (schema : Schema ρ) (levels : Nat) {c : Cursor} {b : UInt8}

theorem readAt_int64
    (hb : c.skipGap.peek? = some b) :
    ∃ deep, readAt schema levels .single .int64 c = readInt64 deep c.skipGap := by
  cases levels with
  | zero => exact ⟨false, by simp [readAt, readWith, readSingle, hb]⟩
  | succ n => exact ⟨true, by simp [readAt, readWith, readSingle, hb]⟩

theorem readMember_number
    (hb : c.skipGap.peek? = some b) (hnumber : b = 45 ∨ Cursor.isDigit b = true) (way : Way) :
    readMember schema levels way c =
      (number b c.skipGap).bind fun r => settle r.2 ((int64OfNumber r.1).map .whole) := by
  have hword : b ≠ 110 ∧ b ≠ 116 ∧ b ≠ 102 := by
    refine ⟨?_, ?_, ?_⟩ <;> rintro rfl <;> revert hnumber <;> decide
  have hcondition : (decide (b = 45) || Cursor.isDigit b) = true := by simpa using hnumber
  cases way with
  | straight =>
      obtain ⟨deep, hread⟩ := readAt_int64 schema levels hb
      simp only [readMember, hread, readInt64, hb, if_neg hword.1, if_pos hcondition]
      cases number b c.skipGap <;> rfl
  | throughTree =>
      obtain ⟨list, object, hvalue, -, -⟩ := exists_valueWith levels
      simp only [readMember, ofValue_int64, hvalue, valueWith, hb, if_neg hword.1,
        if_neg hword.2.1, if_neg hword.2.2, if_pos hcondition]
      cases number b c.skipGap <;> rfl

theorem readMember_string
    (hb : c.skipGap.peek? = some 34) (way : Way) :
    readMember schema levels way c =
      (stringLiteral c.skipGap.advance).bind fun r =>
        settle r.2 ((int64OfText r.1).map .whole) := by
  have hword : (34 : UInt8) ≠ 110 ∧ (34 : UInt8) ≠ 116 ∧ (34 : UInt8) ≠ 102 := by decide
  have hcondition : ¬ (decide ((34 : UInt8) = 45) || Cursor.isDigit 34) = true := by decide
  cases way with
  | straight =>
      obtain ⟨deep, hread⟩ := readAt_int64 schema levels hb
      simp only [readMember, hread, readInt64, hb, if_neg hword.1, if_neg hcondition, if_true]
      cases stringLiteral c.skipGap.advance <;> rfl
  | throughTree =>
      obtain ⟨list, object, hvalue, -, -⟩ := exists_valueWith levels
      simp only [readMember, ofValue_int64, hvalue, valueWith, hb, if_neg hword.1,
        if_neg hword.2.1, if_neg hword.2.2, if_neg hcondition, if_true]
      cases stringLiteral c.skipGap.advance <;> rfl

theorem readMember_null
    (hb : c.skipGap.peek? = some 110) (way : Way) :
    readMember schema levels way c =
      (word [117, 108, 108] c.skipGap.advance).map fun c => (.whole 0, c) := by
  cases way with
  | straight =>
      obtain ⟨deep, hread⟩ := readAt_int64 schema levels hb
      simp only [readMember, hread, readInt64, hb, if_true]
  | throughTree =>
      obtain ⟨list, object, hvalue, -, -⟩ := exists_valueWith levels
      simp only [readMember, ofValue_int64, hvalue, valueWith, hb, if_true]
      cases word [117, 108, 108] c.skipGap.advance <;> rfl

/-- A truth value, a list or an object is no 64-bit integer. -/
theorem refused_of_other
    (hb : c.skipGap.peek? = some b) (hother : b ∈ [116, 102, 91, 123])
    {v : Json.Value} {after : Cursor} (h : Json.value levels c = .ok (v, after)) :
    ∃ message, ofValue schema .single .int64 v = .error message := by
  obtain ⟨list, object, hvalue, hlist, hobject⟩ := exists_valueWith levels
  have hscalar : b ≠ 110 ∧ b ≠ 34 ∧ ¬ (decide (b = 45) || Cursor.isDigit b) = true := by
    simp only [List.mem_cons, List.not_mem_nil, or_false] at hother
    rcases hother with rfl | rfl | rfl | rfl <;> decide
  rw [hvalue, valueWith] at h
  simp only [hb, if_neg hscalar.1, if_neg hscalar.2.1, if_neg hscalar.2.2] at h
  split_ifs at h
  · obtain ⟨_, -, heq⟩ := exists_of_map_eq_ok h
    cases heq
    exact ⟨_, ofValue_int64 schema _⟩
  · obtain ⟨_, -, heq⟩ := exists_of_map_eq_ok h
    cases heq
    exact ⟨_, ofValue_int64 schema _⟩
  · obtain ⟨items, rfl⟩ := hlist _ _ _ h
    exact ⟨_, ofValue_int64 schema _⟩
  · obtain ⟨ms, rfl⟩ := hobject _ _ _ h
    exact ⟨_, ofValue_int64 schema _⟩

theorem readMember_other
    (hb : c.skipGap.peek? = some b) (hother : b ∈ [116, 102, 91, 123]) (way : Way)
    (r : Datum × Cursor) :
    readMember schema levels way c ≠ .ok r := by
  cases way with
  | straight =>
      obtain ⟨deep, hread⟩ := readAt_int64 schema levels hb
      simp only [List.mem_cons, List.not_mem_nil, or_false] at hother
      rcases hother with rfl | rfl | rfl | rfl
      all_goals cases deep <;> simp [readMember, hread, readInt64, hb, Cursor.isDigit, tooDeep]
  | throughTree =>
      rw [readMember]
      cases hvalue : Json.value levels c with
      | error f => simp [hvalue]
      | ok read =>
          obtain ⟨message, hrefused⟩ := refused_of_other schema levels hb hother hvalue
          simp [hvalue, hrefused, settle]

end FirstByte

/-!
## Whatever stands in the place of a member
-/

/-- A reader takes an integer with a property off the front of the text if there is one, and leaves
the rest. -/
def Reads (read : Reader Datum) (c : Cursor) (value : Int → Prop) (tail : List UInt8) : Prop :=
  ∀ d rest, (∃ after, read c = .ok (d, after) ∧ after.rest = rest) ↔
    ∃ n, value n ∧ d = .whole n ∧ rest = tail

/-- A reader reads what stands next as exactly the integer that it stands for. -/
structure ReadsExactly (read : Reader Datum) (c : Cursor) : Prop where
  /-- An integer literal is read if and only if its value has 64 bits. -/
  literal : ∀ (l : IntegerLiteral) (tail : List UInt8),
    c.skipGap.rest = l.bytes ++ tail → EndsNumber tail →
      Reads read c (fun n => n = l.value ∧ IsInt64 n) tail
  /-- A string is read if and only if it is a numeral of such an integer. -/
  string : ∀ (s : String) (after : Cursor),
    c.skipGap.peek? = some 34 → stringLiteral c.skipGap.advance = .ok (s, after) →
      Reads read c (fun n => Decimal.Denotes s.toList n ∧ IsInt64 n) after.rest
  null : ∀ tail : List UInt8,
    c.skipGap.rest = [110, 117, 108, 108] ++ tail → Reads read c (· = 0) tail
  /-- A truth value, a list or an object is refused. -/
  other : ∀ b ∈ [116, 102, 91, 123], c.skipGap.peek? = some b → ∀ r, read c ≠ .ok r
  /-- What was written is read back. -/
  written : ∀ (n : Int) (v : Json.Value) (arrange : Json.Members → Json.Members)
      (indented : Bool) (tail : List UInt8),
    IsInt64 n → Message.datumJson arrange .int64 (.whole n) = .ok v →
      c.skipGap.rest = v.bytes indented ++ tail → Reads read c (· = n) tail

/-- What stands next is an integer literal that is rounded up to the least integer of 64 bits. -/
def HoldsRoundedUp (c : Cursor) : Prop :=
  ∃ (l : IntegerLiteral) (tail : List UInt8),
    c.skipGap.rest = l.bytes ++ tail ∧ EndsNumber tail ∧ RoundsUp l.value

section Member

variable (schema : Schema ρ) (levels : Nat) (way : Way) {c : Cursor}

theorem reads_of_bind
    {α : Type} {r : Except Json.Fault (α × Cursor)} {f : α → Except String Int}
    {value : Int → Prop} {tail : List UInt8} {read : Reader Datum}
    (hread : read c = r.bind fun r => settle r.2 ((f r.1).map .whole))
    (h : ∀ i rest, (∃ x after, r = .ok (x, after) ∧ f x = .ok i ∧ after.rest = rest) ↔
      value i ∧ rest = tail) :
    Reads read c value tail := by
  intro d rest
  rw [hread]
  constructor
  · rintro ⟨after, hok, hrest⟩
    obtain ⟨⟨x, place⟩, hr, hsettle⟩ := exists_of_bind_eq_ok hok
    obtain ⟨hmap, rfl⟩ := settle_eq_ok_iff.mp hsettle
    obtain ⟨i, hi, rfl⟩ := exists_of_map_eq_ok hmap
    obtain ⟨hvalue, htail⟩ := (h i rest).mp ⟨x, _, hr, hi, hrest⟩
    exact ⟨i, hvalue, rfl, htail⟩
  · rintro ⟨i, hvalue, rfl, htail⟩
    obtain ⟨x, after, rfl, hi, hrest⟩ := (h i rest).mpr ⟨hvalue, htail⟩
    refine ⟨after, ?_, hrest⟩
    change settle after ((f x).map Datum.whole) = _
    rw [hi]
    rfl

theorem reads_literal
    {l : IntegerLiteral} {tail : List UInt8}
    (hc : c.skipGap.rest = l.bytes ++ tail) (htail : EndsNumber tail) :
    Reads (readMember schema levels way) c (LiteralRead l) tail := by
  obtain ⟨b, hb, hnumber, hread⟩ := l.readAs_number htail hc
  exact reads_of_bind (readMember_number schema levels hb hnumber way) (int64_of_readAs hread)

theorem reads_string
    {s : String} {after : Cursor}
    (hb : c.skipGap.peek? = some 34)
    (hs : stringLiteral c.skipGap.advance = .ok (s, after)) :
    Reads (readMember schema levels way) c
      (fun n => Decimal.Denotes s.toList n ∧ IsInt64 n) after.rest := by
  refine reads_of_bind (readMember_string schema levels hb way) fun i rest => ?_
  rw [hs, ← int64OfText_eq_ok_iff]
  constructor
  · rintro ⟨x, after', heq, hx, rfl⟩
    cases heq
    exact ⟨hx, rfl⟩
  · rintro ⟨hx, rfl⟩
    exact ⟨s, after, rfl, hx, rfl⟩

theorem reads_null
    {tail : List UInt8}
    (hc : c.skipGap.rest = [110, 117, 108, 108] ++ tail) :
    Reads (readMember schema levels way) c (· = 0) tail := by
  have hrest : c.skipGap.advance.rest = [117, 108, 108] ++ tail := Cursor.rest_advance hc
  obtain ⟨after, hword, hafter⟩ := word_of_rest hrest
  intro d rest
  rw [readMember_null schema levels (Cursor.peek?_of_rest hc), hword]
  constructor
  · rintro ⟨after', heq, rfl⟩
    cases heq
    exact ⟨0, rfl, rfl, hafter⟩
  · rintro ⟨n, rfl, rfl, rfl⟩
    exact ⟨after, rfl, hafter⟩

/-- A written integer stands in the text as a string of its digits. -/
theorem reads_written
    {n : Int} {v : Json.Value} {arrange : Json.Members → Json.Members} {indented : Bool}
    {tail : List UInt8}
    (hn : IsInt64 n) (hv : Message.datumJson arrange .int64 (.whole n) = .ok v)
    (hc : c.skipGap.rest = v.bytes indented ++ tail) :
    Reads (readMember schema levels way) c (· = n) tail := by
  rw [Message.datumJson] at hv
  obtain rfl := Except.ok.inj hv
  have hbytes : (Json.Value.string (Decimal.text n)).bytes indented =
      Utf8.encode (stringText (Decimal.text n)) := by
    cases indented <;> rfl
  rw [hbytes] at hc
  obtain ⟨hb, after, hs, rfl⟩ := stringLiteral_stringText hc
  have hself : ∀ k, Decimal.Denotes (Decimal.text n).toList k ∧ IsInt64 k ↔ k = n := by
    intro k
    rw [Decimal.text, String.toList_ofList]
    constructor
    · rintro ⟨hk, -⟩
      exact hk.unique (Decimal.denotes_ofInt n)
    · rintro rfl
      exact ⟨Decimal.denotes_ofInt k, hn⟩
  have hread := reads_string schema levels way hb hs
  simpa only [hself] using hread

end Member

/-- Whatever stands in the place of a 64-bit integer is read as exactly the integer that it stands
for, unless it is an integer literal that is rounded up to the least one; that is read as the least
one. -/
theorem int64_exact_iff
    (schema : Schema ρ) (levels : Nat) (way : Way) (c : Cursor) :
    (ReadsExactly (readMember schema levels way) c ↔ ¬ HoldsRoundedUp c) ∧
      ∀ (l : IntegerLiteral) (tail : List UInt8),
        c.skipGap.rest = l.bytes ++ tail → EndsNumber tail → RoundsUp l.value →
          Reads (readMember schema levels way) c (· = Decimal.minInt64) tail := by
  have hrounded : ∀ (l : IntegerLiteral) (tail : List UInt8),
      c.skipGap.rest = l.bytes ++ tail → EndsNumber tail → RoundsUp l.value →
        Reads (readMember schema levels way) c (· = Decimal.minInt64) tail := by
    intro l tail hc htail hl
    have hread := reads_literal schema levels way hc htail
    have hoverflow : ¬ IsInt64 l.value := fun h => absurd h.1 (not_le.mpr hl.2)
    have hvalue : ∀ n, LiteralRead l n ↔ n = Decimal.minInt64 := by
      intro n
      simp only [LiteralRead, hoverflow, hl, false_and, true_and, false_or]
    simpa only [Reads, hvalue] using hread
  refine ⟨⟨?_, fun h => ?_⟩, hrounded⟩
  · rintro hexact ⟨l, tail, hc, htail, hl⟩
    obtain ⟨after, hread, hrest⟩ :=
      (hrounded l tail hc htail hl (.whole Decimal.minInt64) tail).mpr ⟨_, rfl, rfl, rfl⟩
    obtain ⟨n, ⟨rfl, hn⟩, -, -⟩ :=
      (hexact.literal l tail hc htail _ _).mp ⟨after, hread, hrest⟩
    exact absurd hn.1 (not_le.mpr hl.2)
  · refine ⟨fun l tail hc htail => ?_, fun s after hb hs => reads_string schema levels way hb hs,
      fun tail hc => reads_null schema levels way hc,
      fun b hother hb => readMember_other schema levels hb hother way,
      fun n v arrange indented tail hn hv hc => reads_written schema levels way hn hv hc⟩
    have hread := reads_literal schema levels way hc htail
    have hfits : ¬ RoundsUp l.value := fun hl => h ⟨l, tail, hc, htail, hl⟩
    have hvalue : ∀ n, LiteralRead l n ↔ n = l.value ∧ IsInt64 n := by
      intro n
      simp only [LiteralRead, hfits, false_and, or_false]
      constructor
      · rintro ⟨hl, rfl⟩
        exact ⟨rfl, hl⟩
      · rintro ⟨rfl, hl⟩
        exact ⟨hl, rfl⟩
    simpa only [Reads, hvalue] using hread

/-- The literal of the integer that is one less than the least one of 64 bits. -/
def belowLeast : IntegerLiteral where
  negative := true
  digits := ['9', '2', '2', '3', '3', '7', '2', '0', '3', '6', '8', '5', '4', '7', '7', '5', '8',
    '0', '9']
  isDigits := ⟨by decide, List.all_eq_true.mp rfl⟩
  normal := by decide

/-- The schema of the messages: in a list, the literal one below the least integer is read as the
least one; its digits in a string are refused like any other numeral beyond 64 bits. -/
theorem int64_exact_iff_belowLeast :
    RoundsUp belowLeast.value ∧
      Reads (readMember MessageType.schema 0 .straight) (.start (belowLeast.bytes ++ [44]))
        (· = Decimal.minInt64) [44] ∧
      ReadsExactly (readMember MessageType.schema 0 .straight)
        (.start (34 :: belowLeast.bytes ++ [34])) := by
  have hrounds : RoundsUp belowLeast.value := by
    unfold RoundsUp
    decide
  have hends : EndsNumber [44] := by
    intro b hb
    obtain rfl : 44 = b := Option.some.inj hb
    decide
  refine ⟨hrounds, ?_, ?_⟩
  · exact (int64_exact_iff MessageType.schema 0 .straight _).2 belowLeast [44] rfl hends hrounds
  · refine (int64_exact_iff MessageType.schema 0 .straight _).1.mpr ?_
    rintro ⟨l, tail, hc, htail, -⟩
    -- a literal begins with a sign or a digit, not with a quote
    obtain ⟨b, hb, hnumber, -⟩ := l.readAs_number htail hc
    obtain rfl : 34 = b := Option.some.inj hb
    revert hnumber
    decide

/-- A request for the event one below the least number asks for the least number, though the same
digits in a string are refused. -/
theorem belowLeast_read_as_least :
    ¬ IsInt64 belowLeast.value ∧
      Message.ofText .getEventRequest
          (Utf8.bytes "\x7b\"eventId\":" ++ belowLeast.bytes ++ [125]) =
        .ok ⟨.getEventRequest, [.whole Decimal.minInt64]⟩ ∧
      ∃ fault, Message.ofText .getEventRequest
          (Utf8.bytes "\x7b\"eventId\":\"" ++ belowLeast.bytes ++ [34, 125]) = .error fault := by
  refine ⟨?_, rfl, _, rfl⟩
  unfold IsInt64
  decide

end Schema
end RpcGateway
