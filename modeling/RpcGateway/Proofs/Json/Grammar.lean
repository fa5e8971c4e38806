import RpcGateway.Json.Parser
import RpcGateway.Proofs.Json.IntegerLiteral
import RpcGateway.Proofs.Json.Scalar

/-!
# Texts that spell a value

A grammar of JSON text for values without fractions, and the proof that every text of the grammar is
read as the value that it spells.

**Layout.**  Blanks may stand between any two tokens.  `Listed` is a text of items with commas
between them; it serves lists and, with `PairText`, objects.

**Levels.**  `Spells n` spells values with `n` levels of containers at most, as `value n` reads
them, so both are followed by recursion on `n`.

**Readers.**  `Takes` says that a reader takes a text off the front, whatever stands behind it.  The
readers of lists and objects are treated for any reader of items.

**Shapes.**  Readers that expect a value of one kind need to know what its text looks like; the last
section says it for strings, integers and lists.
-/

namespace RpcGateway
namespace Json

open Decimal

/-!
## Blanks
-/

/-- Blanks between tokens. -/
def IsGapText (bs : List UInt8) : Prop :=
  ∀ b ∈ bs, Cursor.isGap b = true

theorem isGapText_nil : IsGapText [] := by
  simp [IsGapText]

/-- A text begins with something that is neither a blank nor the end of a list. -/
def Starts (text : List UInt8) : Prop :=
  ∃ b bs, text = b :: bs ∧ Cursor.isGap b = false ∧ b ≠ 93

theorem Cursor.rest_skipGap
    {gap bs : List UInt8} {b : UInt8} {c : Cursor}
    (hgap : IsGapText gap) (hb : Cursor.isGap b = false) (hc : c.rest = gap ++ b :: bs) :
    c.skipGap.rest = b :: bs := by
  obtain ⟨rest, line, column⟩ := c
  obtain rfl : rest = gap ++ b :: bs := hc
  unfold skipGap
  induction gap generalizing line column with
  | nil => simp [skipWhile, hb]
  | cons d gap ih =>
      obtain ⟨hd, hgap⟩ := List.forall_mem_cons.mp hgap
      simp only [List.cons_append, skipWhile, hd, if_true] at ih ⊢
      split
      · exact ih hgap _ _
      · exact ih hgap _ _

/-- Neither a blank nor a comma nor a closing bracket is part of a number. -/
theorem endsNumber_of_gap
    {gap : List UInt8} {b : UInt8}
    (hgap : IsGapText gap) (hb : b ∈ [44, 93, 125]) (tail : List UInt8) :
    EndsNumber (gap ++ b :: tail) := by
  cases gap with
  | nil =>
      intro d hd
      obtain rfl : b = d := Option.some.inj hd
      simp only [List.mem_cons, List.not_mem_nil, or_false] at hb
      rcases hb with rfl | rfl | rfl <;> decide
  | cons g gap =>
      intro d hd
      obtain rfl : g = d := Option.some.inj hd
      have hgap := hgap g (List.mem_cons_self ..)
      simp only [Cursor.isGap, Bool.or_eq_true, beq_iff_eq] at hgap
      rcases hgap with ((rfl | rfl) | rfl) | rfl <;> decide

theorem endsNumber_nil : EndsNumber [] := by
  simp [EndsNumber]

/-!
## Texts of items
-/

/-- What stands in front of an item: blanks, with a comma among them unless it is the first. -/
inductive Lead : Bool → List UInt8 → Prop
  | first {gap : List UInt8}
      (hgap : IsGapText gap) :
      Lead true gap
  | later {gap more : List UInt8}
      (hgap : IsGapText gap) (hmore : IsGapText more) :
      Lead false (gap ++ 44 :: more)

/-- Items up to the closing bracket; the flag says whether the next item is the first. -/
inductive Listed {α : Type} (item : α → List UInt8 → Prop) : Bool → List α → List UInt8 → Prop
  | done {first : Bool} {gap : List UInt8}
      (hgap : IsGapText gap) :
      Listed item first [] gap
  | more {first : Bool} {lead text rest : List UInt8} {x : α} {xs : List α}
      (hlead : Lead first lead) (hitem : item x text) (hrest : Listed item false xs rest) :
      Listed item first (x :: xs) (lead ++ (text ++ rest))

/-- A key, a colon and a value. -/
inductive PairText (item : Value → List UInt8 → Prop) : String × Value → List UInt8 → Prop
  | mk {gap more text : List UInt8} {v : Value} (key : String)
      (hgap : IsGapText gap) (hmore : IsGapText more) (hitem : item v text) :
      PairText item (key, v) (Utf8.encode (stringText key) ++ (gap ++ 58 :: (more ++ text)))

section Listed

variable {α : Type} {item : α → List UInt8 → Prop} {first : Bool} {xs : List α} {x : α}
  {text lead tail : List UInt8} {c : Cursor}

/-- What follows an item is no part of it, should it be a number. -/
theorem Listed.endsNumber
    {close : UInt8}
    (h : Listed item false xs text) (hclose : close = 93 ∨ close = 125) (tail : List UInt8) :
    EndsNumber (text ++ close :: tail) := by
  cases h with
  | done hgap =>
      refine endsNumber_of_gap hgap ?_ tail
      rcases hclose with rfl | rfl <;> decide
  | more hlead =>
      cases hlead with
      | later hgap =>
          rw [List.append_assoc, List.append_assoc, List.cons_append]
          exact endsNumber_of_gap hgap (by decide) _

theorem Listed.length_le
    (hitem : ∀ x text, item x text → text ≠ []) (h : Listed item first xs text) :
    xs.length ≤ text.length := by
  induction h with
  | done => exact Nat.zero_le _
  | more hlead hx hrest ih =>
      have hpos := List.length_pos_iff.mpr (hitem _ _ hx)
      simp only [List.length_cons, List.length_append]
      omega

/-- A text of items is a text of whatever the items are texts of. -/
theorem Listed.of_forall₂
    {β : Type} {item' : β → List UInt8 → Prop} {ys : List β}
    (h : Listed item first xs text)
    (hitems : List.Forall₂ (fun x y => ∀ text, item x text → item' y text) xs ys) :
    Listed item' first ys text := by
  induction h generalizing ys with
  | done hgap =>
      cases hitems
      exact .done hgap
  | more hlead hx hrest ih =>
      cases hitems with
      | cons hy hys => exact .more hlead (hy _ hx) (ih hys)

end Listed

/-!
## Readers of items
-/

/-- A reader takes a text off the front, with blanks before it. -/
def Takes {α : Type} (read : Reader α) (x : α) (text : List UInt8) : Prop :=
  ∀ {gap tail : List UInt8} {c : Cursor}, IsGapText gap → EndsNumber tail →
    c.rest = gap ++ (text ++ tail) → ∃ after, read c = .ok (x, after) ∧ after.rest = tail

section Readers

variable {first : Bool} {lead gap bs tail : List UInt8} {b : UInt8} {c : Cursor}

theorem nextElement_of_lead
    (hlead : Lead first lead) (hb : Cursor.isGap b = false) (hne : b ≠ 93)
    (hc : c.rest = lead ++ b :: bs) :
    ∃ after, nextElement first c = .ok (true, after) ∧ after.rest = b :: bs := by
  cases hlead with
  | first hgap =>
      have hrest := Cursor.rest_skipGap hgap hb hc
      refine ⟨_, ?_, hrest⟩
      simp [nextElement, Cursor.peek?_of_rest hrest, hne]
  | later hgap hmore =>
      rw [List.append_assoc, List.cons_append] at hc
      have hcomma := Cursor.rest_skipGap hgap (by decide) hc
      have hrest := Cursor.rest_skipGap hmore hb (Cursor.rest_advance hcomma)
      refine ⟨_, ?_, hrest⟩
      simp [nextElement, Cursor.peek?_of_rest hcomma, Cursor.peek?_of_rest hrest, hne]

theorem nextElement_of_close
    (hgap : IsGapText gap) (first : Bool) (hc : c.rest = gap ++ 93 :: tail) :
    ∃ after, nextElement first c = .ok (false, after) ∧ after.rest = 93 :: tail := by
  have hrest := Cursor.rest_skipGap hgap (by decide) hc
  refine ⟨_, ?_, hrest⟩
  simp [nextElement, Cursor.peek?_of_rest hrest]

theorem head?_stringText
    (s : String) (tail : List UInt8) :
    (Utf8.encode (stringText s) ++ tail).head? = some 34 :=
  rfl

theorem PairText.ne_nil
    {item : Value → List UInt8 → Prop} {m : String × Value} {text : List UInt8}
    (h : PairText item m text) :
    text ≠ [] := by
  cases h with
  | @mk gap more text _ key =>
      intro hnil
      have hquote := head?_stringText key (gap ++ 58 :: (more ++ text))
      rw [hnil] at hquote
      cases hquote

theorem nextKey_of_lead
    (hlead : Lead first lead) (hquote : bs.head? = some 34) (hc : c.rest = lead ++ bs) :
    ∃ after, nextKey first c = .ok (true, after) ∧ after.rest = bs := by
  obtain ⟨bs, rfl⟩ := List.head?_eq_some_iff.mp hquote
  cases hlead with
  | first hgap =>
      have hrest := Cursor.rest_skipGap hgap (by decide) hc
      refine ⟨_, ?_, hrest⟩
      simp [nextKey, Cursor.peek?_of_rest hrest]
  | later hgap hmore =>
      rw [List.append_assoc, List.cons_append] at hc
      have hcomma := Cursor.rest_skipGap hgap (by decide) hc
      have hrest := Cursor.rest_skipGap hmore (by decide) (Cursor.rest_advance hcomma)
      refine ⟨_, ?_, hrest⟩
      simp [nextKey, Cursor.peek?_of_rest hcomma, Cursor.peek?_of_rest hrest]

theorem nextKey_of_close
    (hgap : IsGapText gap) (first : Bool) (hc : c.rest = gap ++ 125 :: tail) :
    ∃ after, nextKey first c = .ok (false, after) ∧ after.rest = 125 :: tail := by
  have hrest := Cursor.rest_skipGap hgap (by decide) hc
  refine ⟨_, ?_, hrest⟩
  simp [nextKey, Cursor.peek?_of_rest hrest]

theorem colon_of_rest
    (hgap : IsGapText gap) (hc : c.rest = gap ++ 58 :: tail) :
    ∃ after, colon c = .ok after ∧ after.rest = tail := by
  have hrest := Cursor.rest_skipGap hgap (by decide) hc
  refine ⟨_, ?_, Cursor.rest_advance hrest⟩
  simp [colon, Cursor.peek?_of_rest hrest]

/-- The elements of a list are read one after another, if the fuel lasts. -/
theorem elements_of_listed
    {α : Type} {item : α → List UInt8 → Prop} {read : Reader α} {xs : List α} {text : List UInt8}
    (hitem : ∀ x text, item x text → Starts text ∧ Takes read x text)
    (h : Listed item first xs text) {fuel : Nat} (hfuel : xs.length < fuel)
    (hc : c.rest = text ++ 93 :: tail) :
    ∃ after, elements read fuel first c = .ok (xs, after) ∧ after.rest = 93 :: tail := by
  induction h generalizing fuel c with
  | @done first gap hgap =>
      obtain ⟨n, rfl⟩ : ∃ n, fuel = n + 1 := ⟨fuel - 1, by omega⟩
      obtain ⟨after, hnext, hafter⟩ := nextElement_of_close hgap first hc
      exact ⟨after, by simp [elements, hnext], hafter⟩
  | @more first lead text rest x xs hlead hx hrest ih =>
      obtain ⟨n, rfl⟩ : ∃ n, fuel = n + 1 := ⟨fuel - 1, by omega⟩
      obtain ⟨⟨b, bs, rfl, hb, hne⟩, htakes⟩ := hitem _ _ hx
      rw [List.append_assoc, List.append_assoc, List.cons_append] at hc
      obtain ⟨c₁, hnext, hc₁⟩ := nextElement_of_lead hlead hb hne hc
      obtain ⟨c₂, hread, hc₂⟩ := htakes isGapText_nil (hrest.endsNumber (.inl rfl) tail) hc₁
      obtain ⟨after, hmore, hafter⟩ := ih (Nat.lt_of_succ_lt_succ hfuel) hc₂
      exact ⟨after, by simp [elements, hnext, hread, hmore], hafter⟩

/-- Behind the opening bracket of a list, the fuel lasts for all of its elements. -/
theorem elements_of_bracketed
    {α : Type} {item : α → List UInt8 → Prop} {read : Reader α} {xs : List α} {text : List UInt8}
    (hitem : ∀ x text, item x text → Starts text ∧ Takes read x text)
    (h : Listed item true xs text) (hc : c.rest = 91 :: (text ++ 93 :: tail)) :
    ∃ after, elements read (c.rest.length + 1) true c.advance = .ok (xs, after) ∧
      after.advance.rest = tail := by
  have hfilled : ∀ x text, item x text → text ≠ [] := by
    intro x text hx
    obtain ⟨b, bs, rfl, -⟩ := (hitem x text hx).1
    exact List.cons_ne_nil _ _
  have hfuel : xs.length < c.rest.length + 1 := by
    have hle := h.length_le hfilled
    rw [hc, List.length_cons, List.length_append]
    omega
  obtain ⟨after, hread, hafter⟩ := elements_of_listed hitem h hfuel (Cursor.rest_advance hc)
  exact ⟨after, hread, Cursor.rest_advance hafter⟩

/-- A member is read up to its value. -/
theorem exists_value_of_member
    {item : Value → List UInt8 → Prop} {m : String × Value} {text : List UInt8}
    (hlead : Lead first lead) (hm : PairText item m text) (hc : c.rest = lead ++ (text ++ bs)) :
    ∃ atKey behindKey atValue gap inner,
      nextKey first c = .ok (true, atKey) ∧
      stringLiteral atKey.advance = .ok (m.1, behindKey) ∧ colon behindKey = .ok atValue ∧
      item m.2 inner ∧ IsGapText gap ∧ atValue.rest = gap ++ (inner ++ bs) := by
  cases hm with
  | @mk gap more inner v key hgap hmore hv =>
      simp only [List.append_assoc, List.cons_append] at hc
      obtain ⟨c₁, hnext, hc₁⟩ := nextKey_of_lead hlead (head?_stringText key _) hc
      obtain ⟨-, c₂, hkey, hc₂⟩ := stringLiteral_stringText hc₁
      obtain ⟨c₃, hcolon, hc₃⟩ := colon_of_rest hgap hc₂
      exact ⟨c₁, c₂, c₃, more, inner, hnext, hkey, hcolon, hv, hmore, hc₃⟩

/-- The members of an object are read one after another, if the fuel lasts. -/
theorem members_of_listed
    {item : Value → List UInt8 → Prop} {read : Reader Value} {ms : List (String × Value)}
    {text : List UInt8}
    (hitem : ∀ v text, item v text → Takes read v text)
    (h : Listed (PairText item) first ms text) {fuel : Nat} (hfuel : ms.length < fuel)
    (hc : c.rest = text ++ 125 :: tail) :
    ∃ after, members read fuel first c = .ok (ms, after) ∧ after.rest = 125 :: tail := by
  induction h generalizing fuel c with
  | @done first gap hgap =>
      obtain ⟨n, rfl⟩ : ∃ n, fuel = n + 1 := ⟨fuel - 1, by omega⟩
      obtain ⟨after, hnext, hafter⟩ := nextKey_of_close hgap first hc
      exact ⟨after, by simp [members, hnext], hafter⟩
  | @more first lead text rest x xs hlead hx hrest ih =>
      obtain ⟨n, rfl⟩ : ∃ n, fuel = n + 1 := ⟨fuel - 1, by omega⟩
      rw [List.append_assoc, List.append_assoc] at hc
      obtain ⟨c₁, c₂, c₃, gap, inner, hnext, hkey, hcolon, hv, hgap, hc₃⟩ :=
        exists_value_of_member hlead hx hc
      have hends := hrest.endsNumber (.inr rfl) tail
      obtain ⟨c₄, hread, hc₄⟩ := hitem x.2 inner hv hgap hends hc₃
      obtain ⟨after, hmembers, hafter⟩ := ih (Nat.lt_of_succ_lt_succ hfuel) hc₄
      exact ⟨after, by simp [members, hnext, hkey, hcolon, hread, hmembers], hafter⟩

end Readers

/-!
## Values
-/

/-- The number that is read of an integer is that integer: 64 bits are enough for it. -/
structure IntegerLiteral.IsExact (l : IntegerLiteral) : Prop where
  kept : l.magnitude ≤ maxUInt64
  /-- A sign stands in front of nothing but an integer below zero that fits. -/
  signed : l.negative = true → l.magnitude ≠ 0 ∧ l.magnitude ≤ 9223372036854775808

/-- How a value without values inside is spelled. -/
inductive ScalarText : Value → List UInt8 → Prop
  | null : ScalarText .null [110, 117, 108, 108]
  | affirmed : ScalarText (.boolean true) [116, 114, 117, 101]
  | denied : ScalarText (.boolean false) [102, 97, 108, 115, 101]
  | integer (l : IntegerLiteral)
      (h : l.IsExact) :
      ScalarText (.int l.value) l.bytes
  | string (s : String) : ScalarText (.string s) (Utf8.encode (stringText s))

/-- How a list and an object are spelled, by how the values inside are. -/
inductive ContainerText (item : Value → List UInt8 → Prop) : Value → List UInt8 → Prop
  | array {items : List Value} {text : List UInt8}
      (h : Listed item true items text) :
      ContainerText item (.array items) (91 :: (text ++ [93]))
  | object {ms : List (String × Value)} {text : List UInt8}
      (h : Listed (PairText item) true ms text) :
      ContainerText item (.object (Members.ofList ms)) (123 :: (text ++ [125]))

/-- How a value with so many levels of containers at most is spelled. -/
def Spells : Nat → Value → List UInt8 → Prop
  | 0, v, text => ScalarText v text
  | n + 1, v, text => ScalarText v text ∨ ContainerText (Spells n) v text

variable {v : Value} {text : List UInt8}

theorem IntegerLiteral.exists_first
    (l : IntegerLiteral) :
    ∃ b bs, l.bytes = b :: bs ∧ (b = 45 ∨ Cursor.isDigit b = true) := by
  have hc : (Cursor.start l.bytes).rest = l.bytes ++ [] := (List.append_nil _).symm
  obtain ⟨b, hpeek, hb, -⟩ := l.readAs_number endsNumber_nil hc
  obtain ⟨bs, hbs⟩ := List.head?_eq_some_iff.mp hpeek
  exact ⟨b, bs, hbs, hb⟩

/-- The number that is read of an exact literal. -/
theorem IntegerLiteral.IsExact.integerNumber_eq
    {l : IntegerLiteral}
    (h : l.IsExact) :
    afterInteger.integerNumber (!l.negative) l.magnitude = .integer l.value := by
  unfold afterInteger.integerNumber value
  cases hsign : l.negative with
  | false => rfl
  | true =>
      obtain ⟨hne, hle⟩ := h.signed hsign
      simp [hne, hle]

theorem IntegerLiteral.IsExact.number_eq
    {l : IntegerLiteral} {tail : List UInt8} {c : Cursor}
    (h : l.IsExact) (htail : EndsNumber tail) (hc : c.rest = l.bytes ++ tail) :
    ∃ b after, c.peek? = some b ∧ (b = 45 ∨ Cursor.isDigit b = true) ∧
      number b c = .ok (.integer l.value, after) ∧ after.rest = tail := by
  obtain ⟨b, hpeek, hb, hread⟩ := l.readAs_number htail hc
  generalize hnumber : number b c = read at hread
  cases hread with
  | @kept after _ hafter =>
      rw [h.integerNumber_eq] at hnumber
      exact ⟨b, after, hpeek, hb, hnumber, hafter⟩
  | scaled hlarge => exact absurd h.kept (Nat.not_le.mpr hlarge)

/-- A digit is neither a blank nor the end of a list. -/
theorem isGap_eq_false_of_isDigit
    {b : UInt8}
    (h : Cursor.isDigit b = true) :
    Cursor.isGap b = false ∧ b ≠ 93 := by
  have hne : ∀ k, Cursor.isDigit k = false → b ≠ k := by
    rintro k hk rfl
    rw [h] at hk
    cases hk
  have hblank := hne 32 (by decide)
  have hline := hne 10 (by decide)
  have htab := hne 9 (by decide)
  have hreturn := hne 13 (by decide)
  exact ⟨by simp [Cursor.isGap, hblank, hline, htab, hreturn], hne 93 (by decide)⟩

theorem ScalarText.starts
    (h : ScalarText v text) :
    Starts text := by
  cases h with
  | null | affirmed | denied | string => exact ⟨_, _, rfl, by decide, by decide⟩
  | integer l =>
      obtain ⟨b, bs, hbs, hb⟩ := l.exists_first
      refine ⟨b, bs, hbs, ?_⟩
      rcases hb with rfl | hdigit
      · decide
      · exact isGap_eq_false_of_isDigit hdigit

theorem ContainerText.starts
    {item : Value → List UInt8 → Prop}
    (h : ContainerText item v text) :
    Starts text := by
  cases h with
  | array | object => exact ⟨_, _, rfl, by decide, by decide⟩

theorem Spells.starts
    {n : Nat}
    (h : Spells n v text) :
    Starts text := by
  cases n with
  | zero => exact ScalarText.starts h
  | succ n => exact h.elim ScalarText.starts ContainerText.starts

theorem Starts.rest_skipGap
    {gap tail : List UInt8} {c : Cursor}
    (h : Starts text) (hgap : IsGapText gap) (hc : c.rest = gap ++ (text ++ tail)) :
    c.skipGap.rest = text ++ tail := by
  obtain ⟨b, bs, rfl, hb, -⟩ := h
  exact Cursor.rest_skipGap hgap hb hc

/-- A value without values inside is read whatever the readers of containers are. -/
theorem ScalarText.takes
    (h : ScalarText v text) (list object : Reader Value) :
    Takes (valueWith list object) v text := by
  intro gap tail c hgap htail hc
  have hrest := h.starts.rest_skipGap hgap hc
  unfold valueWith
  generalize c.skipGap = d at hrest
  have hword : ∀ {b bs}, d.rest = b :: bs ++ tail →
      ∃ after, word bs d.advance = .ok after ∧ after.rest = tail :=
    fun h => word_of_rest (Cursor.rest_advance h)
  cases h with
  | null | affirmed | denied =>
      obtain ⟨after, hread, hafter⟩ := hword hrest
      exact ⟨after, by simp [Cursor.peek?_of_rest hrest, hread, Except.map], hafter⟩
  | integer l hl =>
      obtain ⟨b, after, hpeek, hb, hnumber, hafter⟩ := hl.number_eq htail hrest
      have hother : b ≠ 110 ∧ b ≠ 116 ∧ b ≠ 102 := by
        refine ⟨?_, ?_, ?_⟩ <;> rintro rfl <;> revert hb <;> decide
      have hcondition : (decide (b = 45) || Cursor.isDigit b) = true := by simpa using hb
      refine ⟨after, ?_, hafter⟩
      simp only [hpeek, if_neg hother.1, if_neg hother.2.1, if_neg hother.2.2, hcondition, if_true,
        hnumber, Except.map]
      rfl
  | string s =>
      obtain ⟨hpeek, after, hread, hafter⟩ := stringLiteral_stringText hrest
      exact ⟨after, by simp [hpeek, Cursor.isDigit, hread, Except.map], hafter⟩

/-- A container is read if there is a reader for the values inside. -/
theorem ContainerText.takes
    {item : Value → List UInt8 → Prop} {read : Reader Value}
    (hitem : ∀ v text, item v text → Starts text ∧ Takes read v text)
    (h : ContainerText item v text) :
    Takes (valueWith (listOf read) (objectOf read)) v text := by
  intro gap tail c hgap htail hc
  have hrest := h.starts.rest_skipGap hgap hc
  unfold valueWith
  generalize c.skipGap = d at hrest
  cases h with
  | @array items text h =>
      rw [List.cons_append, List.append_assoc, List.singleton_append] at hrest
      obtain ⟨after, hread, hafter⟩ := elements_of_bracketed hitem h hrest
      refine ⟨after.advance, ?_, hafter⟩
      simp [Cursor.peek?_of_rest hrest, Cursor.isDigit, listOf, hread]
  | @object ms text h =>
      rw [List.cons_append, List.append_assoc, List.singleton_append] at hrest
      have hfuel : ms.length < d.rest.length + 1 := by
        have hle := h.length_le fun _ _ hm => hm.ne_nil
        rw [hrest, List.length_cons, List.length_append]
        omega
      obtain ⟨after, hread, hafter⟩ :=
        members_of_listed (fun v text hv => (hitem v text hv).2) h hfuel
          (Cursor.rest_advance hrest)
      refine ⟨after.advance, ?_, Cursor.rest_advance hafter⟩
      simp [Cursor.peek?_of_rest hrest, Cursor.isDigit, objectOf, hread]

/-- A text of the grammar is taken off as the value that it spells. -/
theorem Spells.takes
    {n : Nat}
    (h : Spells n v text) :
    Takes (value n) v text := by
  induction n generalizing v text with
  | zero => exact ScalarText.takes h _ _
  | succ n ih =>
      rcases h with h | h
      · exact h.takes _ _
      · exact h.takes fun _ _ hv => ⟨hv.starts, ih hv⟩

/-- A whole text that a reader takes off is read. -/
theorem parseWith_of_takes
    {α : Type} {read : Reader α} {x : α}
    (h : Takes read x text) :
    parseWith read text = .ok x := by
  have hc : (Cursor.start text).rest = [] ++ (text ++ []) := (List.append_nil _).symm
  obtain ⟨after, hread, hafter⟩ := h isGapText_nil endsNumber_nil hc
  have hend : after.skipGap.peek? = none := by
    rw [Cursor.skipGap, hafter]
    rfl
  simp [parseWith, hread, atEnd, hend, Except.map]

/-- A whole text of the grammar is read as the value that it spells. -/
theorem parse_of_spells
    (h : Spells maxDepth v text) :
    parse text = .ok v :=
  parseWith_of_takes h.takes

/-!
## What a text can spell

Of a text that spells a value of a known kind, its shape is known: a string is spelled by the string
literal that is written, an integer by an exact literal, a list by texts of its items.
-/

theorem Spells.eq_stringText
    {n : Nat} {s : String}
    (h : Spells n (.string s) text) :
    text = Utf8.encode (stringText s) := by
  have hscalar : ScalarText (.string s) text → text = Utf8.encode (stringText s) := by
    intro h
    cases h
    rfl
  cases n with
  | zero => exact hscalar h
  | succ n =>
      rcases h with h | h
      · exact hscalar h
      · cases h

theorem Spells.exists_literal
    {n : Nat} {i : Int}
    (h : Spells n (.int i) text) :
    ∃ l : IntegerLiteral, l.IsExact ∧ l.value = i ∧ text = l.bytes := by
  have hscalar : ScalarText (.int i) text →
      ∃ l : IntegerLiteral, l.IsExact ∧ l.value = i ∧ text = l.bytes := by
    intro h
    generalize hv : Value.int i = v at h
    cases h with
    | integer l hl =>
        cases hv
        exact ⟨l, hl, rfl, rfl⟩
    | _ => cases hv
  cases n with
  | zero => exact hscalar h
  | succ n =>
      rcases h with h | h
      · exact hscalar h
      · generalize hv : Value.int i = v at h
        cases h <;> cases hv

theorem Spells.exists_listed
    {n : Nat} {items : List Value}
    (h : Spells (n + 1) (.array items) text) :
    ∃ inner, text = 91 :: (inner ++ [93]) ∧ Listed (Spells n) true items inner := by
  rcases h with h | h
  · cases h
  · cases h with
    | array hlisted => exact ⟨_, rfl, hlisted⟩

end Json
end RpcGateway
