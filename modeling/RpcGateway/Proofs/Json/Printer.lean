import RpcGateway.Json.Printer
import RpcGateway.Proofs.Json.Grammar
import RpcGateway.Proofs.Json.Members

/-!
# What is written is read back

A value without fractions is read back from its compact and from its indented text.

**Values.**  `FloatFree n` holds of the values that can be read back: integers have 64 bits at most,
members stand in the order of their keys, and there are `n` levels of containers at most.

**Layouts.**  The two layouts differ in the blanks between tokens only.  Both write a list and an
object as items with commas between them, each behind the same blanks, so `spells_array` and
`spells_object` serve both.

**Result.**  `parse_bytes`, for either layout.
-/

namespace RpcGateway
namespace Json

open Decimal

/-!
## Integers
-/

/-- The literal of an integer. -/
def IntegerLiteral.ofInt (n : Int) : IntegerLiteral where
  negative := n < 0
  digits := Decimal.ofNat n.natAbs
  isDigits := (digits?_eq_some_iff.mp (digits?_ofNat _)).1
  normal := by
    intro hzero
    cases hn : n.natAbs with
    | zero => decide
    | succ k =>
        rw [hn] at hzero
        exact absurd hzero (head?_ofNat (Nat.succ_pos k))

namespace IntegerLiteral

theorem magnitude_ofInt (n : Int) : (ofInt n).magnitude = n.natAbs :=
  (digits?_eq_some_iff.mp (digits?_ofNat _)).2

theorem text_ofInt (n : Int) : (ofInt n).text = Decimal.ofInt n := by
  cases n with
  | ofNat n => rfl
  | negSucc n =>
      have hnegative : (ofInt (Int.negSucc n)).negative = true :=
        decide_eq_true (Int.negSucc_lt_zero n)
      rw [text, hnegative]
      rfl

theorem value_ofInt (n : Int) : (ofInt n).value = n := by
  unfold value
  rw [magnitude_ofInt]
  simp only [ofInt, decide_eq_true_eq]
  split <;> omega

theorem isExact_ofInt
    {n : Int}
    (hleast : minInt64 ≤ n) (hgreatest : n ≤ maxUInt64) :
    (ofInt n).IsExact := by
  unfold minInt64 at hleast
  unfold maxUInt64 at hgreatest
  refine ⟨?_, fun hsign => ?_⟩
  · rw [magnitude_ofInt, maxUInt64]
    omega
  · have hnegative : n < 0 := of_decide_eq_true hsign
    rw [magnitude_ofInt]
    omega

end IntegerLiteral

/-!
## Values that can be read back
-/

/-- A value without values inside and without a fraction. -/
inductive ScalarFloatFree : Value → Prop
  | null : ScalarFloatFree .null
  | boolean (b : Bool) : ScalarFloatFree (.boolean b)
  | integer {n : Int}
      (hleast : minInt64 ≤ n) (hgreatest : n ≤ maxUInt64) :
      ScalarFloatFree (.int n)
  | string (s : String) : ScalarFloatFree (.string s)

/-- A list or an object, by what the values inside are. -/
inductive ContainerOf (inner : Value → Prop) : Value → Prop
  | array {items : List Value}
      (h : ∀ v ∈ items, inner v) :
      ContainerOf inner (.array items)
  | object {ms : Members}
      (hsorted : ms.Sorted) (h : ∀ m ∈ ms, inner m.2) :
      ContainerOf inner (.object ms)

/-- A value without fractions and with so many levels of containers at most. -/
def FloatFree : Nat → Value → Prop
  | 0, v => ScalarFloatFree v
  | n + 1, v => ScalarFloatFree v ∨ ContainerOf (FloatFree n) v

theorem FloatFree.of_scalar
    {v : Value}
    (h : ScalarFloatFree v) (n : Nat) :
    FloatFree n v := by
  cases n with
  | zero => exact h
  | succ n => exact Or.inl h

theorem FloatFree.mono
    {n k : Nat} {v : Value}
    (h : FloatFree n v) (hle : n ≤ k) :
    FloatFree k v := by
  induction k generalizing n v with
  | zero =>
      obtain rfl := Nat.le_zero.mp hle
      exact h
  | succ k ih =>
      cases n with
      | zero => exact Or.inl h
      | succ n =>
          have hle := Nat.le_of_succ_le_succ hle
          rcases h with hscalar | hcontainer
          · exact Or.inl hscalar
          · right
            cases hcontainer with
            | array h => exact .array fun v hv => ih (h v hv) hle
            | object hsorted h => exact .object hsorted fun m hm => ih (h m hm) hle

/-!
## Layouts
-/

theorem isGapText_space : IsGapText (Utf8.encode [' ']) := by
  intro b hb
  obtain rfl := List.mem_singleton.mp hb
  decide

theorem isGapText_newLine (level : Nat) : IsGapText (Utf8.encode (newLine level)) := by
  intro b hb
  obtain ⟨ch, hch, hb⟩ := List.mem_flatMap.mp hb
  rcases List.mem_cons.mp hch with rfl | hch
  · obtain rfl := List.mem_singleton.mp hb
    decide
  · obtain rfl := List.eq_of_mem_replicate hch
    obtain rfl := List.mem_singleton.mp hb
    decide

section Lists

variable {α : Type} {item : α → List UInt8 → Prop} {lead close : List Char} {write : α → List Char}

/-- Items with commas between them, each behind the same blanks. -/
def separated (lead : List Char) (write : α → List Char) (xs : List α) : List Char :=
  [','].intercalate (xs.map fun x => lead ++ write x)

theorem separated_cons_cons
    (lead : List Char) (write : α → List Char) (x y : α) (xs : List α) :
    separated lead write (x :: y :: xs) =
      lead ++ write x ++ ',' :: separated lead write (y :: xs) := by
  simp [separated, List.intercalate_cons_cons]

theorem separated_singleton
    (lead : List Char) (write : α → List Char) (x : α) :
    separated lead write [x] = lead ++ write x := by
  simp [separated]

/-- Whatever stands in front of the first item, a text of items with blanks behind it is one of the
grammar. -/
theorem listed_separated
    (hlead : IsGapText (Utf8.encode lead)) (hclose : IsGapText (Utf8.encode close))
    {x : α} {xs : List α}
    (hitem : ∀ y ∈ x :: xs, item y (Utf8.encode (write y)))
    {first : Bool} {front : List UInt8} (hfront : Lead first (front ++ Utf8.encode lead)) :
    Listed item first (x :: xs)
      (front ++ Utf8.encode (separated lead write (x :: xs) ++ close)) := by
  induction xs generalizing x first front with
  | nil =>
      have hx := hitem x (List.mem_cons_self ..)
      rw [separated_singleton, Utf8.encode_append, Utf8.encode_append, List.append_assoc,
        ← List.append_assoc]
      exact .more hfront hx (.done hclose)
  | cons y ys ih =>
      have hx := hitem x (List.mem_cons_self ..)
      have hlater : Lead false ([44] ++ Utf8.encode lead) := .later isGapText_nil hlead
      have hrest := ih (fun z hz => hitem z (List.mem_cons_of_mem _ hz)) hlater
      have hcomma : ∀ cs, Utf8.encode (',' :: cs) = 44 :: Utf8.encode cs := fun _ => rfl
      have htext : front ++ Utf8.encode (separated lead write (x :: y :: ys) ++ close) =
          (front ++ Utf8.encode lead) ++ (Utf8.encode (write x) ++
            ([44] ++ Utf8.encode (separated lead write (y :: ys) ++ close))) := by
        simp only [separated_cons_cons, List.append_assoc, List.cons_append, List.nil_append,
          Utf8.encode_append, hcomma]
      rw [htext]
      exact .more hfront hx hrest

end Lists

theorem spells_nil (n : Nat) : Spells (n + 1) (.array []) [91, 93] :=
  Or.inr (.array (.done isGapText_nil))

theorem spells_array
    {n : Nat} {lead close : List Char} {write : Value → List Char} {v : Value} {items : List Value}
    (hlead : IsGapText (Utf8.encode lead)) (hclose : IsGapText (Utf8.encode close))
    (hitems : ∀ w ∈ v :: items, Spells n w (Utf8.encode (write w))) :
    Spells (n + 1) (.array (v :: items))
      (Utf8.encode ('[' :: (separated lead write (v :: items) ++ close ++ [']']))) := by
  have hfront : Lead true ([] ++ Utf8.encode lead) := .first hlead
  have hlisted := listed_separated hlead hclose hitems hfront
  have hbracket : Utf8.encode [']'] = [93] := by decide
  have htext : Utf8.encode ('[' :: (separated lead write (v :: items) ++ close ++ [']'])) =
      91 :: (Utf8.encode (separated lead write (v :: items) ++ close) ++ [93]) := by
    rw [← hbracket, ← Utf8.encode_append]
    rfl
  rw [htext]
  exact Or.inr (.array hlisted)

/-- A member with the given blanks behind the colon. -/
def pairText (gap : List Char) (write : Value → List Char) (m : String × Value) : List Char :=
  stringText m.1 ++ ':' :: (gap ++ write m.2)

theorem spells_empty (n : Nat) : Spells (n + 1) (.object []) [123, 125] := by
  have hlisted : Listed (PairText (Spells n)) true [] [] := .done isGapText_nil
  exact Or.inr (.object hlisted)

/-- Members between braces, each behind the same blanks, are a text of the grammar. -/
theorem exists_listed_members
    {item : Value → List UInt8 → Prop} {lead gap close : List Char} {write : Value → List Char}
    {m : String × Value} {ms : Members}
    (hlead : IsGapText (Utf8.encode lead)) (hgap : IsGapText (Utf8.encode gap))
    (hclose : IsGapText (Utf8.encode close))
    (hvalues : ∀ p ∈ m :: ms, item p.2 (Utf8.encode (write p.2))) :
    ∃ text, Listed (PairText item) true (m :: ms) text ∧
      Utf8.encode ('\x7b' :: (separated lead (pairText gap write) (m :: ms) ++ close ++
        ['\x7d'])) = 123 :: (text ++ [125]) := by
  have hpairs : ∀ p ∈ m :: ms, PairText item p (Utf8.encode (pairText gap write p)) := by
    intro p hp
    have htext : Utf8.encode (pairText gap write p) =
        Utf8.encode (stringText p.1) ++
          ([] ++ 58 :: (Utf8.encode gap ++ Utf8.encode (write p.2))) := by
      rw [pairText, Utf8.encode_append, ← Utf8.encode_append gap]
      rfl
    rw [htext]
    exact .mk p.1 isGapText_nil hgap (hvalues p hp)
  have hfront : Lead true ([] ++ Utf8.encode lead) := .first hlead
  have hbrace : Utf8.encode ['\x7d'] = [125] := by decide
  refine ⟨_, listed_separated hlead hclose hpairs hfront, ?_⟩
  rw [List.nil_append, ← hbrace, ← Utf8.encode_append]
  rfl

theorem spells_object
    {n : Nat} {lead gap close : List Char} {write : Value → List Char} {m : String × Value}
    {ms : Members}
    (hlead : IsGapText (Utf8.encode lead)) (hgap : IsGapText (Utf8.encode gap))
    (hclose : IsGapText (Utf8.encode close)) (hsorted : Members.Sorted (m :: ms))
    (hvalues : ∀ p ∈ m :: ms, Spells n p.2 (Utf8.encode (write p.2))) :
    Spells (n + 1) (.object (m :: ms))
      (Utf8.encode ('\x7b' :: (separated lead (pairText gap write) (m :: ms) ++ close ++
        ['\x7d']))) := by
  obtain ⟨text, hlisted, htext⟩ := exists_listed_members hlead hgap hclose hvalues
  have hobject := ContainerText.object hlisted
  rw [Members.ofList_of_sorted hsorted] at hobject
  rw [htext]
  exact Or.inr hobject

/-!
## Compact text
-/

theorem compactItems_eq
    (items : List Value) :
    compactItems items = separated [] compact items := by
  induction items with
  | nil => rfl
  | cons v rest ih =>
      cases rest with
      | nil => rw [compactItems, separated_singleton, List.nil_append]
      | cons w rest => rw [compactItems, separated_cons_cons, ih, List.nil_append]

theorem compactMembers_eq
    (ms : Members) :
    compactMembers ms = separated [] (pairText [] compact) ms := by
  induction ms with
  | nil => rfl
  | cons m rest ih =>
      obtain ⟨k, v⟩ := m
      cases rest with
      | nil => rw [compactMembers, separated_singleton, pairText, List.nil_append, List.nil_append]
      | cons n rest =>
          rw [compactMembers, separated_cons_cons, ih]
          simp only [pairText, List.nil_append, List.append_assoc, List.cons_append]

theorem scalarText_compact
    {v : Value}
    (h : ScalarFloatFree v) :
    ScalarText v (Utf8.encode (compact v)) := by
  cases h with
  | null => exact .null
  | boolean b =>
      cases b with
      | true => exact .affirmed
      | false => exact .denied
  | @integer n hleast hgreatest =>
      have hliteral := ScalarText.integer _ (IntegerLiteral.isExact_ofInt hleast hgreatest)
      rwa [IntegerLiteral.value_ofInt, IntegerLiteral.bytes, IntegerLiteral.text_ofInt] at hliteral
  | string s => exact .string s

theorem spells_compact
    {n : Nat} {v : Value}
    (h : FloatFree n v) :
    Spells n v (Utf8.encode (compact v)) := by
  induction n generalizing v with
  | zero => exact scalarText_compact h
  | succ n ih =>
      rcases h with h | h
      · exact Or.inl (scalarText_compact h)
      · cases h with
        | @array items h =>
            cases items with
            | nil => exact spells_nil n
            | cons v rest =>
                have hblank : IsGapText (Utf8.encode []) := isGapText_nil
                have htext := spells_array hblank hblank fun w hw => ih (h w hw)
                rwa [List.append_nil, ← compactItems_eq] at htext
        | @object ms hsorted h =>
            cases ms with
            | nil => exact spells_empty n
            | cons m rest =>
                have hblank : IsGapText (Utf8.encode []) := isGapText_nil
                have htext := spells_object hblank hblank hblank hsorted fun p hp => ih (h p hp)
                rwa [List.append_nil, ← compactMembers_eq] at htext

/-!
## Indented text
-/

theorem prettyItems_eq
    (level : Nat) (items : List Value) :
    prettyItems level items = separated (newLine level) (prettyAt level) items := by
  induction items with
  | nil => rfl
  | cons v rest ih =>
      cases rest with
      | nil => rw [prettyItems, separated_singleton]
      | cons w rest => rw [prettyItems, separated_cons_cons, ih]

theorem prettyMembers_eq
    (level : Nat) (ms : Members) :
    prettyMembers level ms = separated (newLine level) (pairText [' '] (prettyAt level)) ms := by
  induction ms with
  | nil => rfl
  | cons m rest ih =>
      obtain ⟨k, v⟩ := m
      cases rest with
      | nil =>
          rw [prettyMembers, separated_singleton, pairText, List.append_assoc]
          rfl
      | cons n rest =>
          rw [prettyMembers, separated_cons_cons, ih]
          simp only [pairText, List.nil_append, List.append_assoc, List.cons_append]

theorem prettyAt_eq_compact
    {v : Value}
    (h : ScalarFloatFree v) (level : Nat) :
    prettyAt level v = compact v := by
  cases h with
  | boolean b => cases b <;> rfl
  | _ => rfl

theorem spells_prettyAt
    {n : Nat} {v : Value}
    (h : FloatFree n v) (level : Nat) :
    Spells n v (Utf8.encode (prettyAt level v)) := by
  induction n generalizing v level with
  | zero =>
      rw [prettyAt_eq_compact h]
      exact scalarText_compact h
  | succ n ih =>
      rcases h with h | h
      · rw [prettyAt_eq_compact h]
        exact Or.inl (scalarText_compact h)
      · cases h with
        | @array items h =>
            cases items with
            | nil => exact spells_nil n
            | cons v rest =>
                have htext := spells_array (isGapText_newLine (level + 1))
                  (isGapText_newLine level) fun w hw => ih (h w hw) (level + 1)
                rwa [← prettyItems_eq] at htext
        | @object ms hsorted h =>
            cases ms with
            | nil => exact spells_empty n
            | cons m rest =>
                have htext := spells_object (isGapText_newLine (level + 1)) isGapText_space
                  (isGapText_newLine level) hsorted fun p hp => ih (h p hp) (level + 1)
                rwa [← prettyMembers_eq] at htext

/-- The text of an object, indented or not, lists its members in their order. -/
theorem exists_listed_bytes
    {n : Nat} {ms : Members}
    (h : ∀ m ∈ ms, FloatFree n m.2) (indented : Bool) :
    ∃ text, Listed (PairText (Spells n)) true ms text ∧
      (Value.object ms).bytes indented = 123 :: (text ++ [125]) := by
  cases ms with
  | nil => exact ⟨[], .done isGapText_nil, by cases indented <;> rfl⟩
  | cons m rest =>
      cases indented with
      | false =>
          have hblank : IsGapText (Utf8.encode []) := isGapText_nil
          have htext := exists_listed_members hblank hblank hblank fun p hp =>
            spells_compact (h p hp)
          rwa [List.append_nil, ← compactMembers_eq] at htext
      | true =>
          have htext := exists_listed_members (isGapText_newLine 1) isGapText_space
            (isGapText_newLine 0) fun p hp => spells_prettyAt (h p hp) 1
          rwa [← prettyMembers_eq] at htext

/-- A value without fractions is read back from its text, indented or not. -/
theorem parse_bytes
    {v : Value}
    (h : FloatFree maxDepth v) (indented : Bool) :
    parse (v.bytes indented) = .ok v := by
  cases indented with
  | true => exact parse_of_spells (spells_prettyAt h 0)
  | false => exact parse_of_spells (spells_compact h)

end Json
end RpcGateway
