import RpcGateway.Proofs.Json.Printer
import RpcGateway.Schema.Text

/-!
# Reading records from the texts of objects

What a record is read as, straight from the text of an object, if it is known what its members are
read as.

**Members.**  `ReadAs` says of a value that every text of it is read as a datum.  It is proved for
texts, integers within bounds, values of any kind, and lists; both sides count levels of containers
in the same way, so the proofs do not depend on the number of levels.

**Records.**  The members of an object may stand in any order, but their keys must be distinct and
known to the schema (`readMembers_of_listed`).  A record takes one level more than its members.

**Result.**  `recordOfText_bytes`, for the two layouts in which an object is written.
-/

namespace RpcGateway
namespace Schema

open Json

variable {ρ : Type} {schema : Schema ρ} {name : ρ} {levels : Nat} {arity : Arity} {kind : Kind ρ}

/-- Every text of a value is read as a datum. -/
def ReadAs (schema : Schema ρ) (levels : Nat) (arity : Arity) (kind : Kind ρ) (v : Json.Value)
    (d : Datum) : Prop :=
  ∀ text, Spells levels v text → Takes (readAt schema levels arity kind) d text

/-!
## Single values
-/

/-- A single value is read by its kind; only the containers inside depend on the level. -/
theorem exists_readSingle
    (schema : Schema ρ) (levels : Nat) (kind : Kind ρ) :
    ∃ item?, ∀ c, readAt schema levels .single kind c =
      readSingle schema item? (value levels) kind c := by
  cases levels with
  | zero => exact ⟨none, fun c => rfl⟩
  | succ n => exact ⟨some (readAt schema n), fun c => rfl⟩

theorem readAs_text
    (schema : Schema ρ) (levels : Nat) (s : String) :
    ReadAs schema levels .single .text (.string s) (.text s) := by
  intro text h gap tail c hgap htail hc
  obtain ⟨item?, hread⟩ := exists_readSingle schema levels .text
  have hrest := h.starts.rest_skipGap hgap hc
  rw [h.eq_stringText] at hrest
  obtain ⟨hquote, after, hliteral, hafter⟩ := stringLiteral_stringText hrest
  exact ⟨after, by simp [hread, readSingle, readText, hquote, hliteral, Except.map], hafter⟩

theorem readAs_integer
    (schema : Schema ρ) (levels : Nat) (title : String) {least greatest n : Int}
    (hleast : least ≤ n) (hgreatest : n ≤ greatest) :
    ReadAs schema levels .single (.integer title least greatest) (.int n) (.whole n) := by
  intro text h gap tail c hgap htail hc
  obtain ⟨item?, hread⟩ := exists_readSingle schema levels (.integer title least greatest)
  have hrest := h.starts.rest_skipGap hgap hc
  obtain ⟨l, hexact, rfl, rfl⟩ := h.exists_literal
  obtain ⟨b, after, hpeek, hb, hnumber, hafter⟩ := hexact.number_eq htail hrest
  have hcondition : (decide (b = 45) || Cursor.isDigit b) = true := by simpa using hb
  have hbounds : integerOfNumber title least greatest (.integer l.value) = .ok l.value :=
    if_pos ⟨hleast, hgreatest⟩
  refine ⟨after, ?_, hafter⟩
  simp only [hread, readSingle, readInteger, hpeek, hcondition, if_true, hnumber, hbounds]
  rfl

theorem readAs_any
    (schema : Schema ρ) (levels : Nat) (v : Json.Value) :
    ReadAs schema levels .single .any v (.json v) := by
  intro text h gap tail c hgap htail hc
  obtain ⟨item?, hread⟩ := exists_readSingle schema levels .any
  have hrest := h.starts.rest_skipGap hgap hc
  obtain ⟨b, bs, rfl, -, -⟩ := h.starts
  obtain ⟨after, hvalue, hafter⟩ := h.takes isGapText_nil htail hrest
  have hpeek := Cursor.peek?_of_rest hrest
  exact ⟨after, by simp [hread, readSingle, hpeek, hvalue, Except.map], hafter⟩

/-!
## Lists
-/

theorem readAs_list
    {items : List Json.Value} {ds : List Datum}
    (h : List.Forall₂ (ReadAs schema levels .single kind) items ds) :
    ReadAs schema (levels + 1) .list kind (.array items) (.list ds) := by
  intro text htext gap tail c hgap htail hc
  have hrest := htext.starts.rest_skipGap hgap hc
  obtain ⟨inner, rfl, hlisted⟩ := htext.exists_listed
  have htexts : Listed
      (fun d text => Starts text ∧ Takes (readAt schema levels .single kind) d text)
      true ds inner :=
    hlisted.of_forall₂ (h.imp fun v d hread text hv => ⟨hv.starts, hread text hv⟩)
  rw [List.cons_append, List.append_assoc, List.singleton_append] at hrest
  obtain ⟨after, helements, hafter⟩ := elements_of_bracketed (fun _ _ hd => hd) htexts hrest
  refine ⟨after.advance, ?_, hafter⟩
  simp [readAt, readWith, Cursor.peek?_of_rest hrest, helements]

/-!
## Records
-/

/-- A member whose key the schema knows is read into a slot. -/
structure MemberReadAs (schema : Schema ρ) (name : ρ) (levels : Nat) (m : String × Json.Value)
    (slot : String × Datum) : Prop where
  key : slot.1 = m.1
  known : ∃ f, member? schema name m.1 = some f ∧ ReadAs schema levels f.arity f.kind m.2 slot.2

/-- Members with distinct keys are read one after another, if the fuel lasts. -/
theorem readMembers_of_listed
    {ms : List (String × Json.Value)} {slots read : Slots} {first : Bool} {text tail : List UInt8}
    {c : Cursor}
    (h : Listed (PairText (Spells levels)) first ms text)
    (hread : List.Forall₂ (MemberReadAs schema name levels) ms read)
    (hnodup : ((slots ++ read).map Prod.fst).Nodup) {fuel : Nat} (hfuel : ms.length < fuel)
    (hc : c.rest = text ++ 125 :: tail) :
    ∃ after, readMembers schema name (readAt schema levels) fuel first slots c =
        .ok (slots ++ read, after) ∧ after.rest = 125 :: tail := by
  induction h generalizing fuel c slots read with
  | @done first gap hgap =>
      cases hread
      obtain ⟨n, rfl⟩ : ∃ n, fuel = n + 1 := ⟨fuel - 1, by omega⟩
      obtain ⟨after, hnext, hafter⟩ := nextKey_of_close hgap first hc
      exact ⟨after, by simp [readMembers, hnext], hafter⟩
  | @more first lead text rest m ms hlead hm hrest ih =>
      obtain ⟨n, rfl⟩ : ∃ n, fuel = n + 1 := ⟨fuel - 1, by omega⟩
      cases hread with
      | @cons _ slot _ read hslot hread =>
          obtain ⟨key, d⟩ := slot
          obtain ⟨rfl, f, hknown, hvalue⟩ := hslot
          rw [List.append_assoc, List.append_assoc] at hc
          obtain ⟨c₁, c₂, c₃, gap, inner, hnext, hkey, hcolon, hv, hgap, hc₃⟩ :=
            exists_value_of_member hlead hm hc
          have hends := hrest.endsNumber (.inr rfl) tail
          obtain ⟨c₄, htaken, hc₄⟩ := hvalue inner hv hgap hends hc₃
          -- a key that was read before would be refused
          have hnew : slots.get? m.1 = none := by
            rw [List.map_append, List.map_cons, List.nodup_append] at hnodup
            refine List.lookup_eq_none_iff.mpr fun p hp => ?_
            have hne := hnodup.2.2 p.1 (List.mem_map_of_mem hp) m.1 (List.mem_cons_self ..)
            simpa using Ne.symm hne
          rw [List.append_cons] at hnodup ⊢
          obtain ⟨after, hmembers, hafter⟩ := ih hread hnodup (Nat.lt_of_succ_lt_succ hfuel) hc₄
          refine ⟨after, ?_, hafter⟩
          simp [readMembers, hnext, hkey, hknown, hnew, hcolon, Except.bind, htaken, hmembers]

/-- A record takes one level more than its members. -/
theorem takes_record
    {ms : List (String × Json.Value)} {slots : Slots} {ds : List Datum} {text : List UInt8}
    (h : Listed (PairText (Spells levels)) true ms text)
    (hread : List.Forall₂ (MemberReadAs schema name levels) ms slots)
    (hnodup : (slots.map Prod.fst).Nodup)
    (hcomplete : complete slots (schema.members name) = .ok ds) :
    Takes (readAt schema (levels + 1) .single (.record name)) (.record ds)
      (123 :: (text ++ [125])) := by
  intro gap tail c hgap htail hc
  have hrest : c.skipGap.rest = 123 :: (text ++ 125 :: tail) := by
    refine Cursor.rest_skipGap hgap (by decide) ?_
    simpa using hc
  have hfuel : ms.length < c.skipGap.advance.rest.length + 1 := by
    have hle := h.length_le fun _ _ hm => hm.ne_nil
    rw [Cursor.rest_advance hrest, List.length_append]
    omega
  have hall : (([] ++ slots : Slots).map Prod.fst).Nodup := hnodup
  obtain ⟨after, hmembers, hafter⟩ :=
    readMembers_of_listed h hread hall hfuel (Cursor.rest_advance hrest)
  have hbrace : Cursor.isGap 125 = false := by decide
  have hclose := Cursor.rest_skipGap isGapText_nil hbrace hafter
  refine ⟨after.skipGap.advance, ?_, Cursor.rest_advance hclose⟩
  simp [readAt, readWith, readSingle, readRecordObject, Cursor.peek?_of_rest hrest, hmembers,
    hcomplete, closeObject, Cursor.peek?_of_rest hclose]

theorem recordOfText_of_takes
    {text : List UInt8} {ds : List Datum}
    (h : Takes (readAt schema maxDepth .single (.record name)) (.record ds) text) :
    recordOfText schema name text = .ok ds := by
  rw [recordOfText, parseWith_of_takes h]

/-- A record is read from the text of an object, in either layout, if its members are read one by
one and none is missing. -/
theorem recordOfText_bytes
    {ms : Json.Members} {slots : Slots} {ds : List Datum}
    (hfree : ∀ m ∈ ms, FloatFree 126 m.2)
    (hread : List.Forall₂ (MemberReadAs schema name 126) ms slots)
    (hnodup : (slots.map Prod.fst).Nodup)
    (hcomplete : complete slots (schema.members name) = .ok ds)
    (indented : Bool) :
    recordOfText schema name ((Json.Value.object ms).bytes indented) = .ok ds := by
  obtain ⟨text, hlisted, hbytes⟩ := exists_listed_bytes hfree indented
  rw [hbytes]
  exact recordOfText_of_takes (takes_record hlisted hread hnodup hcomplete)

end Schema
end RpcGateway
