import RpcGateway.Proofs.Json.Printer
import RpcGateway.Proofs.Message.Decoding
import RpcGateway.Proofs.Schema.Int64

/-!
# Messages are read back from their JSON text

A well-formed message that does not refuse to be written is written as a value tree, and read from
it, as it was; the tree is read from its text as it was.

**Induction.**  On the levels of messages inside messages.  One level of messages makes two levels
of containers: the members of the message, and a list that one of them may hold.

**Members.**  Members are written in the order of the fields, stand in the order of their keys, and
are read in that order.  What is read of a member depends on its key only, so the order does not
matter (`ofValue_object_eq_ok_iff`).

**Result.**  `decode_encode`, for the messages of services in either layout.
-/

namespace RpcGateway

open Schema

namespace MessageType

/-- A value that a datum of a kind is written as, and that is read as that datum; it has so many
levels of containers at most. -/
structure Written (levels : Nat) (kind : Kind MessageType) (d : Datum) (v : Json.Value) : Prop where
  written : Message.datumJson Json.Members.ofList kind d = .ok v
  floatFree : Json.FloatFree levels v
  /-- A list is read otherwise. -/
  read : ∀ arity, arity ≠ .list → ofValue schema arity kind v = .ok d

/-- Whether the integers of a kind have 64 bits at most. -/
def isNarrow : Kind MessageType → Bool
  | .integer _ least greatest =>
      decide (Decimal.minInt64 ≤ least) && decide (greatest ≤ Decimal.maxUInt64)
  | _ => true

variable {inner : MessageType → List Datum → Prop} {kind : Kind MessageType} {arity : Arity}
  {d : Datum} {levels : Nat} {t : MessageType}

theorem isNarrow_of_mem
    {f : MessageField}
    (hf : f ∈ t.fields) :
    isNarrow f.kind = true := by
  have hall : ∀ f ∈ t.fields, isNarrow f.kind = true := by cases t <;> decide
  exact hall f hf

/-- No message that refuses to be written is inside another. -/
theorem ne_picky_of_mem
    {f : MessageField} {u : MessageType}
    (hf : f ∈ t.fields) (hkind : f.kind = .record u) :
    u ≠ .picky := by
  have hall : ∀ f ∈ t.fields, f.kind ≠ .record .picky := by cases t <;> decide
  rintro rfl
  exact hall f hf hkind

/-!
## Fields
-/

theorem exists_written_of_isOf
    (h : d.IsOf inner kind) (hnarrow : isNarrow kind = true)
    (hinner : ∀ t ds, kind = .record t → inner t ds →
      ∃ v, Written levels (.record t) (.record ds) v) :
    ∃ v, Written levels kind d v := by
  cases h with
  | text s =>
      refine ⟨.string s, rfl, .of_scalar (.string s) levels, fun arity harity => ?_⟩
      cases arity <;> simp_all [ofValue, scalarOfValue]
  | flag b =>
      refine ⟨.boolean b, rfl, .of_scalar (.boolean b) levels, fun arity harity => ?_⟩
      cases arity <;> simp_all [ofValue, scalarOfValue]
  | @integer title least greatest n hleast hgreatest =>
      obtain ⟨hlow, hhigh⟩ : Decimal.minInt64 ≤ least ∧ greatest ≤ Decimal.maxUInt64 := by
        simpa [isNarrow] using hnarrow
      have hscalar : Json.ScalarFloatFree (.int n) :=
        .integer (hlow.trans hleast) (hgreatest.trans hhigh)
      refine ⟨.int n, rfl, .of_scalar hscalar levels, fun arity harity => ?_⟩
      cases arity <;>
        simp_all [ofValue, scalarOfValue, Json.Value.int, integerOfNumber, Except.map]
  | @int64 n hleast hgreatest =>
      have hread : int64OfText (Decimal.text n) = .ok n := by
        refine int64OfText_eq_ok_iff.mpr ⟨?_, hleast, hgreatest⟩
        rw [Decimal.text, String.toList_ofList]
        exact Decimal.denotes_ofInt n
      refine ⟨.string (Decimal.text n), rfl, .of_scalar (.string _) levels, fun arity harity => ?_⟩
      cases arity <;> simp_all [ofValue, scalarOfValue, Except.map]
  | record h => exact hinner _ _ rfl h

theorem exists_written_of_items
    {items : List Datum}
    (h : ∀ d ∈ items, ∃ v, Written levels kind d v) :
    ∃ vs, Message.itemsJson Json.Members.ofList kind items = .ok vs ∧
      (∀ v ∈ vs, Json.FloatFree levels v) ∧ ofItems schema kind vs = .ok items := by
  induction items with
  | nil => exact ⟨[], rfl, by simp, by rw [ofItems]⟩
  | cons d items ih =>
      obtain ⟨hd, hitems⟩ := List.forall_mem_cons.mp h
      obtain ⟨v, hwritten, hfree, hread⟩ := hd
      obtain ⟨vs, hvs, hvsfree, hvsread⟩ := ih hitems
      refine ⟨v :: vs, ?_, List.forall_mem_cons.mpr ⟨hfree, hvsfree⟩, ?_⟩
      · simp [Message.itemsJson, hwritten, hvs, Except.map]
      · simp [ofItems, hread .single (by simp), hvsread, Except.map]

/-- What a field holds is written, with one more level for a list, and read back. -/
theorem exists_value_of_held
    (h : d.Held inner arity kind) (hnarrow : isNarrow kind = true)
    (hinner : ∀ t ds, kind = .record t → inner t ds →
      ∃ v, Written levels (.record t) (.record ds) v) :
    ∃ v, Message.datumJson Json.Members.ofList kind d = .ok v ∧
      Json.FloatFree (levels + 1) v ∧ ofValue schema arity kind v = .ok d := by
  cases h with
  | single h =>
      obtain ⟨v, hwritten, hfree, hread⟩ := exists_written_of_isOf h hnarrow hinner
      exact ⟨v, hwritten, hfree.mono (Nat.le_succ _), hread .single (by simp)⟩
  | absent =>
      refine ⟨.null, rfl, .of_scalar .null _, ?_⟩
      simp [ofValue]
  | present h =>
      obtain ⟨v, hwritten, hfree, hread⟩ := exists_written_of_isOf h hnarrow hinner
      exact ⟨v, hwritten, hfree.mono (Nat.le_succ _), hread .optional (by simp)⟩
  | list h =>
      obtain ⟨vs, hwritten, hfree, hread⟩ :=
        exists_written_of_items fun d hd => exists_written_of_isOf (h d hd) hnarrow hinner
      refine ⟨.array vs, ?_, Or.inr (.array hfree), ?_⟩
      · simp [Message.datumJson, hwritten, Except.map]
      · simp [ofValue, hread, Except.map]

/-!
## Members
-/

/-- A member is the value of a field that is read as a datum. -/
def MemberRead (f : MessageField) (d : Datum) (m : String × Json.Value) : Prop :=
  m.1 = f.key ∧ ofValue schema f.arity f.kind m.2 = .ok d

/-- The fields of a message are written as members, one for each field. -/
theorem exists_members_of_held
    {fs : List MessageField} {ds : List Datum}
    (h : List.Forall₂ (fun f d => Datum.Held inner f.arity f.kind d) fs ds)
    (hnarrow : ∀ f ∈ fs, isNarrow f.kind = true)
    (hinner : ∀ f ∈ fs, ∀ t ds, f.kind = .record t → inner t ds →
      ∃ v, Written levels (.record t) (.record ds) v) :
    ∃ ms, Message.fieldsJson Json.Members.ofList fs ds = .ok ms ∧
      ms.map Prod.fst = fs.map (·.key) ∧
      (∀ m ∈ ms, Json.FloatFree (levels + 1) m.2) ∧
      List.Forall₂ (fun f d => ∃ m ∈ ms, MemberRead f d m) fs ds := by
  induction h with
  | nil => exact ⟨[], rfl, rfl, by simp, .nil⟩
  | @cons f d fs ds hheld hrest ih =>
      obtain ⟨hfirst, hlater⟩ := List.forall_mem_cons.mp hnarrow
      obtain ⟨hfirst', hlater'⟩ := List.forall_mem_cons.mp hinner
      obtain ⟨v, hwritten, hfree, hread⟩ := exists_value_of_held hheld hfirst hfirst'
      obtain ⟨ms, hms, hkeys, hmsfree, hmembers⟩ := ih hlater hlater'
      refine ⟨(f.key, v) :: ms, ?_, ?_, ?_, ?_⟩
      · simp [Message.fieldsJson, hwritten, hms, Except.map]
      · rw [List.map_cons, List.map_cons, hkeys]
      · exact List.forall_mem_cons.mpr ⟨hfree, hmsfree⟩
      · refine .cons ⟨_, List.mem_cons_self .., rfl, hread⟩ (hmembers.imp ?_)
        rintro g e ⟨m, hm, hread⟩
        exact ⟨m, List.mem_cons_of_mem _ hm, hread⟩

/-!
## Messages
-/

/-- A message that has the data of its fields is written as an object and read back. -/
theorem exists_written_of_fits
    {ds : List Datum}
    (h : t.Fits levels ds) (hpicky : t ≠ .picky) :
    ∃ v, Written (2 * levels) (.record t) (.record ds) v := by
  induction levels generalizing t ds with
  | zero => cases h
  | succ levels ih =>
      have hfields : List.Forall₂ (fun f d => Datum.Held (Fits levels) f.arity f.kind d)
          t.fields ds := h
      obtain ⟨ms, hwritten, hkeys, hfree, hread⟩ :=
        exists_members_of_held hfields (fun f hf => isNarrow_of_mem hf)
          fun f hf u es hkind hinside => ih hinside (ne_picky_of_mem hf hkind)
      have hperm := Json.Members.ofList_perm (hkeys ▸ t.keys_nodup)
      have hsorted := Json.Members.sorted_ofList ms
      -- every member is found under its own key, in whatever order they stand
      have hfilled : List.Forall₂ (Filled schema (Json.Members.ofList ms))
          (schema.members t) ds := by
        refine List.forall₂_map_left_iff.mpr (hread.imp ?_)
        rintro f d ⟨m, hm, hkey, hvalue⟩
        have hget := Json.Members.get?_of_mem hsorted.nodup (hperm.mem_iff.mpr hm)
        rw [hkey] at hget
        rw [Filled, hget]
        exact hvalue
      have hrefusal : Message.refusal? t ds = none := by
        unfold Message.refusal?
        split
        · exact absurd rfl hpicky
        · rfl
      refine ⟨.object (Json.Members.ofList ms), ?_, ?_, ?_⟩
      · simp [Message.datumJson, hrefusal, hwritten, Except.map]
      · refine Or.inr (.object hsorted fun m hm => ?_)
        exact hfree m (hperm.mem_iff.mp hm)
      · intro arity harity
        exact (ofValue_object_eq_ok_iff t.memberKeys_nodup hsorted.nodup harity).mpr hfilled

end MessageType

namespace Message

variable {m : Message}

theorem exists_object_of_toJson
    {v : Json.Value}
    (h : m.toJson = .ok v) :
    ∃ ms, v = .object ms := by
  simp only [toJson, datumJson] at h
  split at h
  · cases h
  · obtain ⟨ms, -, rfl⟩ := exists_of_map_eq_ok h
    exact ⟨_, rfl⟩

/-- A message of a service is written as a value tree and read from it. -/
theorem exists_value_of_isService
    (hservice : m.type.isService = true) (h : m.WellFormed) :
    ∃ v, m.toJson = .ok v ∧ Json.FloatFree Json.maxDepth v ∧ ofValue m.type v = .ok m := by
  obtain ⟨levels, hfits⟩ := h
  have hpicky : m.type ≠ .picky := by
    intro htype
    rw [htype] at hservice
    cases hservice
  obtain ⟨v, hwritten, hfree, hread⟩ :=
    MessageType.exists_written_of_fits (MessageType.fits_two_of_isService hservice hfits) hpicky
  refine ⟨v, hwritten, hfree.mono (by decide), ?_⟩
  simp [ofValue, recordOfValue_eq_ok_iff.mpr (hread .single (by simp)), Except.map]

end Message

namespace Codec

/-- The text of an object begins with a brace, so it is not blank. -/
theorem isBlank_object
    (ms : Json.Members) (indented : Bool) :
    isBlank ((Json.Value.object ms).bytes indented) = false := by
  have hbrace : ∃ bs, (Json.Value.object ms).bytes indented = 123 :: bs := by
    cases indented with
    | false => exact ⟨_, rfl⟩
    | true =>
        cases ms with
        | nil => exact ⟨_, rfl⟩
        | cons m ms => exact ⟨_, rfl⟩
  obtain ⟨bs, hbs⟩ := hbrace
  have hfirst : Ascii.isBlankByte 123 = false := by decide
  simp [isBlank, hbs, hfirst]

/-- **Messages in JSON.**  A message of a service is written in either layout, and what is written
is read back as that message by the codec of either layout. -/
theorem decode_encode
    {m : Message}
    (hservice : m.type.isService = true) (h : m.WellFormed) (indented other : Bool) :
    ∃ body, (json indented).encodeMessage m = .ok body ∧
      (json other).decodeMessage m.type body [] = .ok m := by
  obtain ⟨v, hwritten, hfree, hread⟩ := m.exists_value_of_isService hservice h
  obtain ⟨ms, rfl⟩ := Message.exists_object_of_toJson hwritten
  refine ⟨(Json.Value.object ms).bytes indented, by simp [encodeMessage, hwritten, json], ?_⟩
  have hbody : (json other).decodeBody ((Json.Value.object ms).bytes indented) =
      .ok (.object ms) := by
    simp [decodeBody, isBlank_object, json, decodeJson, Json.parse_bytes hfree]
  have hbound : PathBinding.bindAll (.object ms) [] = .ok (.object ms) := by
    simp [PathBinding.bindAll, PathBinding.sorted, pure, Except.pure]
  simp [decodeMessage, isBlank_object, hbody, hbound, hread, bind, Except.bind]

/-- An event of a message that `decode_encode` speaks of: the least number, and a text that needs
every kind of escape. -/
def awkwardEvent : List Datum :=
  [.whole Decimal.minInt64, .text "\"\\/\u0000\u001f\n\t\u007f\u2028", .text "ü𝄞", .text "",
    .text "null", .whole (-2147483648)]

theorem decode_encode_awkwardEvent :
    ∃ body,
      (json true).encodeMessage ⟨.getEventsResponse, [.list [.record awkwardEvent], .text ""]⟩ =
        .ok body ∧
      (json false).decodeMessage .getEventsResponse body [] =
        .ok ⟨.getEventsResponse, [.list [.record awkwardEvent], .text ""]⟩ := by
  have hevent : MessageType.Fits 1 .event awkwardEvent :=
    .cons (.single (.int64 (by decide) (by decide))) <| .cons (.single (.text _)) <|
      .cons (.single (.text _)) <| .cons (.single (.text _)) <| .cons (.single (.text _)) <|
        .cons (.single (.integer (by decide) (by decide))) .nil
  refine decode_encode (m := ⟨.getEventsResponse, _⟩) rfl ⟨2, ?_⟩ true false
  refine .cons (.list fun d hd => ?_) (.cons (.single (.text _)) .nil)
  obtain rfl := List.mem_singleton.mp hd
  exact .record hevent

end Codec
end RpcGateway
