import RpcGateway.Proofs.Codec.PathTree
import RpcGateway.Proofs.Message.Decoding
import RpcGateway.Proofs.Schema.Object

/-!
# Bodies with no content

A body with no content is to mean the message that nothing was said about, with the parameters of
the path in it.  Without parameters that message is built as it is; with parameters it is read from
the tree of the parameters, and what the tree does not say is filled in by the schema.

**Families.**  A `Family` is a schema with the data of every type when nothing was said about it.
How the schema fills in a missing member, if it does, is up to the type, and need not be what the
member holds when nothing was said.

**Induction.**  On the parameters, by what is behind each of their first keys: the tree, the data
with the strings in them, and the members that are filled in all go by the first key.

**Result.**  `decodeMessage_of_blank_iff`: the two agree exactly if every record that a parameter
leads into fills in what no parameter leads to with what was there (`Fills`).
-/

namespace RpcGateway

open Schema PathBinding

/-- How messages are read, and what they are when nothing was said about them. -/
structure Family (ρ : Type) extends Schema ρ where
  /-- The data of a message that nothing was said about. -/
  zero : ρ → List Datum
  keys_nodup : ∀ name, ((members name).map (·.key)).Nodup

namespace Schema

variable {ρ : Type}

/-- A path of keys that leads from a kind to a text, through members that hold one value. -/
inductive Addresses (schema : Schema ρ) : Kind ρ → List String → Prop
  | text : Addresses schema .text []
  | inside {name : ρ} {key : String} {m : Member ρ} {rest : List String}
      (hm : member? schema name key = some m) (harity : m.arity ≠ .list)
      (h : Addresses schema m.kind rest) :
      Addresses schema (.record name) (key :: rest)

theorem Addresses.eq_nil
    {schema : Schema ρ} {path : List String}
    (h : Addresses schema .text path) :
    path = [] := by
  cases h
  rfl

theorem Addresses.ne_nil
    {schema : Schema ρ} {name : ρ} {path : List String}
    (h : Addresses schema (.record name) path) :
    path ≠ [] := by
  cases h
  exact List.cons_ne_nil _ _

/-- Behind a key the paths go on from the member of that key. -/
theorem exists_member_of_behind
    {schema : Schema ρ} {name : ρ} {key : String} {ws : Writes}
    (h : ∀ w ∈ ws, Addresses schema (.record name) w.1) (hsome : behind key ws ≠ []) :
    ∃ m, member? schema name key = some m ∧ m.arity ≠ .list ∧
      ∀ w ∈ behind key ws, Addresses schema m.kind w.1 := by
  obtain ⟨⟨path, s⟩, hmem⟩ := List.exists_mem_of_ne_nil _ hsome
  cases h _ (mem_behind_iff.mp hmem) with
  | inside hm harity _ =>
      refine ⟨_, hm, harity, fun ⟨other, s'⟩ hother => ?_⟩
      cases h _ (mem_behind_iff.mp hother) with
      | inside hm' _ hother =>
          rw [hm] at hm'
          cases hm'
          exact hother

/-- Changes each datum of a record by its member. -/
def each (f : Member ρ → Datum → Datum) : List (Member ρ) → List Datum → List Datum
  | m :: ms, d :: ds => f m d :: each f ms ds
  | _, ds => ds

theorem each_each
    (f g : Member ρ → Datum → Datum) (ms : List (Member ρ)) (ds : List Datum) :
    each f ms (each g ms ds) = each (fun m d => f m (g m d)) ms ds := by
  induction ms generalizing ds with
  | nil => simp [each]
  | cons m ms ih => cases ds <;> simp [each, ih]

theorem forall₂_each_iff
    {f : Member ρ → Datum → Datum} {R : Member ρ → Datum → Prop}
    {ms : List (Member ρ)} {ds : List Datum} :
    List.Forall₂ R ms (each f ms ds) ↔ List.Forall₂ (fun m d => R m (f m d)) ms ds := by
  induction ms generalizing ds with
  | nil => simp [each]
  | cons m ms ih => cases ds <;> simp [each, ih]

end Schema

namespace Family

variable {ρ : Type} {family : Family ρ} {name : ρ} {kind : Kind ρ} {d : Datum} {ws : Writes}

/-- The data of a record; where there is none, those of the record that nothing was said about. -/
def below (family : Family ρ) (name : ρ) : Datum → List Datum
  | .record ds => ds
  | _ => family.zero name

/-- Puts a string at the end of a path of keys. -/
def write (family : Family ρ) (s : String) : List String → Kind ρ → Datum → Datum
  | [], _, _ => .text s
  | key :: rest, .record name, d =>
      .record (each (fun m e => if m.key = key then family.write s rest m.kind e else e)
        (family.members name) (family.below name d))
  | _ :: _, _, d => d

/-- Puts strings in one after another. -/
def writeAll (family : Family ρ) (ws : Writes) (kind : Kind ρ) (d : Datum) : Datum :=
  ws.foldl (fun d w => family.write w.2 w.1 kind d) d

/-- The message that nothing was said about, with the parameters in it. -/
def bound (family : Family ρ) (name : ρ) (params : PathParams) : List Datum :=
  family.below name
    (family.writeAll (writes params) (.record name) (.record (family.zero name)))

/-- Every record that the paths lead into fills in what no path leads to with what was there. -/
inductive Fills (family : Family ρ) : Kind ρ → Datum → Writes → Prop
  | text {d : Datum} {ws : Writes} : Fills family .text d ws
  | record {name : ρ} {d : Datum} {ws : Writes}
      (hlength : (family.members name).length = (family.below name d).length)
      (hmissing : ∀ m e, (m, e) ∈ (family.members name).zip (family.below name d) →
        behind m.key ws = [] → m.absence = some e)
      (hinside : ∀ m e, (m, e) ∈ (family.members name).zip (family.below name d) →
        behind m.key ws ≠ [] → Fills family m.kind e (behind m.key ws)) :
      Fills family (.record name) d ws

/-- Builds the data of a message from a body and the path parameters. -/
def decode (family : Family ρ) (codec : Codec) (name : ρ) (body : List UInt8)
    (params : PathParams) : Except CodecFault (List Datum) :=
  if Codec.isBlank body && params.isEmpty then .ok (family.zero name)
  else do
    let v ← codec.decodeBody body
    let v ← bindAll v params
    match recordOfValue family.toSchema name v with
    | .ok ds => .ok ds
    | .error reason => .error (.shape reason)

/-!
## The data with the strings in them
-/

theorem writeAll_cons
    (family : Family ρ) (path : List String) (s : String) (ws : Writes) (kind : Kind ρ)
    (d : Datum) :
    family.writeAll ((path, s) :: ws) kind d =
      family.writeAll ws kind (family.write s path kind d) :=
  rfl

/-- Every datum of a record gets the strings that are behind the key of its member. -/
theorem writeAll_record
    (hne : ws ≠ []) (hpaths : ∀ w ∈ ws, w.1 ≠ []) :
    family.writeAll ws (.record name) d =
      .record (each (fun m e => family.writeAll (behind m.key ws) m.kind e)
        (family.members name) (family.below name d)) := by
  induction ws generalizing d with
  | nil => exact absurd rfl hne
  | cons w ws ih =>
      obtain ⟨hpath, hrest⟩ := List.forall_mem_cons.mp hpaths
      obtain ⟨path, s⟩ := w
      cases path with
      | nil => exact absurd rfl hpath
      | cons key rest =>
          have hfirst : ∀ (m : Member ρ) e,
              family.writeAll (behind m.key ((key :: rest, s) :: ws)) m.kind e =
                family.writeAll (behind m.key ws) m.kind
                  (if m.key = key then family.write s rest m.kind e else e) := by
            intro m e
            by_cases hkey : m.key = key
            · subst hkey
              rw [behind_cons_self, writeAll_cons, if_pos rfl]
            · rw [behind_cons_of_ne (Ne.symm hkey), if_neg hkey]
          simp only [hfirst]
          rw [writeAll_cons, write]
          by_cases hws : ws = []
          · subst hws
            rfl
          · rw [ih hws hrest, below, each_each]

/-- Of strings at the same place the last one stays, in the tree and in the data. -/
theorem exists_last_of_paths_nil
    (family : Family ρ) (hne : ws ≠ []) (hpaths : ∀ w ∈ ws, w.1 = []) :
    ∃ s, (∀ v, grow ws v = some (.string s)) ∧
      ∀ (kind : Kind ρ) d, family.writeAll ws kind d = .text s := by
  induction ws with
  | nil => exact absurd rfl hne
  | cons w ws ih =>
      obtain ⟨hpath, hrest⟩ := List.forall_mem_cons.mp hpaths
      obtain ⟨path, s⟩ := w
      obtain rfl : path = [] := hpath
      by_cases hws : ws = []
      · subst hws
        refine ⟨s, fun v => ?_, fun kind d => ?_⟩
        · exact grow_cons_eq_some_iff.mpr ⟨_, rfl, rfl⟩
        · rw [writeAll_cons, write]
          rfl
      · obtain ⟨last, hgrow, hwrite⟩ := ih hws hrest
        refine ⟨last, fun v => ?_, fun kind d => ?_⟩
        · exact grow_cons_eq_some_iff.mpr ⟨_, rfl, hgrow _⟩
        · rw [writeAll_cons, hwrite]

/-!
## Reading the tree
-/

theorem fills_record_iff :
    family.Fills (.record name) d ws ↔
      List.Forall₂ (fun m e => if behind m.key ws = [] then m.absence = some e
        else family.Fills m.kind e (behind m.key ws))
        (family.members name) (family.below name d) := by
  rw [List.forall₂_iff_zip]
  constructor
  · intro h
    cases h with
    | record hlength hmissing hinside =>
        refine ⟨hlength, fun {m e} hme => ?_⟩
        split
        next hnone => exact hmissing m e hme hnone
        next hsome => exact hinside m e hme hsome
  · rintro ⟨hlength, hall⟩
    refine .record hlength (fun m e hme hnone => ?_) fun m e hme hsome => ?_
    · have h := hall hme
      rwa [if_pos hnone] at h
    · have h := hall hme
      rwa [if_neg hsome] at h

/-- The tree of the strings is read as the data with the strings in them, exactly if what is missing
is filled in with what was there. -/
def Settles (family : Family ρ) (kind : Kind ρ) (ws : Writes) (v : Json.Value) : Prop :=
  ∀ arity, arity ≠ .list → ∀ d,
    ofValue family.toSchema arity kind v = .ok (family.writeAll ws kind d) ↔
      family.Fills kind d ws

theorem exists_settles_text
    (family : Family ρ) (hne : ws ≠ []) (haddresses : ∀ w ∈ ws, family.Addresses .text w.1) :
    ∃ v, grow ws (.object []) = some v ∧ family.Settles .text ws v := by
  have hpaths : ∀ w ∈ ws, w.1 = [] := fun w hw => (haddresses w hw).eq_nil
  obtain ⟨s, hgrow, hwrite⟩ := exists_last_of_paths_nil family hne hpaths
  refine ⟨.string s, hgrow _, fun arity harity d => ?_⟩
  rw [hwrite]
  refine ⟨fun _ => .text, fun _ => ?_⟩
  cases arity with
  | list => exact absurd rfl harity
  | single => simp [ofValue, scalarOfValue]
  | optional => simp [ofValue, scalarOfValue]

/-- A record settles if every member that paths lead to does so with what is behind its key. -/
theorem exists_settles_record
    (hne : ws ≠ []) (haddresses : ∀ w ∈ ws, family.Addresses (.record name) w.1)
    (hbehind : ∀ key, behind key ws ≠ [] → ∀ kind : Kind ρ,
      (∀ w ∈ behind key ws, family.Addresses kind w.1) →
        ∃ v, grow (behind key ws) (.object []) = some v ∧ family.Settles kind (behind key ws) v) :
    ∃ v, grow ws (.object []) = some v ∧ family.Settles (.record name) ws v := by
  have hpaths : ∀ w ∈ ws, w.1 ≠ [] := fun w hw => (haddresses w hw).ne_nil
  have hchildren : ∀ key, ∃ v, grow (behind key ws) (.object []) = some v ∧
      (behind key ws ≠ [] → ∀ m, member? family.toSchema name key = some m →
        m.arity ≠ .list ∧ family.Settles m.kind (behind key ws) v) := by
    intro key
    by_cases hnone : behind key ws = []
    · rw [hnone]
      exact ⟨_, rfl, fun h => absurd rfl h⟩
    · obtain ⟨m, hm, harity, hinside⟩ := exists_member_of_behind haddresses hnone
      obtain ⟨v, hv, hsettles⟩ := hbehind key hnone m.kind hinside
      refine ⟨v, hv, fun _ m' hm' => ?_⟩
      obtain rfl := Option.some.inj (hm.symm.trans hm')
      exact ⟨harity, hsettles⟩
  choose inner hinner hsettles using hchildren
  obtain ⟨ms, hgrow, hsorted, hget⟩ := exists_grow_object [] hpaths hinner
  refine ⟨.object ms, hgrow, fun arity harity d => ?_⟩
  rw [writeAll_record hne hpaths, fills_record_iff,
    ofValue_object_eq_ok_iff (family.keys_nodup name) (hsorted .nil).nodup harity,
    forall₂_each_iff]
  refine forall₂_congr_of_mem fun m hm e => ?_
  unfold Filled
  rw [hget m.key]
  by_cases hnone : behind m.key ws = []
  · rw [if_pos hnone, if_pos hnone, hnone]
    rfl
  · rw [if_neg hnone, if_neg hnone]
    obtain ⟨hsingle, hread⟩ :=
      hsettles m.key hnone m (member?_of_mem (family.keys_nodup name) hm)
    exact hread m.arity hsingle e

/-- The tree of strings at texts can be built, and it settles. -/
theorem exists_settles
    (family : Family ρ) (ws : Writes) :
    ∀ kind : Kind ρ, ws ≠ [] → (∀ w ∈ ws, family.Addresses kind w.1) →
      ∃ v, grow ws (.object []) = some v ∧ family.Settles kind ws v := by
  induction ws using Writes.induction with
  | step ws ih =>
      intro kind hne haddresses
      obtain ⟨w, hw⟩ := List.exists_mem_of_ne_nil ws hne
      cases kind with
      | text => exact exists_settles_text family hne haddresses
      | record name =>
          exact exists_settles_record hne haddresses fun key hsome kind => ih key hsome kind hsome
      | flag => cases haddresses w hw
      | integer title least greatest => cases haddresses w hw
      | int64 => cases haddresses w hw
      | any => cases haddresses w hw

theorem decode_of_blank_iff
    {codec : Codec} {body : List UInt8} {params : PathParams}
    (hblank : Codec.isBlank body = true)
    (hparams : ∀ p ∈ params, family.Addresses (.record name) (keys p.1)) :
    family.decode codec name body params = .ok (family.bound name params) ↔
      params = [] ∨
        family.Fills (.record name) (.record (family.zero name)) (writes params) := by
  by_cases hnone : params = []
  · subst hnone
    have hwrites : writes [] = [] := writes_eq_nil_iff.mpr rfl
    have hzero : family.bound name [] = family.zero name := by
      rw [bound, hwrites]
      rfl
    rw [hzero]
    simp [decode, hblank]
  · have hne : writes params ≠ [] := mt writes_eq_nil_iff.mp hnone
    have haddresses : ∀ w ∈ writes params, family.Addresses (.record name) w.1 :=
      forall_mem_writes_iff.mpr hparams
    obtain ⟨v, hgrow, hsettles⟩ := exists_settles family _ _ hne haddresses
    have hpaths : ∀ w ∈ writes params, w.1 ≠ [] := fun w hw => (haddresses w hw).ne_nil
    have hbound : family.writeAll (writes params) (.record name) (.record (family.zero name)) =
        .record (family.bound name params) := by
      rw [bound, writeAll_record hne hpaths]
      rfl
    have hdecode : family.decode codec name body params = .ok (family.bound name params) ↔
        recordOfValue family.toSchema name v = .ok (family.bound name params) := by
      have hbody : codec.decodeBody body = .ok (.object []) := by
        rw [Codec.decodeBody, if_pos hblank]
      have hshortcut : ¬ ((Codec.isBlank body && params.isEmpty) = true) := by simp [hnone]
      rw [decode, if_neg hshortcut, hbody]
      change (bindAll (.object []) params >>= _) = _ ↔ _
      rw [bindAll_eq_ok_iff.mpr hgrow]
      change (match recordOfValue family.toSchema name v with
        | .ok ds => Except.ok ds
        | .error reason => .error (CodecFault.shape reason)) = _ ↔ _
      cases recordOfValue family.toSchema name v <;> simp
    rw [hdecode, recordOfValue_eq_ok_iff, ← hbound, hsettles .single (by simp), or_iff_right hnone]

end Family

/-!
## Messages
-/

namespace Message

variable {t : MessageType} {ws : Writes}

/-- The message types of the gateway. -/
def family : Family MessageType where
  toSchema := MessageType.schema
  zero t := (zero t).fields
  keys_nodup := MessageType.memberKeys_nodup

theorem decodeMessage_eq_map
    (codec : Codec) (t : MessageType) (body : List UInt8) (params : PathParams) :
    codec.decodeMessage t body params = (family.decode codec t body params).map (⟨t, ·⟩) := by
  unfold Codec.decodeMessage Family.decode
  split
  · rfl
  · cases codec.decodeBody body with
    | error fault => rfl
    | ok v =>
        change (bindAll v params >>= _) = (bindAll v params >>= _).map _
        cases bindAll v params with
        | error fault => rfl
        | ok w =>
            have hread : Message.ofValue t w = (recordOfValue family.toSchema t w).map (⟨t, ·⟩) := rfl
            cases hds : recordOfValue family.toSchema t w <;>
              simp [hread, hds, Except.map, Bind.bind, Except.bind]

/-- A member and what it holds when nothing was said about it. -/
theorem exists_field_of_mem_zip
    {m : Member MessageType} {e : Datum}
    (h : (m, e) ∈ (family.members t).zip (zero t).fields) :
    ∃ f ∈ t.fields, m = t.memberOf f ∧ e = MessageType.zeroDatum f.arity f.kind := by
  have hzip : (family.members t).zip (zero t).fields =
      t.fields.map fun f => (t.memberOf f, MessageType.zeroDatum f.arity f.kind) :=
    List.zip_map' ..
  rw [hzip] at h
  obtain ⟨f, hf, heq⟩ := List.mem_map.mp h
  cases heq
  exact ⟨f, hf, rfl, rfl⟩

/-- A message inside a message may be missing as a whole, and so may its own fields. -/
theorem mayOmit_of_mem
    {f : MessageField} {u : MessageType}
    (hf : f ∈ t.fields) (hkind : f.kind = .record u) :
    u.mayOmit = true := by
  have hall : ∀ f ∈ t.fields, f.kind ≠ .record .word := by cases t <;> decide
  cases u with
  | word => exact absurd hkind (hall f hf)
  | _ => rfl

theorem below_zeroDatum
    {arity : Arity} {u : MessageType}
    (harity : arity ≠ .list) :
    family.below u (MessageType.zeroDatum arity (.record u)) = (zero u).fields := by
  cases arity with
  | list => exact absurd rfl harity
  | single => rfl
  | optional => rfl

theorem fills_of_mayOmit
    (ws : Writes) :
    ∀ (t : MessageType) (d : Datum), t.mayOmit = true → family.below t d = (zero t).fields →
      (∀ w ∈ ws, family.Addresses (.record t) w.1) → family.Fills (.record t) d ws := by
  induction ws using Writes.induction with
  | step ws ih =>
      intro t d hmay hzero haddresses
      refine .record ?_ (fun m e hme hnone => ?_) fun m e hme hsome => ?_
      · rw [hzero]
        exact (List.length_map ..).trans (List.length_map ..).symm
      · rw [hzero] at hme
        obtain ⟨f, hf, rfl, rfl⟩ := exists_field_of_mem_zip hme
        rw [MessageType.memberOf, if_pos hmay]
      · rw [hzero] at hme
        obtain ⟨f, hf, rfl, rfl⟩ := exists_field_of_mem_zip hme
        obtain ⟨m, hm, harity, hinside⟩ := exists_member_of_behind haddresses hsome
        obtain rfl : m = t.memberOf f :=
          Option.some.inj (hm.symm.trans (MessageType.member?_eq_some hf))
        obtain ⟨w, hw⟩ := List.exists_mem_of_ne_nil _ hsome
        have hkind : (t.memberOf f).kind = f.kind := rfl
        cases hf' : f.kind with
        | text =>
            rw [hkind, hf']
            exact .text
        | record u =>
            rw [hkind, hf'] at hinside ⊢
            exact ih _ hsome u _ (mayOmit_of_mem hf hf') (below_zeroDatum harity) hinside
        | flag | integer | int64 | any =>
            rw [hkind, hf'] at hinside
            cases hinside w hw

/-- Of a word only the text can hold a parameter, and its count is not filled in. -/
theorem not_fills_word
    {d : Datum}
    (hzero : family.below .word d = (zero .word).fields)
    (haddresses : ∀ w ∈ ws, family.Addresses (.record .word) w.1) :
    ¬ family.Fills (.record .word) d ws := by
  intro h
  cases h with
  | record _ hmissing _ =>
      rw [hzero] at hmissing
      have hcount := hmissing ⟨"count", int32, .single, none⟩ (.whole 0)
        (List.mem_cons_of_mem _ (List.mem_cons_self ..))
      have hnone : behind "count" ws = [] := by
        by_contra hsome
        obtain ⟨m, hm, -, hinside⟩ := exists_member_of_behind haddresses hsome
        cases hm
        obtain ⟨w, hw⟩ := List.exists_mem_of_ne_nil _ hsome
        cases hinside w hw
      cases hcount hnone

theorem fills_zero_iff
    (haddresses : ∀ w ∈ ws, family.Addresses (.record t) w.1) :
    family.Fills (.record t) (.record (zero t).fields) ws ↔ t.mayOmit = true := by
  constructor
  · intro h
    cases t with
    | word => exact absurd h (not_fills_word rfl haddresses)
    | _ => rfl
  · exact fun hmay => fills_of_mayOmit ws t _ hmay rfl haddresses

end Message

/-- A body with no content means the message that nothing was said about, with the parameters in
it, exactly if there are no parameters or whatever they do not name is filled in with what it holds
in that message.  So it is for every family of messages, and the messages of the gateway are one;
all of them but the word may be missing any of their fields. -/
theorem Codec.decodeMessage_of_blank_iff
    {body : List UInt8}
    (hblank : isBlank body = true) (codec : Codec) :
    (∀ {ρ : Type} (family : Family ρ) (name : ρ) (params : PathParams),
      (∀ p ∈ params, family.Addresses (.record name) (keys p.1)) →
        (family.decode codec name body params = .ok (family.bound name params) ↔
          params = [] ∨
            family.Fills (.record name) (.record (family.zero name)) (writes params))) ∧
    (∀ (t : MessageType) (params : PathParams),
      codec.decodeMessage t body params =
        (Message.family.decode codec t body params).map (⟨t, ·⟩)) ∧
    (∀ (t : MessageType) (params : PathParams),
      (∀ p ∈ params, Message.family.Addresses (.record t) (keys p.1)) →
        (codec.decodeMessage t body params = .ok ⟨t, Message.family.bound t params⟩ ↔
          params = [] ∨ t.mayOmit = true)) := by
  refine ⟨fun family name params hparams => Family.decode_of_blank_iff hblank hparams,
    fun t params => Message.decodeMessage_eq_map codec t body params, fun t params hparams => ?_⟩
  have hmap : codec.decodeMessage t body params = .ok ⟨t, Message.family.bound t params⟩ ↔
      Message.family.decode codec t body params = .ok (Message.family.bound t params) := by
    rw [Message.decodeMessage_eq_map]
    cases Message.family.decode codec t body params <;> simp [Except.map]
  rw [hmap, Family.decode_of_blank_iff hblank hparams]
  by_cases hnone : params = []
  · exact iff_of_true (Or.inl hnone) (Or.inl hnone)
  · rw [or_iff_right hnone, or_iff_right hnone]
    exact Message.fills_zero_iff (forall_mem_writes_iff.mpr hparams)

/-- Two parameters in an item, one of them in the filter that is not there otherwise. -/
theorem Codec.decodeMessage_of_blank_iff_item :
    isBlank [0x20, 0x0a] = true ∧
      (∀ p ∈ [("filter.user_name", "ada"), ("item_id", "i7")],
        Message.family.Addresses (.record .item) (keys p.1)) ∧
      (Codec.json false).decodeMessage .item [0x20, 0x0a]
          [("filter.user_name", "ada"), ("item_id", "i7")] =
        .ok ⟨.item, [.text "i7", .whole 0, .record [.text "ada", .absent], .list [], .flag false,
          .whole 0, .list []]⟩ := by
  have hblank : isBlank [0x20, 0x0a] = true := by decide
  have haddresses : ∀ p ∈ [("filter.user_name", "ada"), ("item_id", "i7")],
      Message.family.Addresses (.record .item) (keys p.1) := by
    refine List.forall_mem_cons.mpr ⟨?_, List.forall_mem_cons.mpr ⟨?_, by simp⟩⟩
    · have hkeys : keys "filter.user_name" = ["filter", "userName"] := by decide
      rw [hkeys]
      exact .inside rfl (by decide) (.inside rfl (by decide) .text)
    · have hkeys : keys "item_id" = ["itemId"] := by decide
      rw [hkeys]
      exact .inside rfl (by decide) .text
  have hsorted : sorted [("filter.user_name", "ada"), ("item_id", "i7")] =
      [("filter.user_name", "ada"), ("item_id", "i7")] := by
    simp [sorted, List.mergeSort]
  have hread := ((decodeMessage_of_blank_iff hblank (Codec.json false)).2.2 .item _ haddresses).mpr
    (Or.inr rfl)
  refine ⟨hblank, haddresses, hread.trans ?_⟩
  rw [Family.bound, writes, hsorted]
  rfl

/-- Without parameters a word is the one that nothing was said about, and with its text in the path
it is not built at all. -/
theorem Codec.blank_word_refused :
    isBlank [0x20] = true ∧
      (∀ p ∈ [("text", "P")], Message.family.Addresses (.record .word) (keys p.1)) ∧
      (Codec.json false).decodeMessage .word [0x20] [] =
        .ok ⟨.word, [.text "", .whole 0]⟩ ∧
      Message.family.bound .word [("text", "P")] = [.text "P", .whole 0] ∧
      (Codec.json false).decodeMessage .word [0x20] [("text", "P")] =
        .error (.shape "missing field `count`") := by
  have hkeys : keys "text" = ["text"] := by decide
  have hsorted : sorted [("text", "P")] = [("text", "P")] := by simp [sorted]
  have htree : bindAll (.object []) [("text", "P")] = .ok (.object [("text", .string "P")]) := by
    rw [bindAll, hsorted]
    rfl
  have hread : Message.ofValue .word (.object [("text", .string "P")]) =
      .error "missing field `count`" := by
    have hmember : member? MessageType.schema .word "text" = some ⟨"text", .text, .single, none⟩ :=
      rfl
    simp [Message.ofValue, recordOfValue, ofValue, ofMembers, hmember, scalarOfValue, Except.map]
    rfl
  refine ⟨by decide, ?_, rfl, ?_, ?_⟩
  · intro p hp
    obtain rfl := List.mem_singleton.mp hp
    rw [hkeys]
    exact .inside rfl (by decide) .text
  · rw [Family.bound, writes, hsorted]
    rfl
  · have hbody : (Codec.json false).decodeBody [0x20] = .ok (.object []) := rfl
    rw [decodeMessage, if_neg (by decide), hbody]
    change (bindAll (.object []) [("text", "P")] >>= _) = _
    rw [htree]
    simp [hread, Bind.bind, Except.bind]

end RpcGateway
