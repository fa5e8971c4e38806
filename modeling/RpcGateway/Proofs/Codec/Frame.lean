import Mathlib.Data.List.Nodup
import RpcGateway.Codec.Body
import RpcGateway.Proofs.Codec.PathBinding
import RpcGateway.Proofs.Collection.Result
import RpcGateway.Proofs.Json.Members

/-!
# What binding the parameters changes

The parameters of a path are written where their names lead, and all else in the value tree stays
as it is.

**One binding.**  A binding succeeds if and only if its place is `Open`: nothing but objects is on
the way to it (`exists_bindAt_iff`).  It neither opens nor closes a place beside its own
(`open_iff_of_bindAt`), and two bindings at places beside each other may change places
(`bindAt_comm`).

**A run.**  `Written` says what a run of bindings leaves behind.  It is by induction on the
parameters: each of them finds the places of the later ones as they were in the value tree at the
start (`exists_foldlM_bind_iff`), and the later ones leave its own place alone
(`written_of_foldlM_bind`).  So the order of the parameters does not matter, and the failure of a
run is that of a parameter whose place was not open at the start.
-/

namespace RpcGateway
namespace Json

variable {key other : String}

/-- Of two values for one key the latter stays. -/
theorem Members.put_put
    (key : String) (a b : Value) (ms : Members) :
    put key b (put key a ms) = put key b ms := by
  induction ms with
  | nil => simp [put]
  | cons m rest ih =>
      obtain ⟨k, v⟩ := m
      by_cases hlt : key < k
      · simp [put, hlt]
      · by_cases heq : key = k
        · simp [put, heq]
        · simp [put, hlt, heq, ih]

/-- Values for different keys may be set in either order. -/
theorem Members.put_comm
    (hne : key ≠ other) (a b : Value) (ms : Members) :
    put other b (put key a ms) = put key a (put other b ms) := by
  -- the key that comes first in the order of keys is also found first among the members
  suffices hlt : ∀ {key other : String} (a b : Value), key < other →
      put other b (put key a ms) = put key a (put other b ms) by
    by_cases h : key < other
    · exact hlt a b h
    · exact (hlt b a (lt_of_not_lt_of_ne h hne)).symm
  clear hne
  intro key other a b hlt
  have hne : other ≠ key := fun heq => String.lt_irrefl _ (heq ▸ hlt)
  have hge : ¬ other < key := String.lt_asymm hlt
  induction ms with
  | nil => simp [put, hlt, hne, hge]
  | cons m rest ih =>
      obtain ⟨k, v⟩ := m
      by_cases hfirst : key < k
      · by_cases hotherFirst : other < k
        · simp [put, hfirst, hotherFirst, hlt, hne, hge]
        · by_cases hk : other = k
          · simp [put, hfirst, hk ▸ hne, hk, hk ▸ hge]
          · simp [put, hfirst, hotherFirst, hk, hne, hge]
      · have hotherLater : ¬ other < k := fun h => hfirst (String.lt_trans hlt h)
        by_cases hk : key = k
        · subst hk
          simp [put, hne, hge]
        · by_cases hotherKey : other = k
          · simp [put, hfirst, hk, hotherKey]
          · simp [put, hfirst, hk, hotherLater, hotherKey, ih]

/-- The members of every object that a path leads to are in the order of their keys. -/
def Value.Ordered (v : Value) : Prop :=
  ∀ place ms, v.at? place = some (.object ms) → Members.Sorted ms

theorem Value.Ordered.of_at?
    {v w : Value} {place : List String}
    (h : v.Ordered) (hw : v.at? place = some w) :
    w.Ordered := by
  intro below ms hms
  refine h (place ++ below) ms ?_
  rw [Value.at?_append, hw, Option.bind_some, hms]

end Json

namespace PathBinding

open Json

/-!
## One binding
-/

variable {value : String} {path other : List String} {v w : Value}

/-- Nothing but objects is on the way to a place. -/
def Open (path : List String) (v : Value) : Prop :=
  ∀ above x, above <+: path → above ≠ path → v.at? above = some x → ∃ ms, x = .object ms

/-- Two places of which neither is on the way to the other. -/
def Beside (path other : List String) : Prop :=
  ¬ path <+: other ∧ ¬ other <+: path

theorem Beside.symm
    (h : Beside path other) :
    Beside other path :=
  And.symm h

theorem Beside.of_cons
    {key : String}
    (h : Beside (key :: path) (key :: other)) :
    Beside path other :=
  ⟨fun hp => h.1 (List.cons_prefix_cons.mpr ⟨rfl, hp⟩),
    fun hp => h.2 (List.cons_prefix_cons.mpr ⟨rfl, hp⟩)⟩

theorem open_of_bindAt
    (h : bindAt value path v = some w) :
    Open path v := by
  induction path generalizing v w with
  | nil =>
      intro above x habove hne _
      exact absurd (List.prefix_nil.mp habove) hne
  | cons key rest ih =>
      obtain ⟨ms, inner, rfl, hinner, rfl⟩ := bindAt_cons_eq_some_iff.mp h
      intro above x habove hne hx
      cases above with
      | nil => exact ⟨ms, (Option.some.inj hx).symm⟩
      | cons k above =>
          obtain ⟨rfl, htail⟩ := List.cons_prefix_cons.mp habove
          rw [Value.at?_cons_object] at hx
          obtain ⟨child, hchild, hx⟩ := Option.bind_eq_some_iff.mp hx
          rw [hchild] at hinner
          exact ih hinner above x htail (fun heq => hne (congrArg (k :: ·) heq)) hx

theorem exists_bindAt_iff
    (value : String) :
    (∃ w, bindAt value path v = some w) ↔ Open path v :=
  ⟨fun ⟨_, h⟩ => open_of_bindAt h, exists_bindAt value⟩

/-- A binding neither opens nor closes the places beside its own. -/
theorem open_iff_of_bindAt
    (h : bindAt value path v = some w) (hbeside : Beside path other) :
    Open other w ↔ Open other v := by
  have hsame : ∀ above, above <+: other →
      ((∀ x, w.at? above = some x → ∃ ms, x = .object ms) ↔
        ∀ x, v.at? above = some x → ∃ ms, x = .object ms) := by
    intro above habove
    have hbelow : ¬ path <+: above := fun hpath => hbeside.1 (hpath.trans habove)
    by_cases hway : above <+: path
    · -- what is on the way to both places was an object before, and it is one now
      have hproper : above ≠ path := fun heq => hbelow (heq ▸ List.prefix_refl _)
      refine iff_of_true (fun x hx => ?_) fun x hx => open_of_bindAt h above x hway hproper hx
      obtain ⟨ms, hms⟩ := exists_object_of_bindAt h hway hproper
      rw [hms] at hx
      exact ⟨ms, (Option.some.inj hx).symm⟩
    · rw [at?_of_bindAt_beside h hbelow hway]
  constructor
  · intro hopen above x habove hne hx
    exact (hsame above habove).mp (fun x => hopen above x habove hne) x hx
  · intro hopen above x habove hne hx
    exact (hsame above habove).mpr (fun x => hopen above x habove hne) x hx

/-- Bindings at places beside each other may change places. -/
theorem bindAt_comm
    {second : String} {u : Value}
    (hfirst : bindAt value path v = some u) (hsecond : bindAt second other u = some w)
    (hbeside : Beside path other) :
    ∃ u', bindAt second other v = some u' ∧ bindAt value path u' = some w := by
  induction path generalizing other v u w with
  | nil => exact absurd (List.nil_prefix ..) hbeside.1
  | cons key rest ih =>
      cases other with
      | nil => exact absurd (List.nil_prefix ..) hbeside.2
      | cons k other =>
          obtain ⟨ms, inner, rfl, hinner, rfl⟩ := bindAt_cons_eq_some_iff.mp hfirst
          obtain ⟨ms', inner', heq, hinner', rfl⟩ := bindAt_cons_eq_some_iff.mp hsecond
          obtain rfl := Value.object.inj heq
          by_cases hk : key = k
          · subst hk
            rw [Members.get?_put_self, Option.getD_some] at hinner'
            obtain ⟨u', hu', hback⟩ := ih hinner hinner' hbeside.of_cons
            refine ⟨.object (Members.put key u' ms), bindAt_cons_eq_some_iff.mpr
              ⟨ms, u', rfl, hu', rfl⟩, bindAt_cons_eq_some_iff.mpr ⟨_, inner', rfl, ?_, ?_⟩⟩
            · rw [Members.get?_put_self, Option.getD_some, hback]
            · rw [Members.put_put, Members.put_put]
          · rw [Members.get?_put_of_ne (Ne.symm hk)] at hinner'
            refine ⟨.object (Members.put k inner' ms), bindAt_cons_eq_some_iff.mpr
              ⟨ms, inner', rfl, hinner', rfl⟩, bindAt_cons_eq_some_iff.mpr ⟨_, inner, rfl, ?_, ?_⟩⟩
            · rw [Members.get?_put_of_ne hk, hinner]
            · rw [Members.put_comm hk]

/-- A binding leaves the members of every object in their order. -/
theorem ordered_of_bindAt
    (h : bindAt value path v = some w) (hordered : v.Ordered) :
    w.Ordered := by
  induction path generalizing v w with
  | nil =>
      obtain rfl := Option.some.inj h
      intro place ms hms
      obtain ⟨-, heq⟩ := Value.at?_string_eq_some_iff.mp hms
      cases heq
  | cons key rest ih =>
      obtain ⟨ms, inner, rfl, hinner, rfl⟩ := bindAt_cons_eq_some_iff.mp h
      have hinnerOrdered : inner.Ordered := by
        refine ih hinner ?_
        cases hchild : Members.get? key ms with
        | none =>
            intro place ms' hms'
            obtain ⟨-, heq⟩ := Value.at?_object_nil_eq_some_iff.mp hms'
            obtain rfl := Value.object.inj heq
            exact List.Pairwise.nil
        | some child =>
            have hat : (Value.object ms).at? [key] = some child := by
              rw [Value.at?_cons_object, hchild, Option.bind_some, Value.at?_nil]
            exact hordered.of_at? hat
      intro place ms' hms'
      cases place with
      | nil =>
          obtain rfl := Value.object.inj (Option.some.inj hms')
          exact (hordered [] ms (Value.at?_nil _)).put key inner
      | cons k place =>
          rw [Value.at?_cons_object] at hms'
          by_cases hk : k = key
          · subst hk
            rw [Members.get?_put_self, Option.bind_some] at hms'
            exact hinnerOrdered place ms' hms'
          · rw [Members.get?_put_of_ne hk] at hms'
            exact hordered (k :: place) ms' hms'

/-!
## A run of bindings
-/

variable {params others ps qs : PathParams} {fault : CodecFault}

/-- Two parameters whose places are beside each other. -/
def Apart (p q : String × String) : Prop :=
  Beside (keys p.1) (keys q.1)

/-- Parameters of distinct names whose paths are free of one another are apart. -/
theorem PrefixFree.pairwise
    (hfree : PrefixFree (params.map Prod.fst)) (hnames : (params.map Prod.fst).Nodup) :
    params.Pairwise Apart := by
  refine hnames.of_map.pairwise_of_forall_ne fun p hp q hq hne => ?_
  have hname : ∀ {p q}, p ∈ params → q ∈ params → keys p.1 <+: keys q.1 → p = q := by
    intro p q hp hq hprefix
    have heq := hfree p.1 (List.mem_map_of_mem hp) q.1 (List.mem_map_of_mem hq) hprefix
    exact List.inj_on_of_nodup_map hnames hp hq heq
  exact ⟨fun h => hne (hname hp hq h), fun h => hne (hname hq hp h).symm⟩

theorem bind_eq_ok_iff
    {p : String × String} :
    bind v p = .ok w ↔ bindAt p.2 (keys p.1) v = some w := by
  unfold bind
  split
  next u hu => simp [hu]
  next hu => simp [hu]

/-- A run succeeds if and only if the places of all its parameters are open at its start. -/
theorem exists_foldlM_bind_iff
    (hapart : ps.Pairwise Apart) :
    (∃ w, ps.foldlM bind v = .ok w) ↔ ∀ p ∈ ps, Open (keys p.1) v := by
  induction ps generalizing v with
  | nil => exact ⟨fun _ => by simp, fun _ => ⟨v, rfl⟩⟩
  | cons p ps ih =>
      obtain ⟨hhead, htail⟩ := List.pairwise_cons.mp hapart
      rw [List.forall_mem_cons, List.foldlM_cons]
      constructor
      · rintro ⟨w, hw⟩
        obtain ⟨u, hu, hrun⟩ := exists_of_bind_eq_ok hw
        rw [bind_eq_ok_iff] at hu
        refine ⟨open_of_bindAt hu, fun q hq => ?_⟩
        exact (open_iff_of_bindAt hu (hhead q hq)).mp ((ih htail).mp ⟨w, hrun⟩ q hq)
      · rintro ⟨hopen, hall⟩
        obtain ⟨u, hu⟩ := (exists_bindAt_iff p.2).mpr hopen
        obtain ⟨w, hw⟩ := (ih htail).mpr fun q hq =>
          (open_iff_of_bindAt hu (hhead q hq)).mpr (hall q hq)
        refine ⟨w, ?_⟩
        rw [bind_eq_ok_iff.mpr hu]
        exact hw

/-- The parameters are written where their names lead, and nowhere else. -/
structure Written (params : PathParams) (v w : Value) : Prop where
  /-- Every parameter is a string at its place. -/
  found : ∀ p ∈ params, w.at? (keys p.1) = some (.string p.2)
  /-- What is on the way to a place is there, and is an object. -/
  parents : ∀ p ∈ params, ∀ above, above <+: keys p.1 → above ≠ keys p.1 →
    ∃ ms, w.at? above = some (.object ms)
  /-- A place beside those of all parameters is as it was, be it there or not. -/
  kept : ∀ place, (∀ p ∈ params, Beside (keys p.1) place) → w.at? place = v.at? place

/-- What is new is a parameter or on the way to one. -/
theorem Written.added
    {place : List String} {x : Value}
    (h : Written params v w) (hnew : w.at? place = some x) (hold : v.at? place = none) :
    ∃ p ∈ params, place <+: keys p.1 := by
  by_contra hnone
  push Not at hnone
  have hbeside : ∀ p ∈ params, Beside (keys p.1) place := by
    intro p hp
    refine ⟨fun hbelow => ?_, hnone p hp⟩
    -- below a string there is nothing, so the place would be that of the parameter
    obtain ⟨below, rfl⟩ := hbelow
    rw [Value.at?_append, h.found p hp, Option.bind_some] at hnew
    obtain ⟨rfl, -⟩ := Value.at?_string_eq_some_iff.mp hnew
    exact hnone p hp (List.append_nil _ ▸ List.prefix_refl _)
  rw [h.kept place hbeside, hold] at hnew
  cases hnew

theorem written_nil
    (v : Value) :
    Written [] v v :=
  ⟨by simp, by simp, fun _ _ => rfl⟩

/-- What a binding wrote is left alone by those behind it. -/
theorem Written.cons
    {p : String × String} {u : Value}
    (hbind : bindAt p.2 (keys p.1) v = some u) (h : Written ps u w)
    (hapart : ∀ q ∈ ps, Apart p q) :
    Written (p :: ps) v w where
  found := by
    refine List.forall_mem_cons.mpr ⟨?_, h.found⟩
    have hplace := at?_append_of_bindAt hbind []
    rw [List.append_nil, Value.at?_nil] at hplace
    rw [h.kept _ fun q hq => (hapart q hq).symm, hplace]
  parents := by
    refine List.forall_mem_cons.mpr ⟨fun above habove hne => ?_, h.parents⟩
    by_cases hbeside : ∀ q ∈ ps, Beside (keys q.1) above
    · rw [h.kept above hbeside]
      exact exists_object_of_bindAt hbind habove hne
    · -- otherwise it is on the way to a later parameter as well
      push Not at hbeside
      obtain ⟨q, hq, hnot⟩ := hbeside
      have hbelow : ¬ keys q.1 <+: above := fun hp => (hapart q hq).2 (hp.trans habove)
      have hway : above <+: keys q.1 := by
        by_contra hway
        exact hnot ⟨hbelow, hway⟩
      exact h.parents q hq above hway fun heq => hbelow (heq ▸ List.prefix_refl _)
  kept := by
    intro place hbeside
    obtain ⟨hhead, htail⟩ := List.forall_mem_cons.mp hbeside
    rw [h.kept place htail, at?_of_bindAt_beside hbind hhead.1 hhead.2]

theorem written_of_foldlM_bind
    (hapart : ps.Pairwise Apart) (h : ps.foldlM bind v = .ok w) :
    Written ps v w := by
  induction ps generalizing v with
  | nil =>
      obtain rfl := Except.ok.inj h
      exact written_nil v
  | cons p ps ih =>
      obtain ⟨hhead, htail⟩ := List.pairwise_cons.mp hapart
      rw [List.foldlM_cons] at h
      obtain ⟨u, hu, hrun⟩ := exists_of_bind_eq_ok h
      exact (ih htail hrun).cons (bind_eq_ok_iff.mp hu) hhead

theorem ordered_of_foldlM_bind
    (h : ps.foldlM bind v = .ok w) (hordered : v.Ordered) :
    w.Ordered := by
  induction ps generalizing v with
  | nil =>
      obtain rfl := Except.ok.inj h
      exact hordered
  | cons p ps ih =>
      rw [List.foldlM_cons] at h
      obtain ⟨u, hu, hrun⟩ := exists_of_bind_eq_ok h
      exact ih hrun (ordered_of_bindAt (bind_eq_ok_iff.mp hu) hordered)

/-- A run that fails does so at a parameter whose place was not open at its start. -/
theorem exists_blocked_of_foldlM_bind
    (hapart : ps.Pairwise Apart) (h : ps.foldlM bind v = .error fault) :
    ∃ p ∈ ps, ¬ Open (keys p.1) v ∧
      fault = .shape s!"cannot bind path parameter '{p.1}' into a non-object" := by
  induction ps generalizing v with
  | nil => cases h
  | cons p ps ih =>
      obtain ⟨hhead, htail⟩ := List.pairwise_cons.mp hapart
      cases hbind : bindAt p.2 (keys p.1) v with
      | none =>
          have hblocked : ¬ Open (keys p.1) v := by
            intro hopen
            obtain ⟨w, hw⟩ := (exists_bindAt_iff p.2).mpr hopen
            rw [hbind] at hw
            cases hw
          refine ⟨p, List.mem_cons_self .., hblocked, ?_⟩
          rw [List.foldlM_cons, bind, hbind] at h
          exact (Except.error.inj h).symm
      | some u =>
          rw [List.foldlM_cons, bind_eq_ok_iff.mpr hbind] at h
          obtain ⟨q, hq, hblocked, rfl⟩ := ih htail h
          refine ⟨q, List.mem_cons_of_mem _ hq, fun hopen => hblocked ?_, rfl⟩
          exact (open_iff_of_bindAt hbind (hhead q hq)).mpr hopen

/-- The order of the parameters does not matter. -/
theorem foldlM_bind_of_perm
    (hperm : ps.Perm qs) (hapart : ps.Pairwise Apart) (h : ps.foldlM bind v = .ok w) :
    qs.foldlM bind v = .ok w := by
  induction hperm generalizing v with
  | nil => exact h
  | cons p hperm ih =>
      rw [List.foldlM_cons] at h ⊢
      obtain ⟨u, hu, hrun⟩ := exists_of_bind_eq_ok h
      rw [hu]
      exact ih (List.pairwise_cons.mp hapart).2 hrun
  | swap p q rest =>
      have hbeside : Apart q p := (List.pairwise_cons.mp hapart).1 p (List.mem_cons_self ..)
      rw [List.foldlM_cons] at h
      obtain ⟨u, hq, h⟩ := exists_of_bind_eq_ok h
      rw [List.foldlM_cons] at h
      obtain ⟨u', hp, hrun⟩ := exists_of_bind_eq_ok h
      rw [bind_eq_ok_iff] at hq hp
      obtain ⟨x, hx, hback⟩ := bindAt_comm hq hp hbeside
      rw [List.foldlM_cons, bind_eq_ok_iff.mpr hx, ← hrun]
      change (rest.foldlM bind =<< bind x q) = _
      rw [bind_eq_ok_iff.mpr hback]
      rfl
  | trans hfirst _ ihfirst ihsecond =>
      exact ihsecond ((hfirst.pairwise_iff Beside.symm).mp hapart) (ihfirst hapart h)

/-!
## All parameters
-/

/-- Parameters of distinct names are put in one order, however they come. -/
theorem sorted_eq_of_perm
    (hnames : (params.map Prod.fst).Nodup) (hperm : params.Perm others) :
    sorted params = sorted others := by
  have hmem : ∀ p, p ∈ sorted params ↔ p ∈ params := fun p => List.mem_mergeSort
  have hmem' : ∀ p, p ∈ sorted others ↔ p ∈ params := fun p =>
    List.mem_mergeSort.trans hperm.mem_iff.symm
  have hordered : ∀ ps : PathParams, (sorted ps).Pairwise fun p q => decide (p.1 ≤ q.1) = true :=
    List.pairwise_mergeSort
      (fun p q r hpq hqr => by simpa using String.le_trans (by simpa using hpq) (by simpa using hqr))
      (fun p q => by simpa using String.le_total p.1 q.1)
  refine List.Perm.eq_of_pairwise (fun p q hp hq hpq hqp => ?_) (hordered _) (hordered _) ?_
  · have heq : p.1 = q.1 := String.le_antisymm (by simpa using hpq) (by simpa using hqp)
    exact List.inj_on_of_nodup_map hnames ((hmem p).mp hp) ((hmem' q).mp hq) heq
  · exact (List.mergeSort_perm ..).trans (hperm.trans (List.mergeSort_perm ..).symm)

theorem keys_ne_nil
    (name : String) :
    keys name ≠ [] := by
  intro h
  exact List.splitOn_ne_nil _ _ (List.map_eq_nil_iff.mp h)

/-- Parameters whose paths are free of one another are written exactly where their names lead.

They can be bound if and only if nothing but objects is on their ways.  Then each is found at its
place, the places beside those of all parameters are as they were, and what is new is a parameter
or on the way to one; the result does not hang on the order in which the parameters come, nor on
that in which they are bound.  Otherwise no message is built, and the fault names a parameter
whose way is blocked. -/
theorem bindAll_exactly_where_named
    {v : Value} {params : PathParams}
    (hnames : (params.map Prod.fst).Nodup)
    (hfree : PrefixFree (params.map Prod.fst)) :
    ((∃ w, bindAll v params = .ok w) ↔
      params = [] ∨ (∃ ms, v = .object ms) ∧ ∀ p ∈ params, Open (keys p.1) v) ∧
    (∀ w, bindAll v params = .ok w →
      Written params v w ∧ (v.Ordered → w.Ordered) ∧
      ∀ place x, w.at? place = some x → v.at? place = none →
        ∃ p ∈ params, place <+: keys p.1) ∧
    (∀ others, params.Perm others →
      bindAll v others = bindAll v params ∧
      ∀ w, others.foldlM bind v = .ok w ↔ bindAll v params = .ok w) ∧
    (∀ fault, bindAll v params = .error fault →
      ∃ p ∈ params, ¬ Open (keys p.1) v ∧
        fault = .shape s!"cannot bind path parameter '{p.1}' into a non-object" ∧
        ∀ codec t body, Codec.decodeBody codec body = .ok v →
          Codec.decodeMessage codec t body params = .error fault) := by
  have hapart := hfree.pairwise hnames
  have hperm : (sorted params).Perm params := List.mergeSort_perm ..
  have hmem : ∀ p, p ∈ sorted params ↔ p ∈ params := fun p => hperm.mem_iff
  have hsorted : (sorted params).Pairwise Apart :=
    (hperm.pairwise_iff Beside.symm).mpr hapart
  have hrun : ∀ w, params.foldlM bind v = .ok w ↔ bindAll v params = .ok w := fun w =>
    ⟨foldlM_bind_of_perm hperm.symm hapart, foldlM_bind_of_perm hperm hsorted⟩
  refine ⟨?_, fun w hw => ?_, fun others hothers => ⟨?_, fun w => ?_⟩, fun fault hfault => ?_⟩
  · simp only [← hrun]
    rw [exists_foldlM_bind_iff hapart]
    constructor
    · intro hall
      cases params with
      | nil => exact Or.inl rfl
      | cons p rest =>
          have hopen := hall p (List.mem_cons_self ..)
          have hobject := hopen [] v (List.nil_prefix ..) (keys_ne_nil p.1).symm (Value.at?_nil v)
          exact Or.inr ⟨hobject, hall⟩
    · rintro (rfl | ⟨-, hall⟩)
      · simp
      · exact hall
  · have hwritten := written_of_foldlM_bind hapart ((hrun w).mpr hw)
    exact ⟨hwritten, ordered_of_foldlM_bind hw, fun _ _ => hwritten.added⟩
  · rw [bindAll, bindAll, sorted_eq_of_perm hnames hothers]
  · have hapart' := (hothers.pairwise_iff Beside.symm).mp hapart
    rw [← hrun]
    exact ⟨foldlM_bind_of_perm hothers.symm hapart', foldlM_bind_of_perm hothers hapart⟩
  · obtain ⟨p, hp, hblocked, heq⟩ := exists_blocked_of_foldlM_bind hsorted hfault
    refine ⟨p, (hmem p).mp hp, hblocked, heq, fun codec t body hbody => ?_⟩
    have hne : params ≠ [] := List.ne_nil_of_mem ((hmem p).mp hp)
    have hshortcut : ¬ ((Codec.isBlank body && params.isEmpty) = true) := by simp [hne]
    rw [Codec.decodeMessage, if_neg hshortcut, hbody]
    change (bindAll v params >>= _) = _
    rw [hfault]
    rfl

/-- An object that has a part of the way to the first of `filterParams`. -/
def filterBody : Value :=
  .object [("filter", .object [("maxAge", .int 3), ("userName", .null)]), ("pageSize", .int 2)]

def filterParams : PathParams :=
  [("filter.user_name", "ada"), ("event_id", "e9")]

/-- The members beside the ways of two parameters are kept, at the top and inside. -/
theorem bindAll_exactly_where_named_filter :
    (filterParams.map Prod.fst).Nodup ∧ PrefixFree (filterParams.map Prod.fst) ∧
      ∃ w, bindAll filterBody filterParams = .ok w ∧
        w.at? ["filter", "userName"] = some (.string "ada") ∧
        w.at? ["eventId"] = some (.string "e9") ∧
        w.at? ["filter", "maxAge"] = some (.int 3) ∧
        w.at? ["pageSize"] = some (.int 2) := by
  have hnames : (filterParams.map Prod.fst).Nodup := by decide
  have hfree : PrefixFree (filterParams.map Prod.fst) := by
    unfold PrefixFree
    decide
  obtain ⟨hsucceeds, hwritten, -⟩ := bindAll_exactly_where_named (v := filterBody) hnames hfree
  have hopen : ∀ p ∈ filterParams, Open (keys p.1) filterBody := by
    refine List.forall_mem_cons.mpr ⟨?_, List.forall_mem_cons.mpr ⟨?_, by simp⟩⟩
    · exact (exists_bindAt_iff "ada").mp ⟨_, rfl⟩
    · exact (exists_bindAt_iff "e9").mp ⟨_, rfl⟩
  obtain ⟨w, hw⟩ := hsucceeds.mpr (Or.inr ⟨⟨_, rfl⟩, hopen⟩)
  obtain ⟨⟨hfound, -, hkept⟩, -⟩ := hwritten w hw
  have huser := hfound ("filter.user_name", "ada") (List.mem_cons_self ..)
  have hevent := hfound ("event_id", "e9") (List.mem_cons_of_mem _ (List.mem_cons_self ..))
  refine ⟨hnames, hfree, w, hw, huser, hevent, ?_, ?_⟩
  · exact hkept ["filter", "maxAge"] (by unfold Beside; decide)
  · exact hkept ["pageSize"] (by unfold Beside; decide)

end PathBinding
end RpcGateway
