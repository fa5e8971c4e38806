import Mathlib.Data.List.Nodup
import RpcGateway.Codec.PathBinding
import RpcGateway.Proofs.Route.Instantiation

/-!
# Path parameters in the value tree

Whether the parameters of a path all find their place in the value tree of a request.

**Places.**  `Value.at?` is the value at the end of a path of keys.  One binding writes its string
at its place (`at?_append_of_bindAt`), makes objects of what lies above it
(`exists_object_of_bindAt`), and leaves all places beside its path as they are
(`at?_of_bindAt_beside`).

**All parameters.**  `Holds` is the invariant of binding one parameter after another: those that
were bound are at their places, and nothing but objects is anywhere else.

**Results.**  The templates are checked for names that are the same, and the places are made of
other forms of the names.  `bound_iff_compatible` says which parameters keep their values, and
`params_bound_iff` that a template is safe for every path if and only if no name leads to a place on
the way of another.
-/

namespace RpcGateway
namespace Json

/-- The value at the end of a path of keys. -/
def Value.at? : List String → Value → Option Value
  | [], v => some v
  | key :: rest, .object ms => (Members.get? key ms).bind (Value.at? rest)
  | _ :: _, _ => none

@[simp] theorem Value.at?_nil
    (v : Value) :
    v.at? [] = some v := by
  unfold Value.at?
  rfl

@[simp] theorem Value.at?_cons_object
    (key : String) (rest : List String) (ms : Members) :
    (Value.object ms).at? (key :: rest) = (Members.get? key ms).bind (Value.at? rest) :=
  rfl

theorem Value.at?_append
    (p q : List String) (v : Value) :
    v.at? (p ++ q) = (v.at? p).bind (Value.at? q) := by
  induction p generalizing v with
  | nil => simp
  | cons key rest ih =>
      cases v with
      | object ms =>
          rw [List.cons_append, at?_cons_object, at?_cons_object]
          cases Members.get? key ms with
          | none => rfl
          | some child => exact ih child
      | null => rfl
      | boolean b => rfl
      | number n => rfl
      | string s => rfl
      | array items => rfl

/-- Below a string there is nothing. -/
theorem Value.at?_string_eq_some_iff
    {s : String} {path : List String} {v : Value} :
    (Value.string s).at? path = some v ↔ path = [] ∧ v = .string s := by
  cases path with
  | nil => simp [eq_comm]
  | cons key rest => simp [Value.at?]

/-- In an object without members there is nothing but itself. -/
theorem Value.at?_object_nil_eq_some_iff
    {path : List String} {v : Value} :
    (Value.object []).at? path = some v ↔ path = [] ∧ v = .object [] := by
  cases path with
  | nil => simp [eq_comm]
  | cons key rest => simp

end Json

namespace PathBinding

open Json

/-!
## One binding
-/

/-- A binding below a key goes on in the member of the key, or in a new object. -/
theorem bindAt_cons_eq_some_iff
    {value key : String} {rest : List String} {v w : Value} :
    bindAt value (key :: rest) v = some w ↔
      ∃ ms inner, v = .object ms ∧
        bindAt value rest ((Members.get? key ms).getD (.object [])) = some inner ∧
        w = .object (Members.put key inner ms) := by
  cases v with
  | object ms =>
      cases rest with
      | nil => simp [bindAt, members?, eq_comm]
      | cons next rest =>
          rw [bindAt]
          simp only [members?, List.isEmpty_cons, Bool.false_eq_true, if_false]
          constructor
          · intro h
            split at h
            · cases h
            · rename_i inner hinner
              exact ⟨ms, inner, rfl, hinner, (Option.some.inj h).symm⟩
          · rintro ⟨ms', inner, heq, hinner, rfl⟩
            obtain rfl := Value.object.inj heq
            rw [hinner]
  | null => simp [bindAt, members?]
  | boolean b => simp [bindAt, members?]
  | number n => simp [bindAt, members?]
  | string s => simp [bindAt, members?]
  | array items => simp [bindAt, members?]

/-- The string stands at its place, and nothing below it. -/
theorem at?_append_of_bindAt
    {value : String} {path : List String} {v w : Value}
    (h : bindAt value path v = some w) (below : List String) :
    w.at? (path ++ below) = (Value.string value).at? below := by
  induction path generalizing v w with
  | nil =>
      obtain rfl := Option.some.inj h
      rfl
  | cons key rest ih =>
      obtain ⟨ms, inner, rfl, hinner, rfl⟩ := bindAt_cons_eq_some_iff.mp h
      have hrest := ih hinner
      rw [List.cons_append, Value.at?_cons_object, Members.get?_put_self, Option.bind_some, hrest]

/-- What lies above the place is an object. -/
theorem exists_object_of_bindAt
    {value : String} {path above : List String} {v w : Value}
    (h : bindAt value path v = some w)
    (habove : above <+: path) (hne : above ≠ path) :
    ∃ ms, w.at? above = some (.object ms) := by
  induction path generalizing v w above with
  | nil => exact absurd (List.prefix_nil.mp habove) hne
  | cons key rest ih =>
      obtain ⟨ms, inner, rfl, hinner, rfl⟩ := bindAt_cons_eq_some_iff.mp h
      cases above with
      | nil => exact ⟨_, Value.at?_nil _⟩
      | cons k above =>
          obtain ⟨rfl, htail⟩ := List.cons_prefix_cons.mp habove
          have hne' : above ≠ rest := fun heq => hne (congrArg (k :: ·) heq)
          obtain ⟨ms', hms'⟩ := ih hinner htail hne'
          refine ⟨ms', ?_⟩
          rw [Value.at?_cons_object, Members.get?_put_self, Option.bind_some, hms']

/-- A place beside the path keeps its value. -/
theorem at?_of_bindAt_beside
    {value : String} {path other : List String} {v w : Value}
    (h : bindAt value path v = some w)
    (hbelow : ¬ path <+: other) (habove : ¬ other <+: path) :
    w.at? other = v.at? other := by
  induction path generalizing v w other with
  | nil => exact absurd (List.nil_prefix ..) hbelow
  | cons key rest ih =>
      obtain ⟨ms, inner, rfl, hinner, rfl⟩ := bindAt_cons_eq_some_iff.mp h
      cases other with
      | nil => exact absurd (List.nil_prefix ..) habove
      | cons k other =>
          rw [Value.at?_cons_object, Value.at?_cons_object]
          by_cases hk : k = key
          · subst hk
            rw [List.cons_prefix_cons] at hbelow habove
            have hinner' := ih hinner (fun hp => hbelow ⟨rfl, hp⟩) (fun hp => habove ⟨rfl, hp⟩)
            rw [Members.get?_put_self, Option.bind_some, hinner']
            cases Members.get? k ms with
            | some child => rfl
            | none =>
                cases other with
                | nil => exact absurd ⟨rfl, List.nil_prefix ..⟩ habove
                | cons k' other => rfl
          · rw [Members.get?_put_of_ne hk]

/-- A binding succeeds where nothing but objects is on the way. -/
theorem exists_bindAt
    {path : List String} {v : Value} (value : String)
    (h : ∀ above x, above <+: path → above ≠ path → v.at? above = some x → ∃ ms, x = .object ms) :
    ∃ w, bindAt value path v = some w := by
  induction path generalizing v with
  | nil => exact ⟨_, rfl⟩
  | cons key rest ih =>
      obtain ⟨ms, rfl⟩ := h [] v (List.nil_prefix ..) (by simp) (Value.at?_nil v)
      have hway : ∀ above x, above <+: rest → above ≠ rest →
          ((Members.get? key ms).getD (.object [])).at? above = some x →
          ∃ ms, x = .object ms := by
        intro above x habove hne hx
        cases hmember : Members.get? key ms with
        | none =>
            rw [hmember] at hx
            exact ⟨[], (Value.at?_object_nil_eq_some_iff.mp hx).2⟩
        | some child =>
            rw [hmember] at hx
            have hprefix : key :: above <+: key :: rest := List.cons_prefix_cons.mpr ⟨rfl, habove⟩
            refine h (key :: above) x hprefix (by simpa using hne) ?_
            rw [Value.at?_cons_object, hmember]
            exact hx
      obtain ⟨inner, hinner⟩ := ih hway
      exact ⟨_, bindAt_cons_eq_some_iff.mpr ⟨ms, inner, rfl, hinner, rfl⟩⟩

/-- What is no object was there before, or it is the string that was bound. -/
theorem eq_place_or_of_at?_bindAt
    {value : String} {path place : List String} {v w x : Value}
    (h : bindAt value path v = some w)
    (hx : w.at? place = some x) :
    (∃ ms, x = .object ms) ∨ place = path ∨ v.at? place = some x := by
  by_cases hbelow : path <+: place
  · obtain ⟨below, rfl⟩ := hbelow
    rw [at?_append_of_bindAt h] at hx
    obtain ⟨rfl, -⟩ := Value.at?_string_eq_some_iff.mp hx
    exact Or.inr (Or.inl (List.append_nil path))
  · by_cases habove : place <+: path
    · have hne : place ≠ path := by
        rintro rfl
        exact hbelow (List.prefix_refl _)
      obtain ⟨ms, hms⟩ := exists_object_of_bindAt h habove hne
      rw [hms] at hx
      exact Or.inl ⟨ms, (Option.some.inj hx).symm⟩
    · rw [at?_of_bindAt_beside h hbelow habove] at hx
      exact Or.inr (Or.inr hx)

/-!
## All parameters
-/

/-- All parameters can be bound in an object without members, and each is found at its place. -/
def Bound (params : PathParams) : Prop :=
  ∃ v, bindAll (.object []) params = .ok v ∧
    ∀ p ∈ params, v.at? (keys p.1) = some (.string p.2)

/-- A parameter whose place is on the way of another has the same place and the same value. -/
def Compatible (params : PathParams) : Prop :=
  ∀ p ∈ params, ∀ q ∈ params, keys p.1 <+: keys q.1 → keys p.1 = keys q.1 ∧ p.2 = q.2

/-- No name leads to a place on the way of another. -/
def PrefixFree (names : List String) : Prop :=
  ∀ n ∈ names, ∀ m ∈ names, keys n <+: keys m → n = m

/-- The parameters that were bound are found at their places, and all else is objects. -/
structure Holds (bound : PathParams) (v : Value) : Prop where
  found : ∀ p ∈ bound, v.at? (keys p.1) = some (.string p.2)
  objects : ∀ place x, v.at? place = some x →
    (∃ ms, x = .object ms) ∨ ∃ p ∈ bound, keys p.1 = place

theorem holds_nil :
    Holds [] (.object []) := by
  refine ⟨by simp, ?_⟩
  intro place x hx
  exact Or.inl ⟨[], (Value.at?_object_nil_eq_some_iff.mp hx).2⟩

/-- One more parameter can be bound, and those that were bound stay. -/
theorem Holds.bind
    {bound : PathParams} {v : Value} {p : String × String}
    (h : Holds bound v)
    (hc : Compatible (bound ++ [p])) :
    ∃ w, PathBinding.bind v p = .ok w ∧ Holds (bound ++ [p]) w := by
  have hp : p ∈ bound ++ [p] := List.mem_append_right _ (List.mem_singleton_self p)
  have hmem : ∀ q ∈ bound, q ∈ bound ++ [p] := fun q => List.mem_append_left _
  -- no string stands in the way: it would be that of a parameter whose place is above this one
  have hway : ∀ above x, above <+: keys p.1 → above ≠ keys p.1 → v.at? above = some x →
      ∃ ms, x = .object ms := by
    intro above x habove hne hx
    rcases h.objects above x hx with hobject | ⟨q, hq, rfl⟩
    · exact hobject
    · exact absurd (hc q (hmem q hq) p hp habove).1 hne
  obtain ⟨w, hw⟩ := exists_bindAt p.2 hway
  have hself : w.at? (keys p.1) = some (.string p.2) := by
    have hplace := at?_append_of_bindAt hw []
    rw [List.append_nil, Value.at?_nil] at hplace
    exact hplace
  refine ⟨w, by rw [PathBinding.bind, hw], ?_, ?_⟩
  · intro q hq
    rcases List.mem_append.mp hq with hq | hq
    · -- a place that is not beside the new one is the same, and then so is the value
      by_cases hbelow : keys p.1 <+: keys q.1
      · obtain ⟨hkeys, hvalue⟩ := hc p hp q (hmem q hq) hbelow
        rw [← hkeys, ← hvalue, hself]
      · by_cases habove : keys q.1 <+: keys p.1
        · obtain ⟨hkeys, hvalue⟩ := hc q (hmem q hq) p hp habove
          rw [hkeys, hvalue, hself]
        · rw [at?_of_bindAt_beside hw hbelow habove]
          exact h.found q hq
    · obtain rfl := List.mem_singleton.mp hq
      exact hself
  · intro place x hx
    rcases eq_place_or_of_at?_bindAt hw hx with hobject | rfl | hold
    · exact Or.inl hobject
    · exact Or.inr ⟨p, hp, rfl⟩
    · rcases h.objects place x hold with hobject | ⟨q, hq, rfl⟩
      · exact Or.inl hobject
      · exact Or.inr ⟨q, hmem q hq, rfl⟩

theorem Compatible.subset
    {params fewer : PathParams}
    (h : Compatible params) (hsub : ∀ p ∈ fewer, p ∈ params) :
    Compatible fewer :=
  fun p hp q hq => h p (hsub p hp) q (hsub q hq)

/-- Compatible parameters can be bound one after another. -/
theorem Holds.foldlM
    {bound : PathParams} {v : Value} {ps : PathParams}
    (h : Holds bound v)
    (hc : Compatible (bound ++ ps)) :
    ∃ w, ps.foldlM PathBinding.bind v = .ok w ∧ Holds (bound ++ ps) w := by
  induction ps generalizing bound v with
  | nil =>
      refine ⟨v, rfl, ?_⟩
      rw [List.append_nil]
      exact h
  | cons p ps ih =>
      rw [List.append_cons] at hc ⊢
      obtain ⟨w, hw, hholds⟩ := h.bind (hc.subset fun q => List.mem_append_left _)
      obtain ⟨u, hu, hall⟩ := ih hholds hc
      refine ⟨u, ?_, hall⟩
      rw [List.foldlM_cons, hw]
      exact hu

/-- Compatible parameters are all bound. -/
theorem Compatible.bound
    {params : PathParams}
    (h : Compatible params) :
    Bound params := by
  have hsorted : ∀ p, p ∈ sorted params ↔ p ∈ params := fun p => List.mem_mergeSort
  have hc : Compatible ([] ++ sorted params) := h.subset fun p hp => (hsorted p).mp hp
  obtain ⟨v, hv, hholds⟩ := holds_nil.foldlM hc
  exact ⟨v, hv, fun p hp => hholds.found p ((hsorted p).mpr hp)⟩

/-- Parameters that are all bound are compatible: below a string there is nothing. -/
theorem Bound.compatible
    {params : PathParams}
    (h : Bound params) :
    Compatible params := by
  obtain ⟨v, -, hfound⟩ := h
  intro p hp q hq hprefix
  have hplace := hfound p hp
  obtain ⟨below, hbelow⟩ := hprefix
  have hother := hfound q hq
  rw [← hbelow, Value.at?_append, hplace, Option.bind_some,
    Value.at?_string_eq_some_iff] at hother
  obtain ⟨rfl, hvalue⟩ := hother
  refine ⟨?_, (Value.string.inj hvalue).symm⟩
  rw [← hbelow, List.append_nil]

theorem bound_iff_compatible
    {params : PathParams} :
    Bound params ↔ Compatible params :=
  ⟨Bound.compatible, Compatible.bound⟩

/-!
## Parameters of a template
-/

/-- Parameters of distinct names that lead to separate places are compatible. -/
theorem PrefixFree.compatible
    {params : PathParams}
    (h : PrefixFree (params.map Prod.fst)) (hnodup : (params.map Prod.fst).Nodup) :
    Compatible params := by
  intro p hp q hq hprefix
  have hname := h p.1 (List.mem_map_of_mem hp) q.1 (List.mem_map_of_mem hq) hprefix
  obtain rfl := List.inj_on_of_nodup_map hnodup hp hq hname
  exact ⟨rfl, rfl⟩

/-- Compatible parameters with distinct values lead to separate places. -/
theorem Compatible.prefixFree
    {names : List String} {value : String → String}
    (h : Compatible (names.map fun name => (name, value name)))
    (hvalue : ∀ n m, value n = value m → n = m) :
    PrefixFree names := by
  intro n hn m hm hprefix
  have hpair : ∀ name ∈ names, (name, value name) ∈ names.map fun name => (name, value name) :=
    fun name hname => List.mem_map_of_mem hname
  exact hvalue n m (h _ (hpair n hn) _ (hpair m hm) hprefix).2

end PathBinding

namespace RouteTemplate

open PathBinding

/-- The path that binds to every parameter its own name behind a letter. -/
theorem match?_fill_names
    {t : RouteTemplate}
    (h : Compiled t.segments) :
    t.match? t.verb.text (t.fill PercentCoding.isPlain fun name => ["x" ++ name]) =
      some (t.paramNames.map fun name => (name, "x" ++ name)) := by
  have hparts : ∀ name ∈ t.paramNames, Nonempty ["x" ++ name] := by
    intro name _
    refine ⟨by simp, ?_⟩
    intro part hpart hempty
    obtain rfl := List.mem_singleton.mp hpart
    have hlist := congrArg String.toList hempty
    simp at hlist
  have hbinds := instantiates_fill PercentCoding.clear_isPlain h hparts
  simp only [String.intercalate_singleton] at hbinds
  rw [match?_eq_some_iff]
  refine ⟨rfl, _, slash_not_mem_fillSegment PercentCoding.clear_isPlain h, hbinds, ?_⟩
  exact String.toList_ofList

/-- The parameters that a path binds are all found in the value tree if and only if they are
compatible; they are so for every path if and only if no name of the template leads to a place on
the way of another. -/
theorem params_bound_iff
    {template verb : String} {t : RouteTemplate}
    (h : compile template verb = .ok t) :
    (∀ called path ps, t.match? called path = some ps → (Bound ps ↔ Compatible ps)) ∧
    ((∀ called path ps, t.match? called path = some ps → Bound ps) ↔
      PrefixFree t.paramNames) := by
  have hc := compiled_of_compile h
  refine ⟨fun called path ps _ => bound_iff_compatible, ?_, ?_⟩
  · intro hall
    have hbound := hall _ _ _ (match?_fill_names hc)
    refine hbound.compatible.prefixFree ?_
    intro n m heq
    exact (String.append_right_inj "x").mp heq
  · intro hfree called path ps hmatch
    obtain ⟨-, raws, -, hraws, -⟩ := match?_eq_some_iff.mp hmatch
    have hnames : ps.map Prod.fst = t.paramNames := hraws.names_eq
    have hnodup : (ps.map Prod.fst).Nodup := hnames ▸ hc.distinct
    exact (PrefixFree.compatible (hnames ▸ hfree) hnodup).bound

/-- A template whose names lead to places side by side. -/
def userItems : RouteTemplate :=
  ⟨.get, [.literal "v1", .capture "filter.user_name", .captureRest "item_id"], none,
    "/v1/{filter.user_name}/{item_id=**}"⟩

theorem params_bound_iff_userItems :
    compile userItems.source "GET" = .ok userItems ∧
      userItems.match? "GET" "/v1/ada/a/b" =
        some [("filter.user_name", "ada"), ("item_id", "a/b")] ∧
      Bound [("filter.user_name", "ada"), ("item_id", "a/b")] := by
  have hcompile : compile userItems.source "GET" = .ok userItems := by decide
  have hmatch : userItems.match? "GET" "/v1/ada/a/b" =
      some [("filter.user_name", "ada"), ("item_id", "a/b")] := by decide
  have hfree : PrefixFree userItems.paramNames := by
    unfold PrefixFree
    decide
  have hbound := (params_bound_iff hcompile).2.mpr hfree "GET" "/v1/ada/a/b" _ hmatch
  exact ⟨hcompile, hmatch, hbound⟩

/-- A template with two names for one place. -/
def aliased : RouteTemplate :=
  ⟨.get, [.literal "x", .capture "a_b", .capture "aB"], none, "/x/{a_b}/{aB}"⟩

/-- A template with a name that leads through the place of another. -/
def blocked : RouteTemplate :=
  ⟨.get, [.literal "x", .capture "a", .capture "a.b"], none, "/x/{a}/{a.b}"⟩

/-- Of two names for one place the later in order keeps its value, and a name behind the place of
another cannot be bound. -/
theorem accepted_names_collide :
    (compile aliased.source "GET" = .ok aliased ∧
      aliased.match? "GET" "/x/1/2" = some [("a_b", "1"), ("aB", "2")] ∧
      ∃ v, bindAll (.object []) [("a_b", "1"), ("aB", "2")] = .ok v ∧
        v.at? (keys "aB") = some (.string "1")) ∧
    (compile blocked.source "GET" = .ok blocked ∧
      blocked.match? "GET" "/x/1/2" = some [("a", "1"), ("a.b", "2")] ∧
      ∃ fault, bindAll (.object []) [("a", "1"), ("a.b", "2")] = .error fault) := by
  have haliased : sorted [("a_b", "1"), ("aB", "2")] = [("aB", "2"), ("a_b", "1")] := by
    simp [sorted, List.mergeSort]
  have hblocked : sorted [("a", "1"), ("a.b", "2")] = [("a", "1"), ("a.b", "2")] := by
    simp [sorted, List.mergeSort]
  refine ⟨⟨by decide, by decide, ?_⟩, by decide, by decide, ?_⟩
  · rw [bindAll, haliased]
    exact ⟨_, rfl, rfl⟩
  · rw [bindAll, hblocked]
    exact ⟨_, rfl⟩

end RouteTemplate
end RpcGateway
