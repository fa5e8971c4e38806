import RpcGateway.Http.HeaderMap
import RpcGateway.Proofs.Collection.Multimap
import RpcGateway.Proofs.Text.Utf8

/-!
# Header maps

A header map is legal if its names are tokens in lower case, each with a value and each once, and if
its values may stand in header lines.  The empty map is legal, and adding a line keeps it so.
-/

namespace RpcGateway

theorem lower_of_headerName?
    {s name : String}
    (h : headerName? s = some name) :
    name = Ascii.lower s := by
  unfold headerName? at h
  split at h
  · exact (Option.some.inj h).symm
  · cases h

/-- The name of a line is its own. -/
theorem headerName?_idem
    {s name : String}
    (h : headerName? s = some name) :
    headerName? name = some name := by
  have hname := lower_of_headerName? h
  unfold headerName? at h ⊢
  split at h
  case isFalse => cases h
  case isTrue htoken =>
    rw [hname, Ascii.isToken_lower htoken, if_pos rfl, Ascii.lower_lower]

theorem headerName?_append
    {s t : String}
    (hs : headerName? s = some s) (ht : headerName? t = some t) :
    headerName? (s ++ t) = some (s ++ t) := by
  have hlower : Ascii.lower (s ++ t) = s ++ t := by
    rw [Ascii.lower_append, ← lower_of_headerName? hs, ← lower_of_headerName? ht]
  have htoken : Ascii.isToken (s ++ t).toList = true := by
    unfold headerName? at hs ht
    split at hs
    case isFalse => cases hs
    case isTrue hsToken =>
      split at ht
      case isFalse => cases ht
      case isTrue htToken =>
        simp only [Ascii.isToken, Bool.and_eq_true, String.toList_append, List.all_append] at *
        exact ⟨by simp_all, hsToken.2, htToken.2⟩
  rw [headerName?, if_pos htoken, hlower]

namespace HeaderValue

/-- A value that shows as text is the bytes of that text. -/
theorem bytes_of_text?
    {v : HeaderValue} {s : String}
    (h : text? v = some s) :
    Utf8.bytes s = v := by
  unfold text? at h
  split at h
  case isFalse => cases h
  case isTrue hv =>
    obtain rfl := Option.some.inj h
    unfold Utf8.bytes
    rw [String.toList_ofList]
    clear h
    induction v with
    | nil => rfl
    | cons b v ih =>
        rw [List.all_cons, Bool.and_eq_true] at hv
        have hb : b.toNat < 128 := by
          have hvisible := hv.1
          simp only [Ascii.isVisible, Bool.or_eq_true, Bool.and_eq_true, decide_eq_true_eq,
            beq_iff_eq, UInt8.lt_iff_toNat_lt, UInt8.le_iff_toNat_le, ← UInt8.toNat_inj,
            UInt8.reduceToNat] at hvisible
          omega
        have hrest := ih hv.2
        have hsingle := Utf8.encode_singleton_of_lt hb
        rw [UInt8.ofNat_toNat] at hsingle
        rw [List.map_cons, ← List.singleton_append, Utf8.encode_append, hsingle, hrest]
        rfl

/-- A text that was read off a header line may stand in one. -/
theorem ofText?_of_text?
    {v : HeaderValue} {s : String}
    (h : text? v = some s) :
    ofText? s = some v := by
  have hlegal : isLegal v = true := by
    unfold text? at h
    split at h
    case isFalse => cases h
    case isTrue hv =>
      rw [List.all_eq_true] at hv
      unfold isLegal
      rw [List.all_eq_true]
      intro b hb
      have hvisible := hv b hb
      simp only [Ascii.isVisible, Ascii.isHeaderByte, Bool.or_eq_true, Bool.and_eq_true,
        decide_eq_true_eq, beq_iff_eq, bne_iff_ne, ne_eq, UInt8.lt_iff_toNat_lt,
        UInt8.le_iff_toNat_le, ← UInt8.toNat_inj, UInt8.reduceToNat] at hvisible ⊢
      omega
  unfold ofText?
  simp only [bytes_of_text? h, hlegal, if_true]

theorem isLegal_of_ofText?
    {s : String} {v : HeaderValue}
    (h : ofText? s = some v) :
    isLegal v = true := by
  simp only [ofText?, Option.ite_none_right_eq_some, Option.some.injEq] at h
  obtain ⟨hlegal, rfl⟩ := h
  exact hlegal

theorem bytes_of_ofText?
    {s : String} {v : HeaderValue}
    (h : ofText? s = some v) :
    Utf8.bytes s = v := by
  simp only [ofText?, Option.ite_none_right_eq_some, Option.some.injEq] at h
  exact h.2

end HeaderValue

namespace HeaderMap

/-- What every header map that came over the wire is like. -/
structure Legal (h : HeaderMap) : Prop where
  sound : Keyed.Sound h.groups
  names : ∀ g ∈ h.groups, headerName? g.1 = some g.1
  values : ∀ g ∈ h.groups, ∀ v ∈ g.2, HeaderValue.isLegal v = true

theorem mem_lines_iff
    (h : HeaderMap) (name : String) (v : HeaderValue) :
    (name, v) ∈ h.lines ↔ ∃ vs, (name, vs) ∈ h.groups ∧ v ∈ vs := by
  simp only [lines, List.mem_flatMap, List.mem_map, Prod.mk.injEq]
  constructor
  · rintro ⟨⟨name', vs⟩, hg, v', hv, rfl, rfl⟩
    exact ⟨vs, hg, hv⟩
  · rintro ⟨vs, hg, hv⟩
    exact ⟨(name, vs), hg, v, hv, rfl, rfl⟩

theorem Legal.lower_eq
    {h : HeaderMap}
    (hl : h.Legal) {line : String × HeaderValue} (hline : line ∈ h.lines) :
    Ascii.lower line.1 = line.1 := by
  obtain ⟨name, v⟩ := line
  obtain ⟨vs, hg, -⟩ := (h.mem_lines_iff name v).mp hline
  exact (lower_of_headerName? (hl.names _ hg)).symm

theorem legal_empty : empty.Legal :=
  ⟨Keyed.sound_nil, by simp [empty], by simp [empty]⟩

/-- A change that leaves legal values under a legal name keeps a map legal. -/
theorem Legal.alter
    {h : HeaderMap}
    (hl : h.Legal) {name : String} {f : Option (List HeaderValue) → List HeaderValue}
    (hname : headerName? name = some name) (hf : ∀ vs, f vs ≠ [])
    (hnone : ∀ v ∈ f none, HeaderValue.isLegal v = true)
    (hsome : ∀ vs, (∀ v ∈ vs, HeaderValue.isLegal v = true) →
      ∀ v ∈ f (some vs), HeaderValue.isLegal v = true) :
    Legal ⟨Keyed.alter name f h.groups⟩ := by
  refine ⟨hl.sound.alter name hf, ?_, ?_⟩
  · intro g hg
    rcases Keyed.mem_alter hg with hg | ⟨hkey, -⟩
    · exact hl.names g hg
    · rw [hkey, hname]
  · intro g hg
    rcases Keyed.mem_alter hg with hg | ⟨-, hnew | ⟨vs, hvs, hnew⟩⟩
    · exact hl.values g hg
    · rw [hnew]
      exact hnone
    · rw [hnew]
      exact hsome vs (hl.values _ hvs)

theorem Legal.append
    {h : HeaderMap}
    (hl : h.Legal) {name : String} {v : HeaderValue}
    (hname : headerName? name = some name) (hv : HeaderValue.isLegal v = true) :
    (h.append name v).Legal := by
  refine hl.alter hname (by simp) (by simpa using hv) ?_
  intro vs hvs w hw
  rcases List.mem_append.mp hw with hw | hw
  · exact hvs w hw
  · rwa [List.mem_singleton.mp hw]

theorem Legal.appendAll
    {h : HeaderMap}
    (hl : h.Legal) {lines : List (String × HeaderValue)}
    (hlines : ∀ line ∈ lines,
      headerName? line.1 = some line.1 ∧ HeaderValue.isLegal line.2 = true) :
    Legal ⟨Keyed.appendAll lines h.groups⟩ := by
  induction lines generalizing h with
  | nil => exact hl
  | cons line lines ih =>
      obtain ⟨hname, hvalue⟩ := hlines line (List.mem_cons_self ..)
      exact ih (hl.append hname hvalue) fun other hother =>
        hlines other (List.mem_cons_of_mem _ hother)

theorem Legal.foldl_append
    {h : HeaderMap}
    (hl : h.Legal) {name : String} {vs : List HeaderValue}
    (hname : headerName? name = some name) (hvs : ∀ v ∈ vs, HeaderValue.isLegal v = true) :
    (vs.foldl (fun h v => h.append name v) h).Legal := by
  induction vs generalizing h with
  | nil => exact hl
  | cons v vs ih =>
      exact ih (hl.append hname (hvs v (List.mem_cons_self ..)))
        fun w hw => hvs w (List.mem_cons_of_mem _ hw)

theorem Legal.insert
    {h : HeaderMap}
    (hl : h.Legal) {name : String} {v : HeaderValue}
    (hname : headerName? name = some name) (hv : HeaderValue.isLegal v = true) :
    (h.insert name v).Legal :=
  hl.alter hname (by simp) (by simpa using hv) fun _ _ => by simpa using hv

/-!
## Values
-/

theorem getAll_insert
    (h : HeaderMap) (name other : String) (v : HeaderValue) :
    (h.insert name v).getAll other = if other = name then [v] else h.getAll other := by
  unfold getAll insert
  rw [Keyed.lookup_put]
  split <;> rfl

theorem getAll_foldl_append
    (h : HeaderMap) (name other : String) (vs : List HeaderValue) :
    (vs.foldl (fun h v => h.append name v) h).getAll other =
      h.getAll other ++ if other = name then vs else [] := by
  induction vs generalizing h with
  | nil => simp
  | cons v vs ih =>
      rw [List.foldl_cons, ih, getAll_append]
      by_cases hname : other = name
      · subst hname
        simp
      · simp [hname]

theorem Legal.valuesIn_lines
    {h : HeaderMap}
    (hl : h.Legal) (name : String) :
    Keyed.valuesIn name h.lines = h.getAll name :=
  Keyed.valuesIn_flatten hl.sound.nodup name

theorem Legal.name_of_getAll_ne_nil
    {h : HeaderMap}
    (hl : h.Legal) {name : String} (hsome : h.getAll name ≠ []) :
    headerName? name = some name := by
  by_contra hname
  apply hsome
  apply Keyed.values_eq_nil_of_not_mem
  intro hmem
  obtain ⟨g, hg, rfl⟩ := List.mem_map.mp hmem
  exact hname (hl.names g hg)

end HeaderMap
end RpcGateway
