import RpcGateway.Metadata.Lines
import RpcGateway.Proofs.Http.HeaderMap
import RpcGateway.Proofs.Metadata.Basic

/-!
# The header lines of call metadata

Which lines the metadata of a call makes, name by name.

**Names.**  The lines of a header key stand under the key itself, those of a trailer key under the
marked key.  A name that begins with the mark can come from both parts.
-/

namespace RpcGateway
namespace HeaderMap

theorem getAll_appendLines
    (h : HeaderMap) (key : String) (values : List String) (name : String) :
    (h.appendLines key values).getAll name =
      h.getAll name ++
        if headerName? key = some name then values.filterMap HeaderValue.ofText? else [] := by
  unfold appendLines
  cases hkey : headerName? key with
  | none => simp
  | some n =>
      simp only [Option.some.injEq]
      rw [getAll_foldl_append]
      simp only [eq_comm]

/-- The lines that the keys of a multimap make under a name, each key with a mark before it. -/
theorem getAll_foldl_appendLines
    (mark : String) (es : Keyed (List String)) (h : HeaderMap) (name : String) :
    (es.foldl (fun h e => h.appendLines (mark ++ e.1) e.2) h).getAll name =
      h.getAll name ++ es.flatMap fun e =>
        if headerName? (mark ++ e.1) = some name then e.2.filterMap HeaderValue.ofText? else [] := by
  induction es generalizing h with
  | nil => simp
  | cons e es ih =>
      rw [List.foldl_cons, ih, getAll_appendLines, List.flatMap_cons, List.append_assoc]

end HeaderMap

namespace Metadata

/-- A marked name stands for a key in lower case if and only if it is that key with the mark. -/
theorem headerName?_mark_append_iff
    {mark key k : String}
    (hmark : Ascii.lower mark = mark) (hkey : Ascii.lower key = key)
    (hname : headerName? (mark ++ k) = some (mark ++ k)) :
    headerName? (mark ++ key) = some (mark ++ k) ↔ key = k := by
  constructor
  · intro h
    have hlower := lower_of_headerName? h
    rw [Ascii.lower_append, hmark, hkey, String.append_right_inj] at hlower
    exact hlower.symm
  · rintro rfl
    exact hname

/-- The lines of metadata, each key with a mark before it. -/
theorem getAll_foldl_appendLines
    {m : Metadata} {mark k : String}
    (hm : m.Sound) (hmark : Ascii.lower mark = mark)
    (hname : headerName? (mark ++ k) = some (mark ++ k)) (h : HeaderMap) :
    (m.entries.foldl (fun h e => h.appendLines (mark ++ e.1) e.2) h).getAll (mark ++ k) =
      h.getAll (mark ++ k) ++ (m.getAll k).filterMap HeaderValue.ofText? := by
  rw [HeaderMap.getAll_foldl_appendLines]
  have hk : Ascii.lower k = k :=
    (Ascii.lower_append_eq_self_iff hmark k).mp (lower_of_headerName? hname).symm
  have hentries : ∀ e ∈ m.entries,
      (if headerName? (mark ++ e.1) = some (mark ++ k) then e.2.filterMap HeaderValue.ofText?
        else []) = if e.1 = k then e.2.filterMap HeaderValue.ofText? else [] := by
    intro e he
    have hkey := hm.lower e.1 (List.mem_map_of_mem he)
    simp only [headerName?_mark_append_iff hmark hkey hname]
  rw [List.flatMap_congr hentries, Keyed.flatMap_eq_values hm.keyed.nodup rfl]
  unfold getAll
  rw [hk]
  rfl

/-- The line of a pair, its key with a mark before it, if it makes one. -/
def line? (mark : String) (p : String × String) : Option (String × HeaderValue) :=
  match headerName? (mark ++ p.1), HeaderValue.ofText? p.2 with
  | some name, some value => some (name, value)
  | _, _ => none

theorem line?_eq_some_iff
    {mark : String} {p : String × String} {line : String × HeaderValue} :
    line? mark p = some line ↔
      headerName? (mark ++ p.1) = some line.1 ∧ HeaderValue.ofText? p.2 = some line.2 := by
  obtain ⟨name, value⟩ := line
  unfold line?
  cases headerName? (mark ++ p.1) with
  | none => simp
  | some name' =>
      cases HeaderValue.ofText? p.2 with
      | none => simp
      | some value' => simp

theorem legal_of_line?
    {mark : String} {p : String × String} {line : String × HeaderValue}
    (h : line? mark p = some line) :
    headerName? line.1 = some line.1 ∧ HeaderValue.isLegal line.2 = true := by
  obtain ⟨hname, hvalue⟩ := line?_eq_some_iff.mp h
  exact ⟨headerName?_idem hname, HeaderValue.isLegal_of_ofText? hvalue⟩

/-- The lines of an entry are those of its pairs. -/
theorem groups_appendLines
    (mark : String) (e : String × List String) (h : HeaderMap) :
    (h.appendLines (mark ++ e.1) e.2).groups =
      Keyed.appendAll ((e.2.map fun v => (e.1, v)).filterMap (line? mark)) h.groups := by
  obtain ⟨key, values⟩ := e
  unfold HeaderMap.appendLines
  cases hname : headerName? (mark ++ key) with
  | none =>
      have hnone : (values.map fun v => (key, v)).filterMap (line? mark) = [] := by
        simp [line?, hname]
      rw [hnone]
      rfl
  | some name =>
      simp only
      induction values generalizing h with
      | nil => rfl
      | cons v values ih =>
          cases hvalue : HeaderValue.ofText? v with
          | none =>
              rw [List.filterMap_cons_none hvalue, ih, List.map_cons,
                List.filterMap_cons_none (by simp [line?, hname, hvalue])]
          | some value =>
              rw [List.filterMap_cons_some hvalue, List.foldl_cons, ih, List.map_cons,
                List.filterMap_cons_some (b := (name, value)) (by simp [line?, hname, hvalue])]
              rfl

theorem groups_foldl_appendLines
    (mark : String) (es : Keyed (List String)) (h : HeaderMap) :
    (es.foldl (fun h e => h.appendLines (mark ++ e.1) e.2) h).groups =
      Keyed.appendAll ((Keyed.flatten es).filterMap (line? mark)) h.groups := by
  induction es generalizing h with
  | nil => rfl
  | cons e es ih =>
      have hflat : Keyed.flatten (e :: es) = (e.2.map fun v => (e.1, v)) ++ Keyed.flatten es := rfl
      rw [List.foldl_cons, ih, groups_appendLines, hflat, List.filterMap_append,
        Keyed.appendAll_concat]

end Metadata

namespace CallMetadata

theorem headerName?_trailerMark :
    headerName? trailerMark = some trailerMark := by
  decide

theorem lower_trailerMark :
    Ascii.lower trailerMark = trailerMark := by
  decide

theorem getAll_foldl_header
    {m : CallMetadata} {name : String}
    (hm : m.header.Sound) (hname : headerName? name = some name) (h : HeaderMap) :
    (m.header.entries.foldl (fun h e => h.appendLines e.1 e.2) h).getAll name =
      h.getAll name ++ (m.header.getAll name).filterMap HeaderValue.ofText? := by
  have hlower : Ascii.lower "" = "" := by decide
  have hplain := Metadata.getAll_foldl_appendLines (k := name) hm hlower (by simpa using hname) h
  simpa using hplain

/-- A name without the mark has the lines that were there and those of the header. -/
theorem getAll_writeLines_plain
    {m : CallMetadata} {name : String}
    (hm : m.header.Sound) (hname : headerName? name = some name)
    (hplain : ∀ k, name ≠ trailerMark ++ k) (h : HeaderMap) :
    (m.writeLines h).getAll name =
      h.getAll name ++ (m.header.getAll name).filterMap HeaderValue.ofText? := by
  unfold writeLines
  rw [HeaderMap.getAll_foldl_appendLines, getAll_foldl_header hm hname]
  have hnone : (m.trailer.entries.flatMap fun e =>
      if headerName? (trailerMark ++ e.1) = some name then e.2.filterMap HeaderValue.ofText?
      else []) = [] := by
    rw [List.flatMap_eq_nil_iff]
    intro e _
    rw [if_neg]
    intro heq
    have hlower := lower_of_headerName? heq
    rw [Ascii.lower_append, lower_trailerMark] at hlower
    exact hplain _ hlower
  rw [hnone, List.append_nil]

/-- A marked name has the lines that were there, those of the header and those of the trailer. -/
theorem getAll_writeLines_marked
    {m : CallMetadata} {k : String}
    (hheader : m.header.Sound) (htrailer : m.trailer.Sound)
    (hname : headerName? (trailerMark ++ k) = some (trailerMark ++ k)) (h : HeaderMap) :
    (m.writeLines h).getAll (trailerMark ++ k) =
      h.getAll (trailerMark ++ k) ++
        (m.header.getAll (trailerMark ++ k)).filterMap HeaderValue.ofText? ++
        (m.trailer.getAll k).filterMap HeaderValue.ofText? := by
  unfold writeLines
  rw [Metadata.getAll_foldl_appendLines htrailer lower_trailerMark hname,
    getAll_foldl_header hheader hname]

/-!
## All lines
-/

/-- The lines that call metadata makes, in order. -/
def lines (m : CallMetadata) : List (String × HeaderValue) :=
  m.header.pairs.filterMap (Metadata.line? "") ++
    m.trailer.pairs.filterMap (Metadata.line? trailerMark)

theorem groups_writeLines
    (m : CallMetadata) (h : HeaderMap) :
    (m.writeLines h).groups = Keyed.appendAll m.lines h.groups := by
  have hheader := Metadata.groups_foldl_appendLines "" m.header.entries h
  simp only [String.empty_append] at hheader
  rw [writeLines, Metadata.groups_foldl_appendLines, hheader, lines, Keyed.appendAll_concat]
  rfl

/-- Writing adds the values of the lines behind those that were there. -/
theorem getAll_writeLines
    (m : CallMetadata) (h : HeaderMap) (name : String) :
    (m.writeLines h).getAll name = h.getAll name ++ Keyed.valuesIn name m.lines := by
  have hvalues := Keyed.values_appendAll m.lines h.groups name
  rw [← groups_writeLines] at hvalues
  exact hvalues

theorem legal_writeLines
    {h : HeaderMap}
    (hl : h.Legal) (m : CallMetadata) :
    (m.writeLines h).Legal := by
  have heq : m.writeLines h = ⟨Keyed.appendAll m.lines h.groups⟩ :=
    congrArg HeaderMap.mk (groups_writeLines m h)
  rw [heq]
  apply hl.appendAll
  intro line hline
  rcases List.mem_append.mp hline with hline | hline
  · obtain ⟨p, -, hp⟩ := List.mem_filterMap.mp hline
    exact Metadata.legal_of_line? hp
  · obtain ⟨p, -, hp⟩ := List.mem_filterMap.mp hline
    exact Metadata.legal_of_line? hp

end CallMetadata
end RpcGateway
