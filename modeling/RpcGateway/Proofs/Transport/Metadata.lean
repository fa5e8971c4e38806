import RpcGateway.Proofs.Http.HeaderMap
import RpcGateway.Proofs.Metadata.Basic
import RpcGateway.Transport.Metadata

/-!
# Reading metadata off the wire

What the header lines of a message carry as metadata, key by key.

**Carried names.**  A name is carried if it is for text and is not a part of the framing; so no name
that begins with `grpc-` is.
-/

namespace RpcGateway
namespace WireMetadata

/-- Whether lines of a name are read as metadata. -/
def isCarried (name : String) : Bool :=
  !(isBinary name || isFraming name)

/-- The pair that a header line adds to the metadata. -/
def pair? (line : String × HeaderValue) : Option (String × String) :=
  if isCarried line.1 then (HeaderValue.text? line.2).map fun value => (line.1, value) else none

theorem readLine_eq
    (m : Metadata) (line : String × HeaderValue) :
    readLine m line = m.appendAll (pair? line).toList := by
  unfold readLine pair? isCarried
  cases isBinary line.1 || isFraming line.1 with
  | true => rfl
  | false => cases HeaderValue.text? line.2 <;> rfl

theorem pair?_eq_some_iff
    {line : String × HeaderValue} {p : String × String} :
    pair? line = some p ↔
      isCarried line.1 = true ∧ ∃ value, HeaderValue.text? line.2 = some value ∧
        p = (line.1, value) := by
  unfold pair?
  split
  case isTrue hc =>
    rw [Option.map_eq_some_iff]
    simp only [hc, true_and]
    simp only [eq_comm]
  case isFalse hc => simp [hc]

theorem read_eq
    (h : HeaderMap) :
    read h = .ofList (h.lines.filterMap pair?) :=
  Metadata.foldl_eq_appendAll readLine_eq h.lines .empty

theorem sound_read
    (h : HeaderMap) :
    (read h).Sound := by
  rw [read_eq]
  exact Metadata.sound_ofList _

/-- The pairs of lines hold the texts among the values of a carried name. -/
theorem valuesIn_filterMap_pair?
    (lines : List (String × HeaderValue)) (name : String) :
    Keyed.valuesIn name (lines.filterMap pair?) =
      if isCarried name then (Keyed.valuesIn name lines).filterMap HeaderValue.text? else [] := by
  induction lines with
  | nil => simp [Keyed.valuesIn]
  | cons line lines ih =>
      obtain ⟨n, v⟩ := line
      rw [List.filterMap_cons, Keyed.valuesIn_cons, List.filterMap_append]
      by_cases hn : n = name
      · subst hn
        by_cases hc : isCarried n = true
        · cases hv : HeaderValue.text? v with
          | none => simpa [pair?, hc, hv] using ih
          | some value => simpa [pair?, hc, hv, Keyed.valuesIn_cons] using ih
        · simpa [pair?, hc] using ih
      · cases hp : pair? (n, v) with
        | none => simpa [hn] using ih
        | some p =>
            obtain ⟨-, value, -, rfl⟩ := pair?_eq_some_iff.mp hp
            simpa [hn, Keyed.valuesIn_cons] using ih

/-- What is read under a key are the texts among the values of its name, if that is carried. -/
theorem getAll_read
    {h : HeaderMap}
    (hl : h.Legal) (k : String) :
    (read h).getAll k =
      if isCarried (Ascii.lower k) then
        (h.getAll (Ascii.lower k)).filterMap HeaderValue.text?
      else [] := by
  have hfolded : (h.lines.filterMap pair?).map Metadata.folded = h.lines.filterMap pair? := by
    refine Metadata.map_folded_eq_self fun p hp => ?_
    obtain ⟨line, hline, hpair⟩ := List.mem_filterMap.mp hp
    obtain ⟨-, value, -, rfl⟩ := pair?_eq_some_iff.mp hpair
    exact hl.lower_eq hline
  rw [read_eq, Metadata.ofList, Metadata.getAll_appendAll, hfolded, valuesIn_filterMap_pair?,
    hl.valuesIn_lines, Metadata.getAll_empty, List.nil_append]

theorem getAll_read_of_not_carried
    {h : HeaderMap}
    (hl : h.Legal) {k : String} (hk : isCarried (Ascii.lower k) = false) :
    (read h).getAll k = [] := by
  rw [getAll_read hl, hk]
  rfl

theorem name_of_getAll_read_ne_nil
    {h : HeaderMap}
    (hl : h.Legal) {k : String} (hk : (read h).getAll k ≠ []) :
    headerName? (Ascii.lower k) = some (Ascii.lower k) := by
  apply hl.name_of_getAll_ne_nil
  intro hnil
  apply hk
  rw [getAll_read hl, hnil]
  simp

/-- Whatever is read may stand in a header line again. -/
theorem ofText?_of_mem_getAll_read
    {h : HeaderMap}
    (hl : h.Legal) {k value : String} (hvalue : value ∈ (read h).getAll k) :
    HeaderValue.ofText? value = some (Utf8.bytes value) := by
  rw [getAll_read hl] at hvalue
  split at hvalue
  · obtain ⟨v, -, hv⟩ := List.mem_filterMap.mp hvalue
    rw [HeaderValue.bytes_of_text? hv]
    exact HeaderValue.ofText?_of_text? hv
  · cases hvalue

theorem isCarried_grpc_append
    (rest : String) :
    isCarried ("grpc-" ++ rest) = false := by
  have hgrpc : "grpc-".toList.isPrefixOf ("grpc-" ++ rest).toList = true := by
    rw [String.toList_append]
    exact List.isPrefixOf_iff_prefix.mpr (List.prefix_append _ _)
  simp only [isCarried, isFraming, hgrpc, Bool.true_or, Bool.or_true, Bool.not_true]

end WireMetadata
end RpcGateway
