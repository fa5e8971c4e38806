import RpcGateway.Proofs.Route.Spelling

/-!
# Where the custom verb is split off

**Colons.**  A colon outside braces is a `FreeColon`.  Compiling looks for the last one in what
stands behind the last slash, before it looks at any segment, so braces may be left open there, or
be closed too often; a brace that closes nothing is not counted.  `splitColon_eq_some_iff` says that
the last free colon is found whatever the braces are like.

**Offsets.**  A text can only be cut between two characters.  `lastOffset?` looks for a place in one
pass over the characters and counts their bytes; it finds what `splitColon` finds
(`lastOffset?_isFreeColon`), and all the offsets at which a template is cut are valid positions in
it (`isValid_of_mem_cuts`).
-/

namespace RpcGateway
namespace RouteTemplate

/-- How many braces are open behind a character. -/
def braces (depth : Nat) (c : Char) : Nat :=
  if c = '\x7b' then depth + 1 else if c = '\x7d' then depth - 1 else depth

/-- A colon that stands where no brace is open. -/
structure FreeColon (depth : Nat) (cs before behind : List Char) : Prop where
  split : cs = before ++ ':' :: behind
  free : before.foldl braces depth = 0

/-- The last colon that stands where no brace is open. -/
structure LastColon (depth : Nat) (cs before behind : List Char) : Prop where
  colon : FreeColon depth cs before behind
  last : ∀ before' behind', FreeColon depth cs before' behind' → before'.length ≤ before.length

theorem freeColon_cons_iff
    {depth : Nat} {c : Char} {cs before behind : List Char} :
    FreeColon depth (c :: cs) before behind ↔
      (before = [] ∧ c = ':' ∧ cs = behind ∧ depth = 0) ∨
        ∃ rest, before = c :: rest ∧ FreeColon (braces depth c) cs rest behind := by
  constructor
  · rintro ⟨hsplit, hfree⟩
    cases before with
    | nil =>
        obtain ⟨rfl, rfl⟩ := List.cons.inj hsplit
        exact Or.inl ⟨rfl, rfl, rfl, hfree⟩
    | cons c' rest =>
        obtain ⟨rfl, htail⟩ := List.cons.inj hsplit
        exact Or.inr ⟨rest, rfl, htail, hfree⟩
  · rintro (⟨rfl, rfl, rfl, hfree⟩ | ⟨rest, rfl, hsplit, hfree⟩)
    · exact ⟨rfl, hfree⟩
    · exact ⟨congrArg (c :: ·) hsplit, hfree⟩

/-- What is found is the last colon outside braces, and if nothing is found, there is none. -/
theorem splitColon_spec
    (depth : Nat) (cs : List Char) :
    match splitColon depth cs with
    | some (before, behind) => LastColon depth cs before behind
    | none => ∀ before behind, ¬ FreeColon depth cs before behind := by
  induction cs generalizing depth with
  | nil =>
      rintro before behind ⟨hsplit, -⟩
      simp at hsplit
  | cons c cs ih =>
      have hrest := ih (braces depth c)
      have hstep : splitColon depth (c :: cs) =
          match splitColon (braces depth c) cs with
          | some (before, behind) => some (c :: before, behind)
          | none => if c = ':' ∧ depth = 0 then some ([], cs) else none := rfl
      rw [hstep]
      cases hfound : splitColon (braces depth c) cs with
      | some found =>
          obtain ⟨before, behind⟩ := found
          rw [hfound] at hrest
          refine ⟨freeColon_cons_iff.mpr (.inr ⟨before, rfl, hrest.colon⟩), fun before' behind' h => ?_⟩
          rcases freeColon_cons_iff.mp h with ⟨rfl, -⟩ | ⟨rest, rfl, hfree⟩
          · exact Nat.zero_le _
          · exact Nat.succ_le_succ (hrest.last rest behind' hfree)
      | none =>
          rw [hfound] at hrest
          dsimp only at hrest ⊢
          split
          case h_1 before behind hcolon =>
            split_ifs at hcolon with hfirst
            obtain ⟨rfl, rfl⟩ := Prod.mk.inj (Option.some.inj hcolon)
            refine ⟨freeColon_cons_iff.mpr (.inl ⟨rfl, hfirst.1, rfl, hfirst.2⟩), ?_⟩
            intro before' behind' h
            rcases freeColon_cons_iff.mp h with ⟨rfl, -⟩ | ⟨rest, rfl, hfree⟩
            · exact Nat.le_refl _
            · exact absurd hfree (hrest rest behind')
          case h_2 hcolon =>
            split_ifs at hcolon with hfirst
            intro before behind h
            rcases freeColon_cons_iff.mp h with ⟨-, rfl, -, rfl⟩ | ⟨rest, -, hfree⟩
            · exact hfirst ⟨rfl, rfl⟩
            · exact hrest rest behind hfree

theorem LastColon.unique
    {depth : Nat} {cs before behind before' behind' : List Char}
    (h : LastColon depth cs before behind) (h' : LastColon depth cs before' behind') :
    before = before' ∧ behind = behind' := by
  have hlength : before.length = before'.length :=
    Nat.le_antisymm (h'.last _ _ h.colon) (h.last _ _ h'.colon)
  have hsplit : before ++ ':' :: behind = before' ++ ':' :: behind' :=
    h.colon.split.symm.trans h'.colon.split
  obtain ⟨hbefore, hbehind⟩ := List.append_inj hsplit hlength
  exact ⟨hbefore, (List.cons.inj hbehind).2⟩

theorem splitColon_eq_some_iff
    {depth : Nat} {cs before behind : List Char} :
    splitColon depth cs = some (before, behind) ↔ LastColon depth cs before behind := by
  have hspec := splitColon_spec depth cs
  constructor
  · intro h
    rw [h] at hspec
    exact hspec
  · intro h
    cases hfound : splitColon depth cs with
    | none =>
        rw [hfound] at hspec
        exact absurd h.colon (hspec before behind)
    | some found =>
        rw [hfound] at hspec
        obtain ⟨rfl, rfl⟩ := h.unique hspec
        rfl

theorem splitColon_eq_none_iff
    {depth : Nat} {cs : List Char} :
    splitColon depth cs = none ↔ ∀ before behind, ¬ FreeColon depth cs before behind := by
  have hspec := splitColon_spec depth cs
  constructor
  · intro h
    rw [h] at hspec
    exact hspec
  · intro h
    cases hfound : splitColon depth cs with
    | none => rfl
    | some found =>
        rw [hfound] at hspec
        exact absurd hspec.colon (h found.1 found.2)

/-- The custom verb is what stands behind the last colon outside braces in the last piece. -/
theorem splitCustomVerb_concat_eq_ok_iff
    {front raws : List (List Char)} {last : List Char} {customVerb : Option String} :
    splitCustomVerb (front ++ [last]) = .ok (raws, customVerb) ↔
      (customVerb = none ∧ raws = front ++ [last] ∧
        ∀ before behind, ¬ FreeColon 0 last before behind) ∨
      ∃ before verb, customVerb = some (String.ofList verb) ∧ raws = front ++ [before] ∧
        LastColon 0 last before verb ∧ verb ≠ [] ∧ ∀ c ∈ verb, isCustomVerbChar c = true := by
  unfold splitCustomVerb
  rw [List.getLast?_concat]
  dsimp only
  cases hcolon : splitColon 0 last with
  | none =>
      have hnone := splitColon_eq_none_iff.mp hcolon
      constructor
      · intro h
        obtain ⟨rfl, rfl⟩ := Prod.mk.inj (Except.ok.inj h)
        exact Or.inl ⟨rfl, rfl, hnone⟩
      · rintro (⟨rfl, rfl, -⟩ | ⟨before, verb, -, -, hlast, -⟩)
        · rfl
        · exact absurd hlast.colon (hnone before verb)
  | some found =>
      obtain ⟨before, verb⟩ := found
      have hfound := splitColon_eq_some_iff.mp hcolon
      dsimp only
      rw [List.dropLast_concat]
      constructor
      · intro h
        split_ifs at h with hempty hverb
        obtain ⟨rfl, rfl⟩ := Prod.mk.inj (Except.ok.inj h)
        refine Or.inr ⟨before, verb, rfl, rfl, hfound, ?_, List.all_eq_true.mp hverb⟩
        exact fun hnil => hempty (List.isEmpty_iff.mpr hnil)
      · rintro (⟨-, -, hnone⟩ | ⟨before', verb', rfl, rfl, hlast, hsome, hverb⟩)
        · exact absurd hfound.colon (hnone before verb)
        · obtain ⟨rfl, rfl⟩ := hlast.unique hfound
          rw [if_neg (by simpa using hsome), if_pos (List.all_eq_true.mpr hverb)]

/-- The braces of a written form are even. -/
theorem Spelled.braces_eq_zero
    {segment : Segment} {raw : List Char}
    (h : Spelled segment raw) :
    raw.foldl braces 0 = 0 := by
  have hplain : ∀ (depth : Nat) (cs : List Char), (∀ c ∈ cs, isBrace c = false) →
      cs.foldl braces depth = depth := by
    intro depth cs hcs
    induction cs with
    | nil => rfl
    | cons c cs ih =>
        obtain ⟨hc, hrest⟩ := List.forall_mem_cons.mp hcs
        have hstep : braces depth c = depth := by
          rw [isBrace, Bool.or_eq_false_iff, beq_eq_false_iff_ne, beq_eq_false_iff_ne] at hc
          rw [braces, if_neg hc.1, if_neg hc.2]
        rw [List.foldl_cons, hstep]
        exact ih hrest
  cases raw with
  | nil => rfl
  | cons c cs =>
      by_cases hc : c = '\x7b'
      · subst hc
        obtain ⟨inner, rfl, hinner⟩ := h.braced
        rw [List.foldl_cons, List.foldl_append, hplain _ inner hinner]
        rfl
      · exact hplain 0 _ ((spelled_cons_iff_of_ne hc).mp h).2.1

/-- In front of a custom verb stands the last colon outside braces. -/
theorem lastColon_append_verb
    {before verb : List Char}
    (hbefore : before.foldl braces 0 = 0) (hverb : ∀ c ∈ verb, isCustomVerbChar c = true) :
    LastColon 0 (before ++ ':' :: verb) before verb := by
  refine ⟨⟨rfl, hbefore⟩, ?_⟩
  rintro before' behind' ⟨hsplit, -⟩
  refine Nat.le_of_not_lt fun hlonger => ?_
  obtain ⟨middle, rfl, htail⟩ | ⟨middle, rfl, -⟩ := List.append_eq_append_iff.mp hsplit
  · cases middle with
    | nil => simp at hlonger
    | cons c middle =>
        obtain ⟨-, rfl⟩ := List.cons.inj htail
        refine not_mem_of_isCustomVerbChar hverb (by decide) (?_ : ':' ∈ _)
        simp
  · rw [List.length_append] at hlonger
    omega

/-!
## Offsets
-/

/-- The number of bytes of a text. -/
def size (cs : List Char) : Nat :=
  (String.ofList cs).utf8ByteSize

@[simp] theorem size_nil :
    size [] = 0 := by
  rfl

@[simp] theorem size_cons
    (c : Char) (cs : List Char) :
    size (c :: cs) = c.utf8Size + size cs := by
  rw [size, String.ofList_cons, String.utf8ByteSize_append, String.utf8ByteSize_singleton, size]

@[simp] theorem size_append
    (cs ds : List Char) :
    size (cs ++ ds) = size cs + size ds := by
  rw [size, String.ofList_append, String.utf8ByteSize_append, size, size]

/-- Behind a beginning of a text one may cut it. -/
theorem isValid_size
    (before behind : List Char) :
    String.Pos.Raw.IsValid (String.ofList (before ++ behind)) ⟨size before⟩ :=
  String.Pos.Raw.isValid_iff_exists_append.mpr
    ⟨String.ofList before, String.ofList behind, String.ofList_append, rfl⟩

/-- The offset of the last character that passes a test, found in one pass.  The state sums up the
characters before, and `found` is what was found among them. -/
def lastOffset? {σ : Type} (next : σ → Char → σ) (test : σ → Char → Bool) (state : σ)
    (offset : Nat) (found : Option Nat) : List Char → Option Nat
  | [] => found
  | c :: cs =>
      lastOffset? next test (next state c) (offset + c.utf8Size)
        (if test state c then some offset else found) cs

/-- Whether a character is a colon and no brace is open before it. -/
def isFreeColon (depth : Nat) (c : Char) : Bool :=
  c == ':' && depth == 0

/-- Where the offset behind the last slash is, or the start of a text without slashes. -/
def lastStart (body : List Char) : Nat :=
  (lastOffset? (fun _ _ => ()) (fun _ c => c == '/') () 0 none body).elim 0 (· + 1)

/-- What stands behind the last slash. -/
def lastPiece (body : List Char) : List Char :=
  (body.splitOn '/').getLast (List.splitOn_ne_nil '/' body)

/-- The offsets at which a template is cut: before its last piece, and before and behind the last
colon outside braces in there. -/
def cuts (body : List Char) : List Nat :=
  lastStart body ::
    match lastOffset? braces isFreeColon 0 0 none (lastPiece body) with
    | none => []
    | some i => [lastStart body + i, lastStart body + i + 1]

theorem lastOffset?_append
    {σ : Type} {next : σ → Char → σ} {test : σ → Char → Bool} (state : σ) (offset : Nat)
    (found : Option Nat) (cs ds : List Char) :
    lastOffset? next test state offset found (cs ++ ds) =
      lastOffset? next test (cs.foldl next state) (offset + size cs)
        (lastOffset? next test state offset found cs) ds := by
  induction cs generalizing state offset found with
  | nil => rfl
  | cons c cs ih =>
      rw [List.cons_append, lastOffset?, ih, List.foldl_cons, size_cons, Nat.add_assoc]
      rfl

theorem lastOffset?_eq_found
    {σ : Type} {next : σ → Char → σ} {test : σ → Char → Bool} {state : σ} {offset : Nat}
    {found : Option Nat} {cs : List Char}
    (h : ∀ state, ∀ c ∈ cs, test state c = false) :
    lastOffset? next test state offset found cs = found := by
  induction cs generalizing state offset with
  | nil => rfl
  | cons c cs ih =>
      rw [lastOffset?, h state c (List.mem_cons_self ..), if_neg Bool.false_ne_true]
      exact ih fun state d hd => h state d (List.mem_cons_of_mem _ hd)

/-- The pass over characters and offsets finds the colon at which a text is split. -/
theorem lastOffset?_isFreeColon
    (depth offset : Nat) (found : Option Nat) (cs : List Char) :
    lastOffset? braces isFreeColon depth offset found cs =
      ((splitColon depth cs).map fun parts => offset + size parts.1).or found := by
  induction cs generalizing depth offset found with
  | nil => rfl
  | cons c cs ih =>
      have hstep : splitColon depth (c :: cs) =
          match splitColon (braces depth c) cs with
          | some (before, behind) => some (c :: before, behind)
          | none => if c = ':' ∧ depth = 0 then some ([], cs) else none := rfl
      rw [lastOffset?, ih, hstep]
      cases splitColon (braces depth c) cs with
      | some parts => simp [Nat.add_assoc]
      | none =>
          by_cases hcolon : c = ':' ∧ depth = 0
          · simp [isFreeColon, hcolon]
          · simp [isFreeColon, hcolon]

/-- What is behind the last of several pieces is behind them all. -/
theorem intercalate_concat_append
    {α : Type} (x : α) (front : List (List α)) (last tail : List α) :
    [x].intercalate (front ++ [last ++ tail]) = [x].intercalate (front ++ [last]) ++ tail := by
  induction front with
  | nil => simp
  | cons piece rest ih =>
      have hsome : ∀ piece' : List α, rest ++ [piece'] ≠ [] := by simp
      rw [List.cons_append, List.cons_append, List.intercalate_cons_of_ne_nil (hsome _),
        List.intercalate_cons_of_ne_nil (hsome _), ih, List.append_assoc]
      simp

theorem intercalate_concat_nil
    {α : Type} (x : α) {front : List (List α)}
    (h : front ≠ []) :
    [x].intercalate (front ++ [[]]) = [x].intercalate front ++ [x] := by
  induction front with
  | nil => exact absurd rfl h
  | cons piece rest ih =>
      rcases eq_or_ne rest [] with rfl | hrest
      · simp [List.intercalate_cons_cons]
      · rw [List.cons_append, List.intercalate_cons_of_ne_nil (by simp), ih hrest,
          List.intercalate_cons_of_ne_nil hrest]
        simp

/-- The offset behind the last slash is where the last piece starts. -/
theorem exists_front_of_lastPiece
    (body : List Char) :
    ∃ front, body = front ++ lastPiece body ∧ size front = lastStart body := by
  obtain ⟨front, last, hpieces⟩ : ∃ front last, body.splitOn '/' = front ++ [last] :=
    ⟨_, _, (List.dropLast_concat_getLast (List.splitOn_ne_nil '/' body)).symm⟩
  have hlast : lastPiece body = last := by simp [lastPiece, hpieces]
  have hslash : ∀ (state : Unit), ∀ c ∈ last, (c == '/') = false := by
    rintro _ c hc
    rw [beq_eq_false_iff_ne]
    rintro rfl
    exact not_mem_of_mem_splitOn (hpieces ▸ List.mem_append_right _ (List.mem_singleton_self _)) hc
  have hbody : body = ['/'].intercalate (front ++ [[]]) ++ last := by
    rw [← intercalate_concat_append, List.nil_append, ← hpieces, List.intercalate_splitOn]
  refine ⟨['/'].intercalate (front ++ [[]]), hlast ▸ hbody, ?_⟩
  rw [lastStart, hbody, lastOffset?_append, lastOffset?_eq_found hslash]
  rcases eq_or_ne front [] with rfl | hfront
  · rfl
  · have hbyte : '/'.utf8Size = 1 := rfl
    rw [intercalate_concat_nil '/' hfront, lastOffset?_append]
    simp [lastOffset?, hbyte]

/-- Every offset at which a template is cut lies between two characters. -/
theorem isValid_of_mem_cuts
    {body : List Char} {n : Nat}
    (h : n ∈ cuts body) :
    String.Pos.Raw.IsValid (String.ofList body) ⟨n⟩ := by
  obtain ⟨front, hbody, hsize⟩ := exists_front_of_lastPiece body
  rw [cuts, ← hsize, lastOffset?_isFreeColon, Option.or_none] at h
  rcases List.mem_cons.mp h with rfl | h
  · rw [hbody]
    exact isValid_size front (lastPiece body)
  · cases hcolon : splitColon 0 (lastPiece body) with
    | none =>
        rw [hcolon] at h
        cases h
    | some parts =>
        obtain ⟨before, behind⟩ := parts
        have hlast := (splitColon_eq_some_iff.mp hcolon).colon.split
        rw [hcolon] at h
        simp only [Option.map_some, Nat.zero_add, List.mem_cons, List.not_mem_nil, or_false] at h
        rcases h with rfl | rfl
        · rw [hbody, hlast, ← List.append_assoc, ← size_append]
          exact isValid_size (front ++ before) (':' :: behind)
        · have hbyte : size front + size before + 1 = size (front ++ (before ++ [':'])) := by
            simp only [size_append, size_cons, size_nil, Nat.add_assoc]
            rfl
          have hsplit : front ++ (before ++ ':' :: behind) =
              front ++ (before ++ [':']) ++ behind := by simp
          rw [hbody, hlast, hbyte, hsplit]
          exact isValid_size _ behind

end RouteTemplate
end RpcGateway
