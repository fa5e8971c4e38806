import RpcGateway.Proofs.Transport.Metadata
import RpcGateway.Transport.Channel

/-!
# The metadata of a reply

Which header lines of a peer's reply are read as its metadata.

**Two parts.**  `header` is the metadata in front of the message and `trailer` the metadata behind
it.  `Delivers` says which lines are read in their place, one constructor for each kind of reply.

**Results.**
* `exists_delivers`: whatever is read of a reply is read as one header, and the trailer is empty;
* `getAll_read_overridden`: of a successful reply that is the trailer over the header;
* `Delivers.getAll_read`: of a reply with nothing behind the message it is the header, unless the
  reply is one of which nothing in front of the message is kept.
-/

namespace RpcGateway
namespace PeerChannel

/-!
## Lines that replace lines
-/

theorem getAll_replace
    (h : HeaderMap) (name : String) (vs : List HeaderValue) (other : String) :
    (replace h name vs).getAll other =
      if other = name ∧ vs ≠ [] then vs else h.getAll other := by
  cases vs with
  | nil => simp [replace]
  | cons v vs =>
      rw [replace, HeaderMap.getAll_foldl_append, HeaderMap.getAll_insert]
      by_cases hname : other = name <;> simp [hname]

theorem legal_replace
    {h : HeaderMap} {name : String} {vs : List HeaderValue}
    (hl : h.Legal) (hname : headerName? name = some name)
    (hvs : ∀ v ∈ vs, HeaderValue.isLegal v = true) :
    (replace h name vs).Legal := by
  cases vs with
  | nil => exact hl
  | cons v vs =>
      have hinsert := hl.insert hname (hvs v (List.mem_cons_self ..))
      exact hinsert.foldl_append hname fun w hw => hvs w (List.mem_cons_of_mem _ hw)

theorem getAll_foldl_replace
    {groups : Keyed (List HeaderValue)}
    (hs : Keyed.Sound groups) (h : HeaderMap) (name : String) :
    (groups.foldl (fun h g => replace h g.1 g.2) h).getAll name =
      if Keyed.values name groups = [] then h.getAll name else Keyed.values name groups := by
  induction groups generalizing h with
  | nil => rfl
  | cons g groups ih =>
      have hfilled := hs.filled g (List.mem_cons_self ..)
      rw [List.foldl_cons, ih hs.tail, getAll_replace, Keyed.values_cons]
      by_cases hname : name = g.1
      · -- the names are distinct, so nothing replaces these values again
        have hnot : name ∉ Keyed.keys groups := by
          rw [hname]
          exact (List.nodup_cons.mp hs.nodup).1
        rw [if_pos (Keyed.values_eq_nil_of_not_mem hnot)]
        simp [hname, hfilled]
      · simp [hname]

/-- A map with other lines over it has their values where they have some, and its own elsewhere. -/
theorem getAll_overridden
    (h : HeaderMap) {later : HeaderMap}
    (hlater : later.Legal) (name : String) :
    (overridden h later).getAll name =
      if later.getAll name = [] then h.getAll name else later.getAll name :=
  getAll_foldl_replace hlater.sound h name

theorem legal_overridden
    {h later : HeaderMap}
    (hl : h.Legal) (hlater : later.Legal) :
    (overridden h later).Legal := by
  have hnames := hlater.names
  have hvalues := hlater.values
  unfold overridden
  generalize later.groups = groups at hnames hvalues
  induction groups generalizing h with
  | nil => exact hl
  | cons g groups ih =>
      have hg := legal_replace hl (hnames g (List.mem_cons_self ..))
        (hvalues g (List.mem_cons_self ..))
      exact ih hg (fun g' hg' => hnames g' (List.mem_cons_of_mem _ hg'))
        fun g' hg' => hvalues g' (List.mem_cons_of_mem _ hg')

theorem getAll_without
    (h : HeaderMap) (names : List String) (name : String) :
    (WireStatus.without h names).getAll name =
      if names.contains name then [] else h.getAll name := by
  have hvalues := Keyed.values_filter (fun n => !names.contains n) name h.groups
  refine hvalues.trans ?_
  cases names.contains name <;> rfl

theorem legal_without
    {h : HeaderMap}
    (hl : h.Legal) (names : List String) :
    (WireStatus.without h names).Legal := by
  refine ⟨⟨?_, ?_⟩, ?_, ?_⟩
  · exact hl.sound.nodup.sublist (List.filter_sublist.map Prod.fst)
  · exact fun g hg => hl.sound.filled g (List.mem_of_mem_filter hg)
  · exact fun g hg => hl.names g (List.mem_of_mem_filter hg)
  · exact fun g hg => hl.values g (List.mem_of_mem_filter hg)

/-- The lines of a status are no metadata. -/
theorem getAll_read_without
    {h : HeaderMap}
    (hl : h.Legal) (k : String) :
    (WireMetadata.read (WireStatus.without h WireStatus.names)).getAll k =
      (WireMetadata.read h).getAll k := by
  have hnames : ∀ name ∈ WireStatus.names, WireMetadata.isCarried name = false := by decide
  rw [WireMetadata.getAll_read (legal_without hl _), WireMetadata.getAll_read hl, getAll_without]
  by_cases hname : WireStatus.names.contains (Ascii.lower k) = true
  · rw [hnames _ (List.contains_iff_mem.mp hname)]
    rfl
  · rw [if_neg hname]

end PeerChannel

/-!
## Kinds of replies
-/

namespace WireResponse

/-- The metadata in front of the message. -/
def header (reply : WireResponse) : Metadata :=
  WireMetadata.read reply.headers

/-- The metadata behind the message. -/
def trailer (reply : WireResponse) : Metadata :=
  WireMetadata.read (reply.trailers.getD .empty)

/-- Legal lines, and nothing but text in those behind the message that are metadata. -/
structure Textual (reply : WireResponse) : Prop where
  headers : reply.headers.Legal
  trailers : (reply.trailers.getD .empty).Legal
  texts : ∀ line ∈ (reply.trailers.getD .empty).lines,
    WireMetadata.isCarried line.1 = true → (HeaderValue.text? line.2).isSome

/-- A reply that states no failure. -/
def Accepts (reply : WireResponse) : Prop :=
  (∃ status, WireStatus.read? reply.headers = some status ∧ status.code = .ok) ∨
    WireStatus.read? reply.headers = none ∧ WireStatus.judge reply.status reply.trailers = none

/-- A reply that can be read, with a message and without a failure. -/
structure Succeeds (reply : WireResponse) : Prop where
  readable : PeerChannel.codingFault? reply.headers = none
  message : reply.message.isSome
  accepts : reply.Accepts

/-- A reply of which nothing in front of the message is kept: it is in a coding that cannot be read,
its message is missing, or a failure is stated behind the message. -/
inductive Discards (reply : WireResponse) : Prop
  | coded
      (hcoded : (PeerChannel.codingFault? reply.headers).isSome)
  | missing
      (hmessage : reply.message = none) (haccepts : reply.Accepts)
  | failed
      (hmessage : reply.message.isSome) (hfront : WireStatus.read? reply.headers = none)
      (hfails : (WireStatus.judge reply.status reply.trailers).isSome)

/-- The lines of a reply that are read as metadata. -/
inductive Delivers (reply : WireResponse) : HeaderMap → Prop
  | coded
      (hcoded : (PeerChannel.codingFault? reply.headers).isSome) :
      Delivers reply .empty
  | missing
      (hmessage : reply.message = none) (haccepts : reply.Accepts) :
      Delivers reply .empty
  | failedBehind {status : Status} {lines : HeaderMap}
      (hmessage : reply.message.isSome) (hfront : WireStatus.read? reply.headers = none)
      (hfails : WireStatus.judge reply.status reply.trailers = some (status, lines)) :
      Delivers reply lines
  | failedBare {status : Status} {lines : HeaderMap}
      (hreadable : PeerChannel.codingFault? reply.headers = none)
      (hmessage : reply.message = none) (hfront : WireStatus.read? reply.headers = none)
      (hfails : WireStatus.judge reply.status reply.trailers = some (status, lines)) :
      Delivers reply (PeerChannel.overridden lines reply.headers)
  | failedInFront {status : Status}
      (hreadable : PeerChannel.codingFault? reply.headers = none)
      (hfront : WireStatus.read? reply.headers = some status) (hfails : status.code ≠ .ok) :
      Delivers reply (WireStatus.without reply.headers WireStatus.names)
  | succeeded
      (hsucceeds : reply.Succeeds) :
      Delivers reply (PeerChannel.overridden reply.headers (reply.trailers.getD .empty))

variable {reply : WireResponse} {lines : HeaderMap}

theorem Succeeds.not_discards
    (h : reply.Succeeds) :
    ¬ reply.Discards := by
  rintro (hcoded | ⟨hmessage, -⟩ | ⟨-, hfront, hfails⟩)
  · rw [h.readable] at hcoded
    cases hcoded
  · have hsome := h.message
    rw [hmessage] at hsome
    cases hsome
  · rcases h.accepts with ⟨status, hstatus, -⟩ | ⟨-, hnone⟩
    · rw [hstatus] at hfront
      cases hfront
    · rw [hnone] at hfails
      cases hfails

/-!
## What is read
-/

/-- Whatever is read of a reply is read as one header; the trailer is empty. -/
theorem exists_delivers
    (reply : WireResponse) :
    ∃ lines, reply.Delivers lines ∧
      (PeerChannel.readAnswer reply).metadata = ⟨WireMetadata.read lines, .empty⟩ := by
  unfold PeerChannel.readAnswer
  cases hcoding : PeerChannel.codingFault? reply.headers with
  | some status =>
      exact ⟨.empty, .coded (by rw [hcoding]; rfl), rfl⟩
  | none =>
      have haccepted : reply.Accepts → ∃ lines, reply.Delivers lines ∧
          (PeerChannel.readMessage reply none).metadata =
            ⟨WireMetadata.read lines, .empty⟩ := by
        intro haccepts
        unfold PeerChannel.readMessage
        cases hmessage : reply.message with
        | none => exact ⟨.empty, .missing hmessage haccepts, rfl⟩
        | some payload =>
            exact ⟨_, .succeeded ⟨hcoding, by rw [hmessage]; rfl, haccepts⟩, rfl⟩
      dsimp only
      cases hfront : WireStatus.read? reply.headers with
      | none =>
          dsimp only
          cases hjudge : WireStatus.judge reply.status reply.trailers with
          | none => exact haccepted (Or.inr ⟨hfront, hjudge⟩)
          | some failure =>
              obtain ⟨status, lines⟩ := failure
              unfold PeerChannel.readMessage
              cases hmessage : reply.message with
              | none => exact ⟨_, .failedBare hcoding hmessage hfront hjudge, rfl⟩
              | some payload =>
                  exact ⟨lines, .failedBehind (by rw [hmessage]; rfl) hfront hjudge, rfl⟩
      | some status =>
          dsimp only
          split
          case isTrue hok => exact haccepted (Or.inl ⟨status, hfront, hok⟩)
          case isFalse hfails => exact ⟨_, .failedInFront hcoding hfront hfails, rfl⟩

/-- The lines that come with a failure are none, or those behind the message without its status. -/
theorem lines_of_judge
    {http : Nat} {trailers : Option HeaderMap} {status : Status} {lines : HeaderMap}
    (h : WireStatus.judge http trailers = some (status, lines)) :
    lines = .empty ∨ lines = WireStatus.without (trailers.getD .empty) WireStatus.names := by
  unfold WireStatus.judge at h
  split at h
  · rename_i s after hread
    split_ifs at h
    obtain ⟨-, rfl⟩ := Prod.mk.inj (Option.some.inj h)
    obtain ⟨t, rfl, hstatus⟩ := Option.bind_eq_some_iff.mp hread
    obtain ⟨s', hs', heq⟩ := Option.map_eq_some_iff.mp hstatus
    exact Or.inr (Prod.mk.inj heq).2.symm
  · obtain ⟨code, hcode, heq⟩ := Option.map_eq_some_iff.mp h
    exact Or.inl (Prod.mk.inj heq).2.symm

theorem legal_of_judge
    {status : Status}
    (ht : reply.Textual)
    (h : WireStatus.judge reply.status reply.trailers = some (status, lines)) :
    lines.Legal := by
  rcases lines_of_judge h with rfl | rfl
  · exact HeaderMap.legal_empty
  · exact PeerChannel.legal_without ht.trailers _

theorem getAll_read_of_judge
    {status : Status}
    (ht : reply.Textual)
    (h : WireStatus.judge reply.status reply.trailers = some (status, lines))
    {k : String} (hnone : reply.trailer.getAll k = []) :
    (WireMetadata.read lines).getAll k = [] := by
  rcases lines_of_judge h with rfl | rfl
  · rfl
  · rw [PeerChannel.getAll_read_without ht.trailers]
    exact hnone

theorem Delivers.legal
    (h : reply.Delivers lines) (ht : reply.Textual) :
    lines.Legal := by
  cases h with
  | coded hcoded => exact HeaderMap.legal_empty
  | missing hmessage haccepts => exact HeaderMap.legal_empty
  | failedBehind hmessage hfront hfails => exact legal_of_judge ht hfails
  | failedBare hreadable hmessage hfront hfails =>
      exact PeerChannel.legal_overridden (legal_of_judge ht hfails) ht.headers
  | failedInFront hreadable hfront hfails => exact PeerChannel.legal_without ht.headers _
  | succeeded hsucceeds => exact PeerChannel.legal_overridden ht.headers ht.trailers

/-- What is read of a successful reply: the trailer where it has values, the header elsewhere. -/
theorem getAll_read_overridden
    (ht : reply.Textual) (k : String) :
    (WireMetadata.read
      (PeerChannel.overridden reply.headers (reply.trailers.getD .empty))).getAll k =
      if reply.trailer.getAll k = [] then reply.header.getAll k else reply.trailer.getAll k := by
  unfold trailer header
  rw [WireMetadata.getAll_read (PeerChannel.legal_overridden ht.headers ht.trailers),
    WireMetadata.getAll_read ht.headers, WireMetadata.getAll_read ht.trailers,
    PeerChannel.getAll_overridden _ ht.trailers]
  by_cases hc : WireMetadata.isCarried (Ascii.lower k) = true
  · simp only [hc, if_true]
    by_cases hnil : (reply.trailers.getD .empty).getAll (Ascii.lower k) = []
    · simp [hnil]
    · -- a carried value behind the message is text, so there is one
      obtain ⟨v, hv⟩ := List.exists_mem_of_ne_nil _ hnil
      have hline : (Ascii.lower k, v) ∈ (reply.trailers.getD .empty).lines := by
        rw [← ht.trailers.valuesIn_lines] at hv
        exact Keyed.mem_valuesIn_iff.mp hv
      obtain ⟨value, hvalue⟩ := Option.isSome_iff_exists.mp (ht.texts _ hline hc)
      have hsome : ((reply.trailers.getD .empty).getAll (Ascii.lower k)).filterMap
          HeaderValue.text? ≠ [] :=
        List.ne_nil_of_mem (List.mem_filterMap.mpr ⟨v, hv, hvalue⟩)
      rw [if_neg hnil, if_neg hsome]
  · simp [hc]

/-- What is read of a failed reply without a message is its header, if nothing is behind. -/
theorem getAll_read_bare
    {status : Status}
    (ht : reply.Textual)
    (h : WireStatus.judge reply.status reply.trailers = some (status, lines))
    {k : String} (hnone : reply.trailer.getAll k = []) :
    (WireMetadata.read (PeerChannel.overridden lines reply.headers)).getAll k =
      reply.header.getAll k := by
  have hl := legal_of_judge ht h
  have hread := getAll_read_of_judge ht h hnone
  unfold header
  rw [WireMetadata.getAll_read hl] at hread
  rw [WireMetadata.getAll_read (PeerChannel.legal_overridden hl ht.headers),
    WireMetadata.getAll_read ht.headers, PeerChannel.getAll_overridden _ ht.headers]
  by_cases hnil : reply.headers.getAll (Ascii.lower k) = []
  · rw [if_pos hnil, hread, hnil]
    simp
  · rw [if_neg hnil]

/-- Of a reply with nothing behind its message the header is read, unless the reply is one of which
nothing in front of the message is kept. -/
theorem Delivers.getAll_read
    (h : reply.Delivers lines) (ht : reply.Textual) (hnone : reply.trailer = .empty) :
    (reply.Discards ∧ ∀ k, (WireMetadata.read lines).getAll k = []) ∨
      ¬ reply.Discards ∧ ∀ k, (WireMetadata.read lines).getAll k = reply.header.getAll k := by
  have htrailer : ∀ k, reply.trailer.getAll k = [] := by
    intro k
    rw [hnone]
    rfl
  cases h with
  | coded hcoded => exact Or.inl ⟨.coded hcoded, fun k => rfl⟩
  | missing hmessage haccepts => exact Or.inl ⟨.missing hmessage haccepts, fun k => rfl⟩
  | failedBehind hmessage hfront hfails =>
      refine Or.inl ⟨.failed hmessage hfront (by rw [hfails]; rfl), fun k => ?_⟩
      exact getAll_read_of_judge ht hfails (htrailer k)
  | failedBare hreadable hmessage hfront hfails =>
      refine Or.inr ⟨?_, fun k => ?_⟩
      · rintro (hcoded | ⟨-, haccepts⟩ | ⟨hmessage', -, -⟩)
        · rw [hreadable] at hcoded
          cases hcoded
        · rcases haccepts with ⟨status, hstatus, -⟩ | ⟨-, hjudge⟩
          · rw [hfront] at hstatus
            cases hstatus
          · rw [hfails] at hjudge
            cases hjudge
        · rw [hmessage] at hmessage'
          cases hmessage'
      · exact getAll_read_bare ht hfails (htrailer k)
  | failedInFront hreadable hfront hfails =>
      refine Or.inr ⟨?_, PeerChannel.getAll_read_without ht.headers⟩
      rintro (hcoded | ⟨-, haccepts⟩ | ⟨-, hfront', -⟩)
      · rw [hreadable] at hcoded
        cases hcoded
      · rcases haccepts with ⟨status', hstatus', hok⟩ | ⟨hfront', -⟩
        · rw [hfront] at hstatus'
          obtain rfl := Option.some.inj hstatus'
          exact hfails hok
        · rw [hfront] at hfront'
          cases hfront'
      · rw [hfront] at hfront'
        cases hfront'
  | succeeded hsucceeds =>
      refine Or.inr ⟨hsucceeds.not_discards, fun k => ?_⟩
      rw [getAll_read_overridden ht, htrailer, if_pos rfl]

end WireResponse
end RpcGateway
