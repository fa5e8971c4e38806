import Mathlib.Data.List.DropRight
import RpcGateway.Config.Basic

/-!
# The verdict on a configuration

A configuration is checked in a fixed order, and the first check that fails decides.

**Checks.**  `Judged` is the verdict of a list of checks.  Checks have one verdict
(`Judged.unique`): success if all of them hold, and otherwise the fault of the first that does not.

**Hosts.**  The host of an endpoint stands in what is in front of the next `/`, `?` or `#`, between
the user before `@` and the socket number behind `:`.

**Result.**  `validate_judged` says what the check of the endpoint comes to: behind the scheme there
has to be something else than slashes.  That is to have a host for exactly the endpoints of which
the second part of the theorem tells.
-/

namespace RpcGateway

/-- What has to hold, and the fault that is reported if it does not. -/
structure Check where
  holds : Prop
  fault : SetupFault

namespace Check

/-- The verdict of checks that are made in order. -/
inductive Judged : List Check → Except SetupFault Unit → Prop
  | sound : Judged [] (.ok ())
  | passed {check : Check} {later : List Check} {verdict : Except SetupFault Unit}
      (hholds : check.holds) (h : Judged later verdict) :
      Judged (check :: later) verdict
  | failed {check : Check} {later : List Check}
      (hfails : ¬ check.holds) :
      Judged (check :: later) (.error check.fault)

variable {checks : List Check} {verdict : Except SetupFault Unit}

theorem Judged.unique
    {other : Except SetupFault Unit}
    (h : Judged checks verdict) (hother : Judged checks other) :
    verdict = other := by
  induction h with
  | sound =>
      cases hother
      rfl
  | passed hholds _ ih =>
      cases hother with
      | passed _ hlater => exact ih hlater
      | failed hfails => exact absurd hholds hfails
  | failed hfails =>
      cases hother with
      | passed hholds _ => exact absurd hholds hfails
      | failed _ => rfl

theorem judged_ok_iff :
    Judged checks (.ok ()) ↔ ∀ check ∈ checks, check.holds := by
  induction checks with
  | nil => exact ⟨fun _ => by simp, fun _ => .sound⟩
  | cons check later ih =>
      rw [List.forall_mem_cons]
      constructor
      · rintro (_ | ⟨hholds, h⟩ | _)
        exact ⟨hholds, ih.mp h⟩
      · rintro ⟨hholds, h⟩
        exact .passed hholds (ih.mpr h)

theorem Judged.behind
    {check : Check} {later : List Check}
    (h : Judged (check :: later) verdict) (hholds : check.holds) :
    Judged later verdict := by
  cases h with
  | passed _ hlater => exact hlater
  | failed hfails => exact absurd hholds hfails

/-- Checks may be replaced where they are made. -/
theorem Judged.mapBehind
    {check : Check} {later instead : List Check}
    (h : Judged (check :: later) verdict)
    (hinstead : check.holds → Judged later verdict → Judged instead verdict) :
    Judged (check :: instead) verdict := by
  cases h with
  | passed hholds hlater => exact .passed hholds (hinstead hholds hlater)
  | failed hfails => exact .failed hfails

/-- A check may be replaced by one that comes to the same. -/
theorem Judged.congr
    {check other : Check} {later : List Check}
    (h : Judged (check :: later) verdict) (hfault : check.fault = other.fault)
    (hiff : check.holds ↔ other.holds) :
    Judged (other :: later) verdict := by
  cases h with
  | passed hholds hlater => exact .passed (hiff.mp hholds) hlater
  | failed hfails =>
      rw [hfault]
      exact .failed fun hother => hfails (hiff.mpr hother)

end Check

namespace GatewayConfig

/-!
## Endpoints
-/

/-- An endpoint is a scheme and what stands behind it. -/
def Behind (endpoint : String) (rest : List Char) : Prop :=
  ∃ scheme ∈ ["http://", "https://"], endpoint.toList = scheme.toList ++ rest

/-- What stands in front of path, query and fragment. -/
def authority (rest : List Char) : List Char :=
  rest.takeWhile fun c => c ≠ '/' && c ≠ '?' && c ≠ '#'

/-- The host of an authority; it may stand in brackets. -/
def host (authority : List Char) : List Char :=
  match authority.rtakeWhile (· ≠ '@') with
  | '[' :: inside => inside.takeWhile (· ≠ ']')
  | plain => plain.takeWhile (· ≠ ':')

theorem withoutScheme?_eq_some_iff
    {endpoint : String} {rest : List Char} :
    withoutScheme? endpoint = some rest ↔ Behind endpoint rest := by
  unfold withoutScheme?
  constructor
  · intro h
    split at h
    · rename_i front hplain
      cases h
      exact ⟨"http://", by simp, (List.isPrefixOf?_eq_some_iff_append_eq.mp hplain).symm⟩
    · exact ⟨"https://", by simp, (List.isPrefixOf?_eq_some_iff_append_eq.mp h).symm⟩
  · rintro ⟨scheme, hscheme, h⟩
    simp only [List.mem_cons, List.not_mem_nil, or_false] at hscheme
    rw [h]
    rcases hscheme with rfl | rfl <;> rfl

theorem Behind.unique
    {endpoint : String} {rest other : List Char}
    (h : Behind endpoint rest) (hother : Behind endpoint other) :
    rest = other := by
  rw [← withoutScheme?_eq_some_iff] at h hother
  exact Option.some.inj (h.symm.trans hother)

/-- In front of slashes only there is no host. -/
theorem host_authority_of_slashes
    {rest : List Char}
    (h : ∀ c ∈ rest, c = '/') :
    host (authority rest) = [] := by
  cases rest with
  | nil => rfl
  | cons c rest =>
      obtain ⟨rfl, -⟩ := List.forall_mem_cons.mp h
      rfl

/-!
## Checks
-/

/-- The checks of an endpoint, if there is one; `HasHost` is what has to hold behind the scheme. -/
def endpointChecks (HasHost : List Char → Prop) : Option String → List Check
  | none => []
  | some endpoint =>
      [⟨∃ rest, Behind endpoint rest,
          .invalidEndpoint endpoint "endpoint must start with http:// or https://"⟩,
        ⟨∀ rest, Behind endpoint rest → HasHost rest,
          .invalidEndpoint endpoint "endpoint has no host"⟩]

/-- The checks of a configuration, in order. -/
def checks (HasHost : List Char → Prop) (c : GatewayConfig) : List Check :=
  [⟨∃ char ∈ c.id.toList, Blank.isBlank char = false, .emptyGatewayId⟩,
    ⟨SocketAddress.isValid c.listenAddress = true, .invalidListenAddress c.listenAddress⟩] ++
  endpointChecks HasHost c.remoteEndpoint ++
  [⟨c.connectTimeoutMs ≠ 0, .invalidTimeout⟩, ⟨c.maxBodyBytes ≠ 0, .invalidBodyLimit⟩]

/-- There is something else than slashes. -/
def NotSlashes (rest : List Char) : Prop :=
  ∃ char ∈ rest, char ≠ '/'

/-- There is a host in front of path, query and fragment. -/
def HasHost (rest : List Char) : Prop :=
  host (authority rest) ≠ []

/-- The last two checks that are made. -/
def validateLimits (c : GatewayConfig) : Except SetupFault Unit := do
  if c.connectTimeoutMs = 0 then throw .invalidTimeout
  if c.maxBodyBytes = 0 then throw .invalidBodyLimit

theorem validate_of_blank
    {c : GatewayConfig}
    (hblank : c.id.toList.all Blank.isBlank = true) :
    c.validate = .error .emptyGatewayId := by
  unfold validate
  simp only [if_pos hblank]
  rfl

theorem validate_of_address
    {c : GatewayConfig}
    (hid : ¬ c.id.toList.all Blank.isBlank = true)
    (haddress : SocketAddress.isValid c.listenAddress = false) :
    c.validate = .error (.invalidListenAddress c.listenAddress) := by
  unfold validate
  simp only [if_neg hid, haddress]
  rfl

theorem validate_eq_bind
    {c : GatewayConfig}
    (hid : ¬ c.id.toList.all Blank.isBlank = true)
    (haddress : SocketAddress.isValid c.listenAddress = true) :
    c.validate =
      ((c.remoteEndpoint.map validateEndpoint).getD (.ok ())).bind fun _ => c.validateLimits := by
  unfold validate
  simp only [if_neg hid, haddress]
  cases c.remoteEndpoint <;> rfl

theorem judged_validateLimits (c : GatewayConfig) :
    Check.Judged
      [⟨c.connectTimeoutMs ≠ 0, .invalidTimeout⟩, ⟨c.maxBodyBytes ≠ 0, .invalidBodyLimit⟩]
      c.validateLimits := by
  unfold validateLimits
  by_cases htimeout : c.connectTimeoutMs = 0
  · rw [if_pos htimeout]
    exact .failed fun h => h htimeout
  · rw [if_neg htimeout]
    refine .passed htimeout ?_
    by_cases hbody : c.maxBodyBytes = 0
    · rw [if_pos hbody]
      exact .failed fun h => h hbody
    · rw [if_neg hbody]
      exact .passed hbody .sound

theorem judged_validateEndpoint
    {later : List Check} {verdict : Except SetupFault Unit}
    (h : Check.Judged later verdict) (endpoint : Option String) :
    Check.Judged (endpointChecks NotSlashes endpoint ++ later)
      (((endpoint.map validateEndpoint).getD (.ok ())).bind fun _ => verdict) := by
  cases endpoint with
  | none => exact h
  | some endpoint =>
      simp only [Option.map_some, Option.getD_some, validateEndpoint]
      cases hscheme : withoutScheme? endpoint with
      | none =>
          refine .failed ?_
          rintro ⟨rest, hrest⟩
          rw [withoutScheme?_eq_some_iff.mpr hrest] at hscheme
          cases hscheme
      | some rest =>
          have hbehind := withoutScheme?_eq_some_iff.mp hscheme
          refine .passed ⟨rest, hbehind⟩ ?_
          by_cases hslashes : rest.all (· == '/') = true
          · simp only [if_pos hslashes]
            refine .failed fun hholds => ?_
            obtain ⟨char, hchar, hne⟩ := hholds rest hbehind
            exact hne (beq_iff_eq.mp (List.all_eq_true.mp hslashes char hchar))
          · simp only [if_neg hslashes]
            refine .passed (fun other hother => ?_) h
            cases hbehind.unique hother
            simpa [NotSlashes] using hslashes

/-- What the checks of `validate` come to. -/
theorem judged_validate (c : GatewayConfig) :
    Check.Judged (c.checks NotSlashes) c.validate := by
  by_cases hblank : c.id.toList.all Blank.isBlank = true
  · rw [validate_of_blank hblank]
    refine .failed ?_
    rintro ⟨char, hchar, hnot⟩
    rw [List.all_eq_true.mp hblank char hchar] at hnot
    cases hnot
  · have hid : ∃ char ∈ c.id.toList, Blank.isBlank char = false := by simpa using hblank
    refine .passed hid ?_
    by_cases haddress : SocketAddress.isValid c.listenAddress = true
    · rw [validate_eq_bind hblank haddress]
      exact .passed haddress
        (judged_validateEndpoint c.judged_validateLimits c.remoteEndpoint)
    · rw [validate_of_address hblank (Bool.eq_false_iff.mpr haddress)]
      exact .failed haddress

/-- In a configuration that passes, the listen address is one, and the endpoint has a scheme. -/
theorem holds_of_validate
    {c : GatewayConfig}
    (h : c.validate = .ok ()) :
    SocketAddress.isValid c.listenAddress = true ∧
      ∀ endpoint, c.remoteEndpoint = some endpoint → ∃ rest, Behind endpoint rest := by
  have hjudged := c.judged_validate
  rw [h, Check.judged_ok_iff] at hjudged
  refine ⟨hjudged ⟨_, .invalidListenAddress c.listenAddress⟩ (by simp [checks]),
    fun endpoint hendpoint => ?_⟩
  exact hjudged
    ⟨_, .invalidEndpoint endpoint "endpoint must start with http:// or https://"⟩
    (by simp [checks, endpointChecks, hendpoint])

/-!
## The verdict
-/

/-- The endpoint has a host, or there is nothing but slashes where it could be. -/
def EndpointClear (c : GatewayConfig) : Prop :=
  ∀ endpoint rest, c.remoteEndpoint = some endpoint → Behind endpoint rest →
    HasHost rest ∨ ∀ char ∈ rest, char = '/'

/-- To look for slashes is to look for a host where an endpoint is clear. -/
theorem EndpointClear.hasHost_iff
    {c : GatewayConfig} {endpoint : String}
    (h : c.EndpointClear) (hendpoint : c.remoteEndpoint = some endpoint) :
    (∀ rest, Behind endpoint rest → NotSlashes rest) ↔
      ∀ rest, Behind endpoint rest → HasHost rest := by
  refine forall₂_congr fun rest hbehind => ?_
  constructor
  · rintro ⟨char, hchar, hne⟩
    rcases h endpoint rest hendpoint hbehind with hhost | hslashes
    · exact hhost
    · exact absurd (hslashes char hchar) hne
  · intro hhost
    by_contra hslashes
    simp only [NotSlashes, not_exists, not_and, not_not] at hslashes
    exact hhost (host_authority_of_slashes hslashes)

/-- The verdict is the one that is meant if and only if the endpoint is clear where it is checked. -/
theorem validate_judged (c : GatewayConfig) :
    Check.Judged (c.checks NotSlashes) c.validate ∧
    (Check.Judged (c.checks HasHost) c.validate ↔
      ((∃ char ∈ c.id.toList, Blank.isBlank char = false) →
        SocketAddress.isValid c.listenAddress = true → c.EndpointClear)) := by
  have hmade := c.judged_validate
  refine ⟨hmade, fun hmeant hid haddress endpoint rest hendpoint hbehind => ?_, fun h => ?_⟩
  · by_contra hunclear
    obtain ⟨hnone, hslashes⟩ := not_or.mp hunclear
    have hother : NotSlashes rest := by simpa [NotSlashes] using hslashes
    rw [checks, hendpoint] at hmade hmeant
    have hlimits := (((hmade.behind hid).behind haddress).behind ⟨rest, hbehind⟩).behind
      fun other hbehind' => hbehind.unique hbehind' ▸ hother
    have hhost := ((hmeant.behind hid).behind haddress).behind ⟨rest, hbehind⟩
    have hverdict := hhost.unique (.failed fun hholds => hnone (hholds rest hbehind))
    rw [hverdict] at hlimits
    rcases hlimits with _ | ⟨-, _ | ⟨-, _ | _⟩⟩
  · cases hendpoint : c.remoteEndpoint with
    | none =>
        rw [checks, hendpoint] at hmade ⊢
        exact hmade
    | some endpoint =>
        rw [checks, hendpoint] at hmade ⊢
        refine hmade.mapBehind fun hid hbehind => hbehind.mapBehind fun haddress hbehind =>
          hbehind.mapBehind fun _ hbehind => hbehind.congr rfl ?_
        exact (h hid haddress).hasHost_iff hendpoint

/-- A configuration whose endpoint has a socket number and no host. -/
def hostless : GatewayConfig := { standard with remoteEndpoint := some "http://:80" }

theorem hostless_passes :
    hostless.validate = .ok () ∧ ¬ Check.Judged (hostless.checks HasHost) hostless.validate := by
  have hvalidate : hostless.validate = .ok () := by rfl
  refine ⟨hvalidate, fun hmeant => ?_⟩
  rw [hvalidate, Check.judged_ok_iff] at hmeant
  have hhost : ∀ rest, Behind "http://:80" rest → HasHost rest :=
    hmeant ⟨_, .invalidEndpoint "http://:80" "endpoint has no host"⟩
      (by simp [checks, endpointChecks, hostless])
  have hbehind : Behind "http://:80" ":80".toList := ⟨"http://", by simp, rfl⟩
  exact hhost ":80".toList hbehind rfl

end GatewayConfig
end RpcGateway
