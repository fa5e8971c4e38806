import RpcGateway.Proofs.Config.Environment
import RpcGateway.Proofs.Config.Loading
import RpcGateway.Proofs.Config.Validation
import RpcGateway.Proofs.Text.Decimal

/-!
# Texts that are loaded from the environment

The environment holds texts only, but a value is taken for a truth value or a number where it can
be, and a text member of the configuration is given the text of that.

**Kept texts.**  `Kept` says of a value that the text of what it is taken for is the value itself.
Leading zeros, a plus sign, an exponent and capital letters in a truth value are lost.

**Colons.**  The texts of truth values and numbers are plain: letters, digits, a minus sign and a
point.  A listen address and an endpoint have something else in them, so nothing but a text can have
been taken for one.

**Result.**  `load_texts`: what a configuration that was loaded has of the values of its variables.
-/

namespace RpcGateway

open Decimal (Denotes Canonical minInt64 maxInt64)

namespace Environment

/-!
## What a value is taken for
-/

/-- A value is the numeral of an integer of 64 bits. -/
def IsInteger (value : String) : Prop :=
  ∃ n, Denotes value.toList n ∧ minInt64 ≤ n ∧ n ≤ maxInt64

/-- What a value of the environment is taken for. -/
inductive TakenFor (value : String) : Scalar → Prop
  | flag (b : Bool)
      (hword : Ascii.lower value = Scalar.flagText b) :
      TakenFor value (.flag b)
  | whole {n : Int}
      (hwords : ∀ b, Ascii.lower value ≠ Scalar.flagText b)
      (hn : Denotes value.toList n) (hleast : minInt64 ≤ n) (hgreatest : n ≤ maxInt64) :
      TakenFor value (.whole n)
  | real {x : Binary64}
      (hwords : ∀ b, Ascii.lower value ≠ Scalar.flagText b) (hinteger : ¬ IsInteger value)
      (hx : Numeral.number? value.toList = some x) :
      TakenFor value (.real x)
  | text
      (hwords : ∀ b, Ascii.lower value ≠ Scalar.flagText b) (hinteger : ¬ IsInteger value)
      (hnumber : Numeral.number? value.toList = none) :
      TakenFor value (.text value)

theorem takenFor_scalar (value : String) : TakenFor value (scalar value) := by
  unfold scalar
  by_cases htrue : Ascii.lower value = "true"
  · simp only [if_pos htrue]
    exact .flag true htrue
  by_cases hfalse : Ascii.lower value = "false"
  · simp only [if_neg htrue, if_pos hfalse]
    exact .flag false hfalse
  simp only [if_neg htrue, if_neg hfalse]
  have hwords : ∀ b, Ascii.lower value ≠ Scalar.flagText b :=
    Bool.forall_bool.mpr ⟨hfalse, htrue⟩
  cases hwhole : Decimal.within? minInt64 maxInt64 value.toList with
  | some n =>
      obtain ⟨hn, hleast, hgreatest⟩ := Decimal.within?_eq_some_iff.mp hwhole
      exact .whole hwords hn hleast hgreatest
  | none =>
      have hinteger : ¬ IsInteger value := by
        rintro ⟨n, hn⟩
        rw [Decimal.within?_eq_some_iff.mpr hn] at hwhole
        cases hwhole
      cases hnumber : Numeral.number? value.toList with
      | some x => exact .real hwords hinteger hnumber
      | none => exact .text hwords hinteger hnumber

theorem text?_scalar_ne_none (value : String) : (scalar value).text? ≠ none := by
  have htaken := takenFor_scalar value
  generalize scalar value = v at htaken ⊢
  cases htaken <;> exact Option.some_ne_none _

/-- The text of what a value is taken for is the value. -/
structure Kept (value : String) : Prop where
  /-- A truth value is in lower case. -/
  word : ∀ b, Ascii.lower value = Scalar.flagText b → value = Scalar.flagText b
  /-- An integer has neither a plus sign, nor zeros in front, nor a minus sign in front of zero. -/
  integer : IsInteger value → Canonical value.toList
  /-- Another number is written without an exponent, and with as few digits as it needs. -/
  number : ∀ x, ¬ IsInteger value → Numeral.number? value.toList = some x →
    value.toList = x.positional

theorem kept_flagText (b : Bool) : Kept (Scalar.flagText b) where
  word other h := by
    have hlower : Ascii.lower (Scalar.flagText b) = Scalar.flagText b := by cases b <;> rfl
    exact hlower.symm.trans h
  integer := by
    rintro ⟨n, hn, -⟩
    rw [← Decimal.signed?_eq_some_iff] at hn
    cases b <;> cases hn
  number x _ hx := by cases b <;> cases hx

theorem text?_scalar_eq_iff
    {value : String} :
    (scalar value).text? = some value ↔ Kept value := by
  have htaken := takenFor_scalar value
  generalize scalar value = v at htaken ⊢
  cases htaken with
  | flag b hword =>
      rw [Scalar.text?, Option.some.injEq]
      constructor
      · rintro rfl
        exact kept_flagText b
      · exact fun h => (h.word b hword).symm
  | whole hwords hn hleast hgreatest =>
      rw [Scalar.text?, Option.some.injEq, Decimal.text, ← String.toList_inj, String.toList_ofList,
        hn.ofInt_eq_iff]
      constructor
      · exact fun h =>
          ⟨fun b hb => absurd hb (hwords b), fun _ => h,
            fun _ hnot => absurd ⟨_, hn, hleast, hgreatest⟩ hnot⟩
      · exact fun h => h.integer ⟨_, hn, hleast, hgreatest⟩
  | real hwords hinteger hx =>
      rw [Scalar.text?, Option.some.injEq, ← String.toList_inj, String.toList_ofList]
      constructor
      · refine fun h => ⟨fun b hb => absurd hb (hwords b), fun hi => absurd hi hinteger, ?_⟩
        intro x _ hx'
        rw [hx] at hx'
        cases hx'
        exact h.symm
      · exact fun h => (h.number _ hinteger hx).symm
  | text hwords hinteger hnumber =>
      refine ⟨fun _ => ⟨fun b hb => absurd hb (hwords b), fun hi => absurd hi hinteger, ?_⟩,
        fun _ => rfl⟩
      intro x _ hx
      rw [hnumber] at hx
      cases hx

end Environment

/-!
## Plain texts
-/

/-- What stands in the text of a truth value or a number. -/
def Scalar.IsPlain (c : Char) : Prop :=
  c.isAlphanum = true ∨ c = '-' ∨ c = '.'

namespace Scalar

theorem isPlain_of_word
    {word : List Char} {c : Char}
    (h : word.all Char.isAlphanum = true) (hc : c ∈ word) :
    IsPlain c :=
  .inl (List.all_eq_true.mp h c hc)

theorem isPlain_of_isDigit
    {c : Char}
    (h : c.isDigit = true) :
    IsPlain c :=
  .inl (Bool.or_eq_true_iff.mpr (.inr h))

theorem isPlain_of_mem_ofNat
    {n : Nat} {c : Char}
    (h : c ∈ Decimal.ofNat n) :
    IsPlain c :=
  isPlain_of_isDigit ((Decimal.digits?_eq_some_iff.mp (Decimal.digits?_ofNat n)).1.decimal c h)

theorem isPlain_of_mem_ofInt
    {n : Int} {c : Char}
    (h : c ∈ Decimal.ofInt n) :
    IsPlain c := by
  cases n with
  | ofNat n => exact isPlain_of_mem_ofNat h
  | negSucc n =>
      rcases List.mem_cons.mp h with rfl | h
      · exact .inr (.inl rfl)
      · exact isPlain_of_mem_ofNat h

theorem isPlain_of_mem_positionalDigits
    {d : Binary64.Scientific} {c : Char}
    (h : c ∈ Binary64.positionalDigits d) :
    IsPlain c := by
  have hzero : IsPlain '0' := isPlain_of_isDigit rfl
  have hpoint : IsPlain '.' := .inr (.inr rfl)
  unfold Binary64.positionalDigits at h
  split at h
  · rcases List.mem_append.mp h with h | h
    · exact isPlain_of_mem_ofNat h
    · rw [List.eq_of_mem_replicate h]
      exact hzero
  simp only at h
  split at h
  · rcases List.mem_append.mp h with h | h
    · exact isPlain_of_mem_ofNat (List.mem_of_mem_take h)
    · rcases List.mem_cons.mp h with rfl | h
      · exact hpoint
      · exact isPlain_of_mem_ofNat (List.mem_of_mem_drop h)
  · simp only [List.mem_cons, List.mem_append] at h
    rcases h with rfl | rfl | h | h
    · exact hzero
    · exact hpoint
    · rw [List.eq_of_mem_replicate h]
      exact hzero
    · exact isPlain_of_mem_ofNat h

theorem isPlain_of_mem_positional
    {x : Binary64} {c : Char}
    (h : c ∈ x.positional) :
    IsPlain c := by
  have hsign : ∀ ds : List Char, (∀ d ∈ ds, IsPlain d) →
      c ∈ (if x.isNegative then ['-'] else []) ++ ds → IsPlain c := by
    intro ds hds hmem
    rcases List.mem_append.mp hmem with hmem | hmem
    · split at hmem
      · exact .inr (.inl (List.mem_singleton.mp hmem))
      · cases hmem
    · exact hds c hmem
  unfold Binary64.positional at h
  split at h
  · exact isPlain_of_word (by decide) h
  simp only at h
  split at h
  · exact hsign _ (fun d hd => isPlain_of_word (by decide) hd) h
  split at h
  · exact hsign _ (fun d hd => isPlain_of_word (by decide) hd) h
  · exact hsign _ (fun d hd => isPlain_of_mem_positionalDigits hd) h

/-- A truth value or a number has a plain text. -/
theorem isPlain_of_mem_text
    {v : Scalar} {text : String} {c : Char}
    (h : v.text? = some text) (hv : ∀ s, v ≠ .text s) (hc : c ∈ text.toList) :
    IsPlain c := by
  cases v with
  | nothing => cases h
  | flag b =>
      cases h
      exact isPlain_of_word (by cases b <;> decide) hc
  | whole n =>
      cases h
      rw [Decimal.text, String.toList_ofList] at hc
      exact isPlain_of_mem_ofInt hc
  | real x =>
      cases h
      rw [String.toList_ofList] at hc
      exact isPlain_of_mem_positional hc
  | text s => exact absurd rfl (hv s)

end Scalar

/-!
## Addresses and endpoints
-/

namespace SocketAddress

/-- A reader leaves the end of what it reads. -/
def LeavesEnd {α : Type} (read : Reader α) : Prop :=
  ∀ cs value rest, read cs = some (value, rest) → rest <:+ cs

theorem eq_cons_of_char
    {expected : Char} {cs rest : List Char}
    (h : char expected cs = some rest) :
    cs = expected :: rest := by
  cases cs with
  | nil => cases h
  | cons c cs =>
      simp only [char, Option.ite_none_right_eq_some, Option.some.injEq] at h
      rw [h.1, h.2]

theorem suffix_of_char
    {expected : Char} {cs rest : List Char}
    (h : char expected cs = some rest) :
    rest <:+ cs := by
  rw [eq_cons_of_char h]
  exact List.suffix_cons expected rest

theorem leavesEnd_decimal (greatest : Nat) (digits : Option Nat) (zeros : Bool) :
    LeavesEnd (decimal greatest digits zeros) := by
  intro cs value rest h
  unfold decimal at h
  simp only [Option.ite_none_left_eq_some, Option.some.injEq, Prod.mk.injEq] at h
  rw [← h.2.2.2.2.2]
  exact List.drop_suffix _ cs

theorem leavesEnd_ipv4 : LeavesEnd ipv4 := by
  intro cs value rest h
  have hoctet : LeavesEnd octet := leavesEnd_decimal 255 (some 3) false
  simp only [ipv4, Option.bind_eq_bind, Option.bind_eq_some_iff, Prod.exists] at h
  obtain ⟨a, cs₁, ha, cs₂, hcs₂, b, cs₃, hb, cs₄, hcs₄, c, cs₅, hc, cs₆, hcs₆, d, cs₇, hd,
    hlast⟩ := h
  cases hlast
  have hfirst : cs₂ <:+ cs := (suffix_of_char hcs₂).trans (hoctet _ _ _ ha)
  have hsecond : cs₄ <:+ cs₂ := (suffix_of_char hcs₄).trans (hoctet _ _ _ hb)
  have hthird : cs₆ <:+ cs₄ := (suffix_of_char hcs₆).trans (hoctet _ _ _ hc)
  exact (hoctet _ _ _ hd).trans (hthird.trans (hsecond.trans hfirst))

/-- Between an address and its number stands a colon, and a version-6 address stands in brackets. -/
theorem mark_of_isValid
    {s : String}
    (h : isValid s = true) :
    ':' ∈ s.toList ∨ '[' ∈ s.toList := by
  have hread : (socketV4 s.toList).isSome ∨ (socketV6 s.toList).isSome := by
    unfold isValid ofText? at h
    cases hv4 : socketV4 s.toList with
    | some found => exact .inl rfl
    | none =>
        cases hv6 : socketV6 s.toList with
        | some found => exact .inr rfl
        | none => simp [hv4, hv6] at h
  rcases hread with hv4 | hv6
  · obtain ⟨⟨address, rest⟩, hv4⟩ := Option.isSome_iff_exists.mp hv4
    simp only [socketV4, Option.bind_eq_bind, Option.bind_eq_some_iff, Prod.exists] at hv4
    obtain ⟨octets, behind, hip, number, end', hnumber, -⟩ := hv4
    obtain ⟨digits, hcolon, -⟩ := Option.bind_eq_some_iff.mp hnumber
    refine .inl ((leavesEnd_ipv4 _ _ _ hip).subset ?_)
    rw [eq_cons_of_char hcolon]
    exact List.mem_cons_self ..
  · obtain ⟨⟨address, rest⟩, hv6⟩ := Option.isSome_iff_exists.mp hv6
    simp only [socketV6, Option.bind_eq_bind, Option.bind_eq_some_iff] at hv6
    obtain ⟨behind, hbracket, -⟩ := hv6
    refine .inr ?_
    rw [eq_cons_of_char hbracket]
    exact List.mem_cons_self ..

end SocketAddress

/-- An endpoint has a colon behind its scheme. -/
theorem GatewayConfig.Behind.colon_mem
    {endpoint : String} {rest : List Char}
    (h : Behind endpoint rest) :
    ':' ∈ endpoint.toList := by
  obtain ⟨scheme, hscheme, happend⟩ := h
  rw [happend]
  refine List.mem_append_left _ ?_
  simp only [List.mem_cons, List.not_mem_nil, or_false] at hscheme
  rcases hscheme with rfl | rfl <;> decide

/-- A text that no truth value and no number has is the value itself. -/
theorem Environment.eq_of_text?_scalar
    {value text : String} {c : Char}
    (h : (scalar value).text? = some text) (hc : c ∈ text.toList) (hplain : ¬ Scalar.IsPlain c) :
    text = value := by
  have htaken := takenFor_scalar value
  generalize scalar value = v at htaken h
  cases htaken with
  | text => exact (Option.some.inj h).symm
  | flag b => exact absurd (Scalar.isPlain_of_mem_text h (fun s hs => nomatch hs) hc) hplain
  | whole => exact absurd (Scalar.isPlain_of_mem_text h (fun s hs => nomatch hs) hc) hplain
  | real => exact absurd (Scalar.isPlain_of_mem_text h (fun s hs => nomatch hs) hc) hplain

/-!
## Loading
-/

namespace GatewayConfig

/-- The texts of a configuration, as they are read from its settings. -/
theorem texts_of_ofSettings
    {es : Setting.Entries} {c : GatewayConfig}
    (h : ofSettings es = .ok c) :
    Setting.readOr es "id" Setting.readText standard.id = .ok c.id ∧
    Setting.readOr es "listen_addr" Setting.readText standard.listenAddress =
      .ok c.listenAddress ∧
    Setting.readOr es "upstream_endpoint" Setting.readOptionalText standard.remoteEndpoint =
      .ok c.remoteEndpoint := by
  have hsaid := said_of_ofSettings h
  simp only [members, scalarMembers, List.cons_append, List.forall_mem_cons] at hsaid
  obtain ⟨hid, hlisten, hendpoint, -⟩ := hsaid
  exact ⟨hid, hlisten, hendpoint⟩

/-- A configuration that is loaded is read from settings with those of the environment on top, and
it is valid. -/
theorem exists_layers_of_load
    {sources : ConfigSources} {c : GatewayConfig}
    (h : load sources = .ok c) :
    ∃ es, ofSettings (Setting.layered es (Environment.settings sources.environment)) = .ok c ∧
      c.validate = .ok () := by
  obtain ⟨file, -, hread, hvalidate⟩ := load_eq_ok_iff.mp h
  rw [Setting.layered_append] at hread
  exact ⟨_, hread, hvalidate⟩

open Environment

/-- A text that the environment tells is the text of what the value was taken for. -/
theorem text?_of_tells
    {α : Type} {es : Setting.Entries} {key value : String}
    {read : String → Setting → Except String α} {absent text : α} (toText : α → Option String)
    (htells : Tells es key value)
    (hread : ∀ s, read key s = .ok text → ∃ v, s.scalar? = some v ∧ v.text? = toText text)
    (h : Setting.readOr es key read absent = .ok text) :
    (scalar value).text? = toText text := by
  obtain ⟨s, hs, hscalar⟩ := htells
  obtain ⟨v, hv, htext⟩ := hread s (Setting.read_of_readOr h hs)
  rw [← hscalar v hv, htext]

/-- The listen address and the endpoint are loaded from the environment as they stand there.  The id
is the text of what its value was taken for; it is loaded as it stands there if and only if that is
the value. -/
theorem load_texts
    {sources : ConfigSources} {c : GatewayConfig}
    (h : load sources = .ok c) :
    (∀ value, value? sources.environment "TETHER_LISTEN_ADDR" = some value →
      c.listenAddress = value) ∧
    (∀ value, value? sources.environment "TETHER_UPSTREAM_ENDPOINT" = some value →
      c.remoteEndpoint = some value) ∧
    ∀ value, value? sources.environment "TETHER_ID" = some value →
      (scalar value).text? = some c.id ∧ (c.id = value ↔ Kept value) := by
  obtain ⟨es, hread, hvalidate⟩ := exists_layers_of_load h
  obtain ⟨hid, hlisten, hendpoint⟩ := texts_of_ofSettings hread
  obtain ⟨haddress, hscheme⟩ := holds_of_validate hvalidate
  have hcolon : ¬ Scalar.IsPlain ':' := by unfold Scalar.IsPlain; decide
  have hbracket : ¬ Scalar.IsPlain '[' := by unfold Scalar.IsPlain; decide
  refine ⟨fun value hvalue => ?_, fun value hvalue => ?_, fun value hvalue => ?_⟩
  · have htext := text?_of_tells some (names_listen.tells_layered hvalue es)
      (fun s => Setting.text?_of_readText) hlisten
    rcases SocketAddress.mark_of_isValid haddress with hmark | hmark
    · exact eq_of_text?_scalar htext hmark hcolon
    · exact eq_of_text?_scalar htext hmark hbracket
  · have htext := text?_of_tells (fun text => text) (names_endpoint.tells_layered hvalue es)
      (fun s => Setting.text?_of_readOptionalText) hendpoint
    cases hfound : c.remoteEndpoint with
    | none =>
        rw [hfound] at htext
        exact absurd htext (text?_scalar_ne_none value)
    | some endpoint =>
        rw [hfound] at htext
        obtain ⟨rest, hbehind⟩ := hscheme endpoint hfound
        exact congrArg some (eq_of_text?_scalar htext hbehind.colon_mem hcolon)
  · have htext := text?_of_tells some (names_id.tells_layered hvalue es)
      (fun s => Setting.text?_of_readText) hid
    exact ⟨htext, by rw [← text?_scalar_eq_iff, htext, Option.some.injEq]⟩

/-- An environment that sets everything, in either letter case. -/
def told : ConfigSources where
  environment := [("TETHER_ID", "edge-1"), ("tether_listen_addr", "127.0.0.1:80"),
    ("TETHER_UPSTREAM_ENDPOINT", "http://a")]

theorem load_texts_told :
    ∃ c, load told = .ok c ∧
      c.listenAddress = "127.0.0.1:80" ∧
      c.remoteEndpoint = some "http://a" ∧
      (c.id = "edge-1" ↔ Kept "edge-1") := by
  have hsettings : settings told.environment =
      [("id", .scalar (some origin) (.text "edge-1")),
        ("listen_addr", .scalar (some origin) (.text "127.0.0.1:80")),
        ("upstream_endpoint", .scalar (some origin) (.text "http://a"))] := rfl
  have hload : load told =
      .ok ⟨"edge-1", "127.0.0.1:80", some "http://a", 30000, 5000, 4194304, false, []⟩ := by
    unfold load ConfigSources.settings
    rw [hsettings]
    rfl
  obtain ⟨hlisten, hendpoint, hid⟩ := load_texts hload
  exact ⟨_, hload, hlisten _ rfl, hendpoint _ rfl, (hid _ rfl).2⟩

/-- An environment with an id that is an integer with zeros in front. -/
def numbered : ConfigSources where
  environment := [("TETHER_ID", "007")]

theorem numbered_id_altered :
    ∃ c, load numbered = .ok c ∧
      value? numbered.environment "TETHER_ID" = some "007" ∧
      c.id = "7" ∧ c.id ≠ "007" := by
  have hsettings : settings numbered.environment = [("id", .scalar (some origin) (.whole 7))] := rfl
  have hload : load numbered = .ok { standard with id := "7" } := by
    unfold load ConfigSources.settings
    rw [hsettings]
    rfl
  exact ⟨_, hload, rfl, rfl, by decide⟩

end GatewayConfig
end RpcGateway
