import RpcGateway.Proofs.Schema.Record
import RpcGateway.Status

/-!
# Error envelopes are read back

What an HTTP caller finds in the body of an error response.

**Envelopes.**  An envelope is written as an object, its members in the order of their keys, and
read back as a record straight from the text (`ofText_bytes`).  The details stand two containers
deep, so of the 127 levels of a text 125 are left for each of them.

**Result.**  `render_readable`: with a JSON codec the envelope is read back as it was, and its
number gives the code.  With any codec, what is sent is either what the codec writes or the fixed
body, and the fixed body is an envelope itself.
-/

namespace RpcGateway

open Schema

namespace ErrorEnvelope

theorem toValue_eq
    (e : ErrorEnvelope) :
    e.toValue = .object
      [("code", .int e.code), ("details", .array e.details), ("message", .string e.message)] := by
  have hmessage : ¬ "message" < "code" := by decide
  have hdetails : ¬ "details" < "code" ∧ "details" < "message" := by decide
  simp [toValue, fields, Json.Members.ofList, Json.Members.put, hmessage, hdetails]

theorem values_map_json
    (details : List Json.Value) :
    values (details.map .json) = details := by
  induction details with
  | nil => rfl
  | cons v details ih => rw [List.map_cons, values, ih]

/-- An envelope is read back from its text, in either layout. -/
theorem ofText_bytes
    {e : ErrorEnvelope}
    (hleast : -2147483648 ≤ e.code) (hgreatest : e.code ≤ 2147483647)
    (hdetails : ∀ v ∈ e.details, Json.FloatFree 125 v) (indented : Bool) :
    ofText (e.toValue.bytes indented) = .ok e := by
  obtain ⟨code, message, details⟩ := e
  dsimp only at hleast hgreatest
  have hcode : Json.ScalarFloatFree (.int code) := by
    refine .integer ?_ ?_
    all_goals
      simp only [Decimal.minInt64, Decimal.maxUInt64]
      omega
  -- the envelope takes one of 127 levels, the list of its details another
  have hitems : List.Forall₂ (ReadAs schema 125 .single .any) details (details.map .json) := by
    rw [List.forall₂_map_right_iff]
    exact List.forall₂_same.mpr fun v _ => readAs_any schema 125 v
  have hmembers : List.Forall₂ (MemberReadAs schema () 126)
      [("code", .int code), ("details", .array details), ("message", .string message)]
      [("code", .whole code), ("details", .list (details.map .json)), ("message", .text message)] :=
    .cons ⟨rfl, _, rfl, readAs_integer schema 126 "i32" hleast hgreatest⟩ <|
      .cons ⟨rfl, _, rfl, readAs_list hitems⟩ <|
      .cons ⟨rfl, _, rfl, readAs_text schema 126 message⟩ .nil
  have hfree : ∀ m ∈ ([("code", .int code), ("details", .array details),
      ("message", .string message)] : Json.Members), Json.FloatFree 126 m.2 := by
    simp only [List.forall_mem_cons, List.not_mem_nil, false_imp_iff, implies_true, and_true]
    exact ⟨.of_scalar hcode 126, Or.inr (.array hdetails), .of_scalar (.string message) 126⟩
  rw [toValue_eq, ofText, recordOfText_bytes hfree hmembers (by simp) rfl]
  simp [ofData?, values_map_json]

end ErrorEnvelope
theorem Code.toNat_le
    (c : Code) :
    c.toNat ≤ 16 := by
  cases c <;> decide

namespace Status

/-- The envelope of a status is read back from its text, in either layout. -/
theorem ofText_ofStatus
    {s : Status}
    (h : ∀ v ∈ s.details, Json.FloatFree 125 v) (indented : Bool) :
    ErrorEnvelope.ofText ((ErrorEnvelope.ofStatus s).toValue.bytes indented) =
      .ok (ErrorEnvelope.ofStatus s) := by
  have hcode := s.code.toNat_le
  refine ErrorEnvelope.ofText_bytes ?_ ?_ h indented
  all_goals
    simp only [ErrorEnvelope.ofStatus]
    omega

/-- The fixed body is the text of an envelope. -/
theorem ofText_fallbackBody :
    ErrorEnvelope.ofText fallbackBody = .ok ⟨13, "failed to marshal error message", []⟩ :=
  rfl

/-- Details without fractions, at most 125 containers deep, reach the HTTP caller with the code and
the message, whatever the layout; other codecs decide about the body alone, and if they have none
the caller still finds an envelope. -/
theorem render_readable
    (s : Status) :
    ((∀ v ∈ s.details, Json.FloatFree 125 v) → ∀ indented, ∃ body,
      s.render (Codec.json indented) = (s.code.httpStatus, body) ∧
        ∃ e, ErrorEnvelope.ofText body = .ok e ∧ e.code = s.code.toNat ∧
          e.message = s.message ∧ e.details = s.details ∧ Code.ofInt e.code = s.code) ∧
    (∀ codec body, codec.encode (ErrorEnvelope.ofStatus s).toValue = .ok body →
      s.render codec = (s.code.httpStatus, body)) ∧
    (∀ codec fault, codec.encode (ErrorEnvelope.ofStatus s).toValue = .error fault →
      s.render codec = (500, fallbackBody)) ∧
    ErrorEnvelope.ofText fallbackBody = .ok ⟨13, "failed to marshal error message", []⟩ := by
  have hencoded : ∀ codec body, codec.encode (ErrorEnvelope.ofStatus s).toValue = .ok body →
      s.render codec = (s.code.httpStatus, body) := by
    intro codec body h
    rw [render, h]
  refine ⟨?_, hencoded, ?_, ofText_fallbackBody⟩
  · intro h indented
    refine ⟨_, hencoded (Codec.json indented) _ rfl, _, ofText_ofStatus h indented, ?_⟩
    exact ⟨rfl, rfl, rfl, s.code.ofInt_toNat⟩
  · intro codec fault h
    rw [render, h]

/-- So many lists inside each other. -/
def nested : Nat → Json.Value
  | 0 => .null
  | n + 1 => .array [nested n]

theorem floatFree_nested
    (n : Nat) :
    Json.FloatFree n (nested n) := by
  induction n with
  | zero => exact .null
  | succ n ih => exact Or.inr (.array (by simpa [nested] using ih))

/-- A status whose details are as deep as can be, and an object. -/
def deep : Status :=
  ⟨.dataLoss, "\"\\\n", [nested 125, .object [("", .int (-1)), ("a", .string "ü")]]⟩

/-- A codec that writes nothing. -/
def broken : Codec where
  contentType := "application/broken"
  decode _ := .ok .null
  encode _ := .error (.shape "always fails")

theorem render_readable_deep :
    (∃ body, deep.render (Codec.json true) = (500, body) ∧
      ∃ e, ErrorEnvelope.ofText body = .ok e ∧ e.code = 15 ∧ e.message = deep.message ∧
        e.details = deep.details ∧ Code.ofInt e.code = .dataLoss) ∧
    deep.render broken = (500, fallbackBody) := by
  have hobject : Json.FloatFree 1 (.object [("", .int (-1)), ("a", .string "ü")]) := by
    have hsorted : "" < "a" := by decide
    refine Or.inr (.object (List.pairwise_pair.mpr hsorted) ?_)
    simp only [List.forall_mem_cons]
    exact ⟨.integer (by decide) (by decide), .string _, by simp⟩
  have hdetails : ∀ v ∈ deep.details, Json.FloatFree 125 v := by
    simp only [deep, List.forall_mem_cons]
    exact ⟨floatFree_nested 125, hobject.mono (by decide), by simp⟩
  obtain ⟨hread, -, hbroken, -⟩ := render_readable deep
  exact ⟨hread hdetails true, hbroken broken _ rfl⟩

end Status
end RpcGateway
