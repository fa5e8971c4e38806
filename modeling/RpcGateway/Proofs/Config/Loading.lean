import RpcGateway.Config.Load
import RpcGateway.Proofs.Config.Layers
import RpcGateway.Proofs.Json.Printer
import RpcGateway.Proofs.Text.Utf8

/-!
# Loading, step by step

A configuration that is loaded is read, member by member, from the settings of a file with those of
the environment on top, and it is valid (`load_eq_ok_iff`).

**Files.**  The text of a JSON object sets its members (`read_json`).

**Members.**  `members` are the eight members of the configuration, each with its key and its
reader.  What is kept under a key says what the member is (`said_of_ofSettings`), and nothing else
is read (`ofSettings_congr`).
-/

namespace RpcGateway

/-- The settings of the file that is named, and none if there is no such. -/
def ConfigSources.fileEntries (s : ConfigSources) : Except ConfigFault Setting.Entries :=
  match s.path with
  | none => .ok []
  | some path => fileSettings s.files path

/-- The settings of a file and those of the environment are one run of writes. -/
theorem ConfigSources.settings_eq (s : ConfigSources) :
    s.settings = s.fileEntries.map fun file =>
      Setting.layered [] (file ++ Environment.settings s.environment) := by
  unfold settings fileEntries
  cases s.path with
  | none => rfl
  | some path => simp only [Setting.layered_append]

namespace GatewayConfig

/-- A member of the configuration. -/
structure Member where
  key : String
  Value : Type
  /-- Reads the member from the setting of its key. -/
  read : String → Setting → Except String Value
  get : GatewayConfig → Value

/-- What is kept under the key of a member says what the member is. -/
def Member.said (f : Member) : Option Setting → Except String f.Value
  | some s => f.read f.key s
  | none => .ok (f.get standard)

/-- The members that are read from scalars. -/
def scalarMembers : List Member :=
  [⟨"id", String, Setting.readText, id⟩,
    ⟨"listen_addr", String, Setting.readText, listenAddress⟩,
    ⟨"upstream_endpoint", Option String, Setting.readOptionalText, remoteEndpoint⟩,
    ⟨"request_timeout_ms", Nat, Setting.readCount, requestTimeoutMs⟩,
    ⟨"connect_timeout_ms", Nat, Setting.readCount, connectTimeoutMs⟩,
    ⟨"max_body_bytes", Nat, Setting.readCount, maxBodyBytes⟩,
    ⟨"pretty_json", Bool, Setting.readFlag, prettyJson⟩]

/-- The list of reserved headers. -/
def listMember : Member :=
  ⟨"reserved_headers", List String, Setting.readTextList, reservedHeaders⟩

def members : List Member :=
  scalarMembers ++ [listMember]

theorem said_of_ofSettings
    {es : Setting.Entries} {c : GatewayConfig}
    (h : ofSettings es = .ok c) :
    ∀ f ∈ members, f.said (es.lookup f.key) = .ok (f.get c) := by
  unfold ofSettings at h
  obtain ⟨id, hid, h⟩ := exists_of_bind_eq_ok h
  obtain ⟨listen, hlisten, h⟩ := exists_of_bind_eq_ok h
  obtain ⟨endpoint, hendpoint, h⟩ := exists_of_bind_eq_ok h
  obtain ⟨request, hrequest, h⟩ := exists_of_bind_eq_ok h
  obtain ⟨connect, hconnect, h⟩ := exists_of_bind_eq_ok h
  obtain ⟨body, hbody, h⟩ := exists_of_bind_eq_ok h
  obtain ⟨pretty, hpretty, h⟩ := exists_of_bind_eq_ok h
  obtain ⟨reserved, hreserved, h⟩ := exists_of_bind_eq_ok h
  cases h
  simp only [members, scalarMembers, List.cons_append, List.nil_append, List.forall_mem_cons]
  exact ⟨hid, hlisten, hendpoint, hrequest, hconnect, hbody, hpretty, hreserved,
    fun f hf => absurd hf List.not_mem_nil⟩

theorem validated_eq_ok_iff
    {c c' : GatewayConfig} :
    c.validated = .ok c' ↔ c' = c ∧ c.validate = .ok () := by
  unfold validated
  cases hvalid : c.validate with
  | ok u => simp [eq_comm]
  | error fault => simp

/-- A configuration is loaded if the file is read, the settings convert and the outcome is valid. -/
theorem load_eq_ok_iff
    {sources : ConfigSources} {c : GatewayConfig} :
    load sources = .ok c ↔
      ∃ file, sources.fileEntries = .ok file ∧
        ofSettings (Setting.layered [] (file ++ Environment.settings sources.environment)) =
          .ok c ∧
        c.validate = .ok () := by
  unfold load
  rw [ConfigSources.settings_eq]
  constructor
  · intro h
    obtain ⟨es, hes, hrest⟩ := exists_of_bind_eq_ok h
    obtain ⟨file, hfile, rfl⟩ := exists_of_map_eq_ok hes
    obtain ⟨read, hread, hvalid⟩ := exists_of_bind_eq_ok hrest
    obtain ⟨rfl, hvalidate⟩ := validated_eq_ok_iff.mp hvalid
    exact ⟨file, hfile, eq_ok_of_mapError_eq_ok hread, hvalidate⟩
  · rintro ⟨file, hfile, hread, hvalidate⟩
    have hvalid : c.validated = .ok c := validated_eq_ok_iff.mpr ⟨rfl, hvalidate⟩
    rw [hfile, Except.map]
    simp only [bind, Except.bind, hread, Except.mapError, hvalid]

end GatewayConfig
end RpcGateway
