import RpcGateway.Codec.PathBinding
import RpcGateway.Message.Type
import RpcGateway.Text.Ascii

/-!
# Names of members

A field of a message is a member of its JSON object, under the name of the field in
lowerCamelCase.  The names of path parameters are brought into that form by another rule.

**Two rules.**  For a member, every word of the name gets a capital letter, the underscores go, and
the first letter is put into lower case again (`memberName`).  For a parameter, the words get
capital letters once there is something in front of them (`lowerCamel`).  The two agree as soon as
the first word has begun (`camelFrom_begun`), so they differ at most in the first letter.

**Result.**  `names_reach_members`: the forms are the same unless the name begins with a capital
letter, and a parameter with the name of a field leads to the member of the field.
-/

namespace RpcGateway
namespace PathBinding

/-- The words of a name with capital letters; `raised` says whether a word begins. -/
def capitalized (raised : Bool) : List Char → List Char
  | [] => []
  | c :: cs =>
      if c = '_' then capitalized true cs
      else (if raised then c.toUpper else c) :: capitalized false cs

/-- The name of the member that a field is. -/
def memberName (name : List Char) : String :=
  match capitalized true name with
  | [] => ""
  | c :: cs => String.ofList (c.toLower :: cs)

/-- Behind a first letter both rules do the same. -/
theorem camelFrom_begun
    (raised : Bool) (cs : List Char) :
    camelFrom true raised cs = capitalized raised cs := by
  induction cs generalizing raised with
  | nil => rfl
  | cons c cs ih =>
      rw [camelFrom, capitalized]
      by_cases hc : c = '_'
      · rw [if_pos hc, if_pos hc, ih]
      · rw [if_neg hc, if_neg hc]
        cases raised with
        | true => rw [if_pos rfl, if_pos rfl, ih]
        | false => rw [if_neg Bool.false_ne_true, if_neg Bool.false_ne_true, ih]

/-- Up to the case of the first letter both rules do the same. -/
theorem exists_rest_of_find?
    {name : List Char} {c : Char}
    (h : name.find? (· != '_') = some c) :
    ∃ rest, camelFrom false false name = c :: rest ∧ capitalized true name = c.toUpper :: rest := by
  induction name with
  | nil => cases h
  | cons d name ih =>
      rw [List.find?_cons] at h
      rw [camelFrom, capitalized]
      by_cases hd : d = '_'
      · have hskip : (d != '_') = false := by simp [hd]
        rw [hskip] at h
        rw [if_pos hd, if_pos hd]
        exact ih h
      · have hfirst : (d != '_') = true := by simp [hd]
        rw [hfirst] at h
        obtain rfl : d = c := Option.some.inj h
        rw [if_neg hd, if_neg hd, if_neg Bool.false_ne_true, if_pos rfl, camelFrom_begun]
        exact ⟨_, rfl, rfl⟩

theorem toLower_eq_self_iff
    {c : Char} :
    c.toLower = c ↔ c.isUpper = false := by
  rcases Ascii.toLower_cases c with ⟨hupper, hlower⟩ | ⟨hupper, hsame⟩
  · refine ⟨fun h => ?_, fun h => absurd hupper (by simp [h])⟩
    -- no letter is both small and capital
    rw [h, Ascii.isLower_iff] at hlower
    rw [Ascii.isUpper_iff] at hupper
    omega
  · exact ⟨fun _ => hupper, fun _ => hsame⟩

/-- The two forms of a name are the same if and only if its first letter is no capital one. -/
theorem lowerCamel_eq_memberName_iff
    {name : List Char} {c : Char}
    (h : name.find? (· != '_') = some c) :
    lowerCamel name = memberName name ↔ c.isUpper = false := by
  obtain ⟨rest, hcamel, hcapitalized⟩ := exists_rest_of_find? h
  have hmember : memberName name = String.ofList (c.toLower :: rest) := by
    simp only [memberName, hcapitalized, Ascii.toLower_toUpper]
  rw [lowerCamel, hcamel, hmember, String.ofList_inj, List.cons.injEq, and_iff_left rfl, eq_comm]
  exact toLower_eq_self_iff

/-!
## Names that are in lowerCamelCase
-/

theorem toUpper_ne_underscore
    {c : Char}
    (h : c ≠ '_') :
    c.toUpper ≠ '_' := by
  intro hupper
  -- the lower case of an underscore is the underscore
  have hlower : c.toLower = '_' := by
    rw [← Ascii.toLower_toUpper, hupper]
    rfl
  exact h ((Ascii.toLower_eq_iff (by decide) c).mp hlower)

theorem underscore_not_mem_camelFrom
    (begun raised : Bool) (cs : List Char) :
    '_' ∉ camelFrom begun raised cs := by
  induction cs generalizing begun raised with
  | nil => simp [camelFrom]
  | cons c cs ih =>
      rw [camelFrom]
      split
      case isTrue => exact ih begun begun
      case isFalse hc =>
        split
        case isTrue => exact List.not_mem_cons_of_ne_of_not_mem (toUpper_ne_underscore hc).symm (ih true false)
        case isFalse => exact List.not_mem_cons_of_ne_of_not_mem (Ne.symm hc) (ih true false)

/-- Without underscores a name stays as it is. -/
theorem camelFrom_of_no_underscore
    {cs : List Char}
    (h : '_' ∉ cs) (begun : Bool) :
    camelFrom begun false cs = cs := by
  induction cs generalizing begun with
  | nil => rfl
  | cons c cs ih =>
      obtain ⟨hc, hcs⟩ := List.ne_and_not_mem_of_not_mem_cons h
      rw [camelFrom, if_neg (Ne.symm hc), if_neg Bool.false_ne_true, ih hcs]

theorem lowerCamel_lowerCamel
    (name : List Char) :
    lowerCamel (lowerCamel name).toList = lowerCamel name := by
  unfold lowerCamel
  rw [String.toList_ofList, camelFrom_of_no_underscore (underscore_not_mem_camelFrom false false name)]

/-!
## Fields of messages
-/

/-- The members of the messages are named by their rule. -/
theorem memberName_eq_key
    (t : MessageType) :
    ∀ f ∈ t.fields, memberName f.name.toList = f.key := by
  cases t <;> decide

/-- The names of fields are undotted and begin with small letters. -/
theorem plain_of_mem_fields
    (t : MessageType) :
    ∀ f ∈ t.fields, f.name.toList.contains '.' = false ∧
      (f.name.toList.find? (· != '_')).any (fun c => !c.isUpper) = true := by
  cases t <;> decide

/-- A parameter with an undotted name leads to the member of that name. -/
theorem keys_eq_memberName
    {name : String} {c : Char}
    (hdot : '.' ∉ name.toList) (hfirst : name.toList.find? (· != '_') = some c)
    (hsmall : c.isUpper = false) :
    keys name = [memberName name.toList] := by
  rw [keys, List.splitOn_eq_singleton hdot, List.map_singleton,
    (lowerCamel_eq_memberName_iff hfirst).mpr hsmall]

/-- **Names of members.**  The lowerCamelCase form of a parameter is the name of the member that a
field of that name is, if and only if the name does not begin with a capital letter.  A name in that
form stays as it is, and the name of a field of any message leads to the member of the field. -/
theorem names_reach_members :
    (∀ name c, List.find? (· != '_') name = some c →
      (lowerCamel name = memberName name ↔ c.isUpper = false)) ∧
    (∀ name, lowerCamel (lowerCamel name).toList = lowerCamel name) ∧
    ∀ t : MessageType, ∀ f ∈ t.fields,
      memberName f.name.toList = f.key ∧ keys f.name = [f.key] := by
  refine ⟨fun name c => lowerCamel_eq_memberName_iff, lowerCamel_lowerCamel, fun t f hf => ?_⟩
  have hkey := memberName_eq_key t f hf
  obtain ⟨hdot, hplain⟩ := plain_of_mem_fields t f hf
  rw [List.contains_eq_mem, decide_eq_false_iff_not] at hdot
  obtain ⟨c, hfirst, hsmall⟩ := (Option.any_eq_true _ _).mp hplain
  refine ⟨hkey, hkey ▸ keys_eq_memberName hdot hfirst ?_⟩
  rwa [Bool.not_eq_true'] at hsmall

end PathBinding
end RpcGateway
