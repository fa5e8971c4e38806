import RpcGateway.Proofs.Message.WellFormed
import RpcGateway.Proofs.Text.Utf8
import RpcGateway.Proofs.Wire.Varint
import RpcGateway.Wire.Reader

/-!
# Messages are read as they are written

The binary form of a well-formed message is read back to the same message, whatever follows it.

**Pieces.**  What is written of a field is a number of pieces, each a key and a `payload`.  A single
field makes one piece at most, a list one for every item, or one for all of them if they are packed.
`turns_piece` is one turn of the reader's loop: it takes one piece.

**Induction.**  `readsInside_fits` is by induction on the levels of the message.  On each level the
loop is followed field by field (`turns_fields`), with the fields that are done in front and zero
values behind.

**Result.**  `ofWire_toWire`: a message that is well-formed, nests no deeper than the reader goes
and has fewer than `2 ^ 64` bytes comes back; `ofWire_toWire_of_isService` for the messages of
services, which never nest too deep.
-/

namespace RpcGateway
namespace Wire

open Schema

/-- The form in which a value of a kind is written. -/
def formOf : Kind MessageType → Form
  | .text | .record _ => .lengthDelimited
  | _ => .varint

/-- What is written of a value behind its key. -/
def payload (kind : Kind MessageType) : Datum → List UInt8
  | .text s => delimited (Utf8.bytes s)
  | .record ds =>
      match kind with
      | .record t => delimited (writeFields t.fields ds)
      | _ => []
  | d => scalarBytes d

/-- What the binary form can carry of a kind. -/
inductive Carries : Kind MessageType → Prop
  | text : Carries .text
  | flag : Carries .flag
  | int64 : Carries .int64
  | int32 : Carries Schema.int32
  | uint32 : Carries Schema.uint32
  | record (t : MessageType) : Carries (.record t)

/-- The binary form has a key for the tag of a field and carries what the field holds. -/
structure Portable (f : MessageField) : Prop where
  tag_pos : 0 < f.tag
  tag_lt : f.tag < 536870912
  carries : Carries f.kind
  optional : f.arity = .optional → ∃ t, f.kind = .record t

theorem portable_of_mem
    {t : MessageType} {f : MessageField}
    (h : f ∈ t.fields) :
    Portable f := by
  cases t <;> simp only [MessageType.fields, List.mem_cons, List.not_mem_nil, or_false] at h
  all_goals rcases h with rfl | rfl | rfl | rfl | rfl | rfl | rfl
  all_goals exact ⟨by decide, by decide, by constructor, by simp⟩

variable {inner : MessageType → List Datum → Prop} {kind : Kind MessageType} {d : Datum}

theorem writeDatum_eq
    (h : d.IsOf inner kind) (tag : Nat) :
    writeDatum tag kind d = key tag (formOf kind) ++ payload kind d := by
  cases h <;> rfl

/-!
## Reading one value
-/

theorem takeVarint_varint
    {n : Nat}
    (h : n < 2 ^ 64) (rest : List UInt8) :
    takeVarint (varint n ++ rest) = .ok (n, rest) := by
  rw [takeVarint, readVarint_varint h]

theorem takeKey_key
    {f : MessageField}
    (hf : Portable f) (form : Form) (rest : List UInt8) :
    takeKey (key f.tag form ++ rest) = .ok ((f.tag, form), rest) := by
  have hform : form.toNat < 8 ∧ Form.ofNat? form.toNat = some form := by
    cases form <;> decide
  have hpos := hf.tag_pos
  have hlt := hf.tag_lt
  have hlow : (f.tag * 8 + form.toNat) % 8 = form.toNat := by omega
  have hhigh : (f.tag * 8 + form.toNat) / 8 = f.tag := by omega
  have hsize : ¬ 4294967295 < f.tag * 8 + form.toNat := by omega
  unfold takeKey key
  rw [takeVarint_varint (by omega)]
  simp only [if_neg hsize, hlow, hhigh, hform.2, if_neg (Nat.ne_of_gt hpos)]

theorem takeText_delimited
    {s : String}
    (h : (Utf8.bytes s).length < 2 ^ 64) (rest : List UInt8) :
    takeText (delimited (Utf8.bytes s) ++ rest) = .ok (.text s, rest) := by
  have hlength : ¬ (Utf8.bytes s ++ rest).length < (Utf8.bytes s).length := by
    rw [List.length_append]
    omega
  have htext : Utf8.text? (Utf8.bytes s) = some s := Utf8.text?_eq_some_iff.mpr rfl
  rw [takeText, delimited, List.append_assoc, takeVarint_varint h]
  simp only [if_neg hlength, List.take_left, List.drop_left, htext]

theorem takeSpan_delimited
    {α : Type} {inside : Nat → List UInt8 → Step α} {bytes rest : List UInt8} {x : α}
    (hlength : bytes.length < 2 ^ 64)
    (hinside : inside rest.length (bytes ++ rest) = .ok (x, rest)) :
    takeSpan inside (delimited bytes ++ rest) = .ok (x, rest) := by
  have hlong : ¬ (bytes ++ rest).length < bytes.length := by
    rw [List.length_append]
    omega
  have hlimit : (bytes ++ rest).length - bytes.length = rest.length := by
    rw [List.length_append]
    omega
  rw [takeSpan, delimited, List.append_assoc, takeVarint_varint hlength]
  simp only [if_neg hlong, hlimit, hinside, if_true]

theorem scalarBytes_length_pos
    (h : d.IsOf inner kind) (hscalar : isPacked kind = true) :
    0 < (scalarBytes d).length := by
  cases h with
  | flag b => exact varint_length_pos _
  | integer => exact varint_length_pos _
  | int64 => exact varint_length_pos _
  | text => cases hscalar
  | record => cases hscalar

theorem takeScalar_scalarBytes
    (h : d.IsOf inner kind) (hcarries : Carries kind) (hscalar : isPacked kind = true)
    (rest : List UInt8) :
    takeScalar kind (scalarBytes d ++ rest) = .ok (d, rest) := by
  cases hcarries with
  | text => cases hscalar
  | record t => cases hscalar
  | flag =>
      cases h with
      | flag b =>
          have hbit : (if b then 1 else 0) < 2 ^ 64 := by split <;> decide
          rw [takeScalar, scalarBytes, takeVarint_varint hbit]
          cases b <;> rfl
  | int64 =>
      cases h with
      | @int64 n hleast hgreatest =>
          rw [takeScalar, scalarBytes, takeVarint_varint (wrap64_lt n)]
          simp only [Except.map, scalarOfVarint, signed_wrap64 hleast hgreatest]
  | int32 =>
      cases h with
      | @integer _ _ _ n hleast hgreatest =>
          rw [takeScalar, scalarBytes, takeVarint_varint (wrap64_lt n)]
          simp only [Except.map, Schema.int32, scalarOfVarint]
          rw [if_pos (by decide), signed_wrap32 hleast hgreatest]
  | uint32 =>
      cases h with
      | @integer _ _ _ n hleast hgreatest =>
          rw [takeScalar, scalarBytes, takeVarint_varint (wrap64_lt n)]
          simp only [Except.map, Schema.uint32, scalarOfVarint]
          rw [if_neg (by decide), low_wrap64 hleast hgreatest]

theorem length_le_flatMap_scalarBytes
    {items : List Datum}
    (h : ∀ d ∈ items, d.IsOf inner kind) (hscalar : isPacked kind = true) :
    items.length ≤ (items.flatMap scalarBytes).length := by
  induction items with
  | nil => exact Nat.le_refl 0
  | cons d ds ih =>
      have hfirst := scalarBytes_length_pos (h d (List.mem_cons_self ..)) hscalar
      have hrest := ih fun e he => h e (List.mem_cons_of_mem _ he)
      rw [List.flatMap_cons, List.length_append, List.length_cons]
      omega

theorem takeScalars_flatMap
    {items : List Datum} {fuel : Nat}
    (h : ∀ d ∈ items, d.IsOf inner kind) (hcarries : Carries kind)
    (hscalar : isPacked kind = true) (hfuel : items.length ≤ fuel) (rest : List UInt8) :
    takeScalars kind rest.length fuel (items.flatMap scalarBytes ++ rest) = .ok (items, rest) := by
  induction items generalizing fuel with
  | nil => cases fuel <;> simp [takeScalars]
  | cons d ds ih =>
      cases fuel with
      | zero => cases hfuel
      | succ fuel =>
          have hd := h d (List.mem_cons_self ..)
          have hpos := scalarBytes_length_pos hd hscalar
          have hlong : ¬ (scalarBytes d ++ (ds.flatMap scalarBytes ++ rest)).length ≤
              rest.length := by
            simp only [List.length_append]
            omega
          have hrest := ih (fun e he => h e (List.mem_cons_of_mem _ he))
            (Nat.le_of_succ_le_succ hfuel)
          rw [List.flatMap_cons, List.append_assoc, takeScalars, if_neg hlong,
            takeScalar_scalarBytes hd hcarries hscalar]
          simp only [hrest, Except.map]

/-!
## Reading one piece
-/

/-- How messages inside a message are read: those that `inner` allows come back. -/
def Reads (message : MessageType → List Datum → List UInt8 → Step (List Datum))
    (inner : MessageType → List Datum → Prop) (size : Nat) : Prop :=
  ∀ t ds rest, inner t ds → (writeFields t.fields ds).length < size →
    message t (Message.zero t).fields (delimited (writeFields t.fields ds) ++ rest) = .ok (ds, rest)

variable {message : MessageType → List Datum → List UInt8 → Step (List Datum)} {size : Nat}
  {f : MessageField}

theorem length_lt_delimited
    (bytes : List UInt8) :
    bytes.length < (delimited bytes).length := by
  have hpos := varint_length_pos bytes.length
  rw [delimited, List.length_append]
  omega

theorem expectForm_self
    {α : Type} (form : Form) (x : Step α) :
    expectForm form form x = x :=
  if_pos rfl

/-- The value of a field that holds one. -/
theorem takeField_single
    (hread : Reads message inner size) (hd : d.IsOf inner f.kind) (hcarries : Carries f.kind)
    (harity : f.arity ≠ .list) (hsize : (payload f.kind d).length ≤ size) (hbound : size ≤ 2 ^ 64)
    {held : Datum} (hheld : ∀ t, fieldsOf t held = (Message.zero t).fields) (rest : List UInt8) :
    takeField message f (formOf f.kind) held (payload f.kind d ++ rest) = .ok (d, rest) := by
  obtain ⟨tag, name, jsonKey, kind, arity⟩ := f
  dsimp only at hd hcarries harity hsize ⊢
  have hscalar : isPacked kind = true →
      takeScalar kind (scalarBytes d ++ rest) = .ok (d, rest) :=
    fun hpacked => takeScalar_scalarBytes hd hcarries hpacked rest
  cases hd with
  | text s =>
      have hlength := length_lt_delimited (Utf8.bytes s)
      have htext : expectForm .lengthDelimited .lengthDelimited
          (takeText (delimited (Utf8.bytes s) ++ rest)) = .ok (.text s, rest) := by
        rw [expectForm_self]
        exact takeText_delimited (by simp only [payload] at hsize; omega) rest
      cases arity with
      | list => exact absurd rfl harity
      | single => exact htext
      | optional => exact htext
  | @record t ds h =>
      have hlength := length_lt_delimited (writeFields t.fields ds)
      have hinside := hread t ds rest h (by simp only [payload] at hsize; omega)
      have hmessage : (message t (fieldsOf t held)
          (delimited (writeFields t.fields ds) ++ rest)).map
            (fun r => (Datum.record r.1, r.2)) = .ok (.record ds, rest) := by
        rw [hheld, hinside]
        rfl
      cases arity with
      | list => exact absurd rfl harity
      | single => exact hmessage
      | optional => exact hmessage
  | flag b => cases arity <;> first | exact absurd rfl harity | exact hscalar rfl
  | integer => cases arity <;> first | exact absurd rfl harity | exact hscalar rfl
  | int64 => cases arity <;> first | exact absurd rfl harity | exact hscalar rfl

/-- One more item of a list whose items are not packed. -/
theorem takeField_item
    (hread : Reads message inner size) (hd : d.IsOf inner f.kind) (harity : f.arity = .list)
    (hkind : isPacked f.kind = false) (hsize : (payload f.kind d).length ≤ size)
    (hbound : size ≤ 2 ^ 64) (held : Datum) (rest : List UInt8) :
    takeField message f (formOf f.kind) held (payload f.kind d ++ rest) =
      .ok (.list (itemsOf held ++ [d]), rest) := by
  obtain ⟨tag, name, jsonKey, kind, arity⟩ := f
  dsimp only at hd harity hkind hsize ⊢
  subst harity
  cases hd with
  | text s =>
      have hlength := length_lt_delimited (Utf8.bytes s)
      have htext := takeText_delimited (s := s) (by simp only [payload] at hsize; omega) rest
      have happended : (takeText (delimited (Utf8.bytes s) ++ rest)).map
          (fun r => (Datum.list (itemsOf held ++ [r.1]), r.2)) =
            .ok (.list (itemsOf held ++ [.text s]), rest) := by
        rw [htext]
        rfl
      exact happended
  | @record t ds h =>
      have hlength := length_lt_delimited (writeFields t.fields ds)
      have hinside := hread t ds rest h (by simp only [payload] at hsize; omega)
      have happended : (message t (Message.zero t).fields
          (delimited (writeFields t.fields ds) ++ rest)).map
            (fun r => (Datum.list (itemsOf held ++ [.record r.1]), r.2)) =
            .ok (.list (itemsOf held ++ [.record ds]), rest) := by
        rw [hinside]
        rfl
      exact happended
  | flag => cases hkind
  | integer => cases hkind
  | int64 => cases hkind

/-- The packed items of a list. -/
theorem takeField_packed
    {items : List Datum}
    (h : ∀ d ∈ items, d.IsOf inner f.kind) (hcarries : Carries f.kind) (harity : f.arity = .list)
    (hkind : isPacked f.kind = true) (hsize : (items.flatMap scalarBytes).length < 2 ^ 64)
    (held : Datum) (rest : List UInt8) :
    takeField message f .lengthDelimited held (delimited (items.flatMap scalarBytes) ++ rest) =
      .ok (.list (itemsOf held ++ items), rest) := by
  obtain ⟨tag, name, jsonKey, kind, arity⟩ := f
  dsimp only at h hcarries harity hkind ⊢
  subst harity
  have hfuel : items.length ≤ (items.flatMap scalarBytes ++ rest).length + 1 := by
    have hle := length_le_flatMap_scalarBytes h hkind
    rw [List.length_append]
    omega
  have hspan : takeSpan (fun limit bs => takeScalars kind limit (bs.length + 1) bs)
      (delimited (items.flatMap scalarBytes) ++ rest) = .ok (items, rest) :=
    takeSpan_delimited hsize (takeScalars_flatMap h hcarries hkind hfuel rest)
  have happended : (takeSpan (fun limit bs => takeScalars kind limit (bs.length + 1) bs)
      (delimited (items.flatMap scalarBytes) ++ rest)).map
        (fun r => (Datum.list (itemsOf held ++ r.1), r.2)) =
        .ok (.list (itemsOf held ++ items), rest) := by
    rw [hspan]
    rfl
  cases hcarries with
  | text => cases hkind
  | record => cases hkind
  | flag => exact happended
  | int64 => exact happended
  | int32 => exact happended
  | uint32 => exact happended

/-!
## The loop
-/

/-- The reader of the messages inside a message that is read with so much fuel. -/
def inside (fuel depth : Nat) (u : MessageType) (held : List Datum) (bytes : List UInt8) :
    Step (List Datum) :=
  if depth = 0 then .error ⟨.tooDeep, []⟩
  else takeSpan (fun limit bs => takeFields fuel (depth - 1) u limit held bs) bytes

/-- The loop takes bytes in some turns and then holds other data; no turn takes less than a byte. -/
def Turns (depth : Nat) (t : MessageType) (limit : Nat) (bytes : List UInt8)
    (before after : List Datum) : Prop :=
  ∀ fuel rest, bytes.length < fuel → limit ≤ rest.length →
    ∃ left, fuel ≤ left + bytes.length ∧
      takeFields fuel depth t limit before (bytes ++ rest) =
        takeFields left depth t limit after rest

section Loop

variable {depth limit : Nat} {t : MessageType} {a b c : List Datum}

theorem Turns.nil
    (a : List Datum) :
    Turns depth t limit [] a a :=
  fun fuel rest _ _ => ⟨fuel, Nat.le_refl _, by rw [List.nil_append]⟩

theorem Turns.append
    {u v : List UInt8}
    (hu : Turns depth t limit u a b) (hv : Turns depth t limit v b c) :
    Turns depth t limit (u ++ v) a c := by
  intro fuel rest hfuel hlimit
  rw [List.length_append] at hfuel ⊢
  have hbehind : limit ≤ (v ++ rest).length := by
    rw [List.length_append]
    omega
  obtain ⟨left, hleft, heq⟩ := hu fuel (v ++ rest) (by omega) hbehind
  obtain ⟨last, hlast, heq'⟩ := hv left rest (by omega) hlimit
  refine ⟨last, by omega, ?_⟩
  rw [List.append_assoc, heq, heq']

/-- One turn of the loop takes one piece. -/
theorem turns_piece
    {i : Nat} {form : Form} {bytes : List UInt8}
    (hf : Portable f) (hfield : t.field? f.tag = some (i, f))
    (hread : ∀ fuel rest, bytes.length ≤ fuel →
      takeField (inside fuel depth) f form (a.getD i .absent) (bytes ++ rest) = .ok (d, rest)) :
    Turns depth t limit (key f.tag form ++ bytes) a (a.set i d) := by
  intro fuel rest hfuel hlimit
  have hkey : 0 < (key f.tag form).length := varint_length_pos _
  rw [List.length_append] at hfuel
  cases fuel with
  | zero => cases hfuel
  | succ fuel =>
      have hlong : ¬ (key f.tag form ++ bytes ++ rest).length ≤ limit := by
        simp only [List.length_append]
        omega
      refine ⟨fuel, by rw [List.length_append]; omega, ?_⟩
      have hvalue := hread fuel rest (by omega)
      unfold inside at hvalue
      rw [takeFields, if_neg hlong, List.append_assoc, takeKey_key hf]
      simp only [hfield, hvalue]

/-- A field is found by its tag. -/
theorem field?_of_fields_eq
    {pre post : List MessageField}
    (h : t.fields = pre ++ f :: post) :
    t.field? f.tag = some (pre.length, f) := by
  have hnodup := t.tags_nodup
  rw [h, List.map_append, List.map_cons] at hnodup
  have hbefore : (pre.zipIdx.find? fun p => p.1.tag == f.tag) = none := by
    rw [List.find?_eq_none]
    rintro ⟨g, i⟩ hg
    have hmem : g ∈ pre := by
      have hfst := List.mem_map_of_mem (f := Prod.fst) hg
      rwa [List.zipIdx_map_fst] at hfst
    have hne : g.tag ≠ f.tag := by
      intro heq
      have hdisjoint := (List.nodup_append.mp hnodup).2.2
      exact hdisjoint g.tag (List.mem_map_of_mem hmem) f.tag (List.mem_cons_self ..) heq
    simpa using hne
  unfold MessageType.field?
  rw [h, List.zipIdx_append, List.find?_append, hbefore]
  simp

/-- How messages inside are read, whatever fuel is left. -/
def ReadsInside (depth : Nat) (inner : MessageType → List Datum → Prop) : Prop :=
  ∀ fuel size, size ≤ fuel → size ≤ 2 ^ 64 → Reads (inside fuel depth) inner size

/-- What is written of a field. -/
def written (f : MessageField) (d : Datum) : List UInt8 :=
  if isZero d then [] else writeDatum f.tag f.kind d

variable {pre post : List MessageField} {done behind : List Datum}

theorem getD_append_cons
    (hdone : done.length = pre.length) :
    (done ++ d :: behind).getD pre.length .absent = d := by
  rw [← hdone, List.getD_eq_getElem?_getD, List.getElem?_append_right (Nat.le_refl _), Nat.sub_self]
  rfl

theorem set_append_cons
    {e : Datum}
    (hdone : done.length = pre.length) :
    (done ++ d :: behind).set pre.length e = done ++ e :: behind := by
  rw [← hdone, List.set_append_right _ _ (Nat.le_refl _), Nat.sub_self]
  rfl

/-- The field behind those that are done makes one piece. -/
theorem turns_field
    {form : Form} {bytes : List UInt8} {held : Datum}
    (hfields : t.fields = pre ++ f :: post) (hdone : done.length = pre.length) (hf : Portable f)
    (hread : ∀ fuel rest, bytes.length ≤ fuel →
      takeField (inside fuel depth) f form held (bytes ++ rest) = .ok (d, rest)) :
    Turns depth t limit (key f.tag form ++ bytes) (done ++ held :: behind)
      (done ++ d :: behind) := by
  have hpiece : Turns depth t limit (key f.tag form ++ bytes) (done ++ held :: behind)
      ((done ++ held :: behind).set pre.length d) := by
    refine turns_piece hf (field?_of_fields_eq hfields) fun fuel rest hfuel => ?_
    rw [getD_append_cons hdone]
    exact hread fuel rest hfuel
  rwa [set_append_cons hdone] at hpiece

/-- A field that holds one value makes one piece. -/
theorem turns_single
    (hread : ReadsInside depth inner) (hfields : t.fields = pre ++ f :: post)
    (hdone : done.length = pre.length) (hf : Portable f) (hd : d.IsOf inner f.kind)
    (harity : f.arity ≠ .list) (hsize : (writeDatum f.tag f.kind d).length < 2 ^ 64)
    {held : Datum} (hheld : ∀ u, fieldsOf u held = (Message.zero u).fields) :
    Turns depth t limit (writeDatum f.tag f.kind d) (done ++ held :: behind)
      (done ++ d :: behind) := by
  rw [writeDatum_eq hd] at hsize ⊢
  rw [List.length_append] at hsize
  refine turns_field hfields hdone hf fun fuel rest hfuel => ?_
  exact takeField_single (hread fuel _ hfuel (by omega)) hd hf.carries harity (Nat.le_refl _)
    (by omega) hheld rest

/-- The items of a list that are not packed make a piece each. -/
theorem turns_items
    (hread : ReadsInside depth inner) (hfields : t.fields = pre ++ f :: post)
    (hdone : done.length = pre.length) (hf : Portable f) (harity : f.arity = .list)
    (hkind : isPacked f.kind = false) {items : List Datum}
    (h : ∀ d ∈ items, d.IsOf inner f.kind)
    (hsize : (writeItems f.tag f.kind items).length < 2 ^ 64) (before : List Datum) :
    Turns depth t limit (writeItems f.tag f.kind items) (done ++ .list before :: behind)
      (done ++ .list (before ++ items) :: behind) := by
  induction items generalizing before with
  | nil =>
      rw [List.append_nil]
      exact .nil _
  | cons d ds ih =>
      have hd := h d (List.mem_cons_self ..)
      have hwrite : writeItems f.tag f.kind (d :: ds) =
          key f.tag (formOf f.kind) ++ payload f.kind d ++ writeItems f.tag f.kind ds := by
        rw [writeItems, writeDatum_eq hd]
      rw [hwrite] at hsize ⊢
      simp only [List.length_append] at hsize
      have hfirst : Turns depth t limit (key f.tag (formOf f.kind) ++ payload f.kind d)
          (done ++ .list before :: behind) (done ++ .list (before ++ [d]) :: behind) := by
        refine turns_field hfields hdone hf fun fuel rest hfuel => ?_
        exact takeField_item (hread fuel _ hfuel (by omega)) hd harity hkind (Nat.le_refl _)
          (by omega) _ rest
      have hrest := ih (fun e he => h e (List.mem_cons_of_mem _ he)) (by omega) (before ++ [d])
      rw [List.append_assoc] at hrest
      exact hfirst.append hrest

/-- The items of a list that are packed make one piece, if there are any. -/
theorem turns_packed
    (hfields : t.fields = pre ++ f :: post) (hdone : done.length = pre.length) (hf : Portable f)
    (harity : f.arity = .list) (hkind : isPacked f.kind = true) {items : List Datum}
    (h : ∀ d ∈ items, d.IsOf inner f.kind)
    (hsize : (writeDatum f.tag f.kind (.list items)).length < 2 ^ 64) :
    Turns depth t limit (writeDatum f.tag f.kind (.list items)) (done ++ .list [] :: behind)
      (done ++ .list items :: behind) := by
  cases items with
  | nil =>
      have hwrite : writeDatum f.tag f.kind (.list []) = [] := by
        rw [writeDatum, if_pos hkind]
      rw [hwrite]
      exact .nil _
  | cons d ds =>
      have hwrite : writeDatum f.tag f.kind (.list (d :: ds)) =
          key f.tag .lengthDelimited ++ delimited ((d :: ds).flatMap scalarBytes) := by
        rw [writeDatum, if_pos hkind]
      have hlength := length_lt_delimited ((d :: ds).flatMap scalarBytes)
      rw [hwrite] at hsize ⊢
      rw [List.length_append] at hsize
      refine turns_field hfields hdone hf fun fuel rest _ => ?_
      exact takeField_packed h hf.carries harity hkind (by omega) (.list []) rest

/-- What is not written of a field is its zero value. -/
theorem eq_zeroDatum_of_isZero
    (h : d.IsOf inner kind) (hzero : isZero d = true) :
    d = MessageType.zeroDatum .single kind := by
  cases h with
  | text s =>
      have hempty : s = "" := by simpa [isZero] using hzero
      rw [hempty]
      rfl
  | flag b =>
      have hfalse : b = false := by simpa [isZero] using hzero
      rw [hfalse]
      rfl
  | @integer _ _ _ n =>
      have hnone : n = 0 := by simpa [isZero] using hzero
      rw [hnone]
      rfl
  | @int64 n =>
      have hnone : n = 0 := by simpa [isZero] using hzero
      rw [hnone]
      rfl
  | record => cases hzero

/-- What is written of a field is taken onto the zero value of the field. -/
theorem turns_written
    (hread : ReadsInside depth inner) (hfields : t.fields = pre ++ f :: post)
    (hdone : done.length = pre.length) (hf : Portable f) (hd : d.Held inner f.arity f.kind)
    (hsize : (written f d).length < 2 ^ 64) :
    Turns depth t limit (written f d)
      (done ++ MessageType.zeroDatum f.arity f.kind :: behind) (done ++ d :: behind) := by
  unfold written at hsize ⊢
  generalize harity : f.arity = arity at hd
  cases hd with
  | single hd =>
      cases hzero : isZero d with
      | true =>
          -- nothing is written, and the zero value is there already
          rw [if_pos rfl, eq_zeroDatum_of_isZero hd hzero]
          exact .nil _
      | false =>
          rw [hzero, if_neg Bool.false_ne_true] at hsize
          rw [if_neg Bool.false_ne_true]
          refine turns_single hread hfields hdone hf hd (by simp [harity]) hsize ?_
          intro u
          cases f.kind <;> rfl
  | absent => exact .nil _
  | present hd =>
      -- an optional field holds a message, which is written even if all its fields are zero
      obtain ⟨u, hu⟩ := hf.optional harity
      have hzero : isZero d = false := by
        rw [hu] at hd
        cases hd
        rfl
      rw [hzero, if_neg Bool.false_ne_true] at hsize
      rw [hzero, if_neg Bool.false_ne_true]
      exact turns_single hread hfields hdone hf hd (by simp [harity]) hsize fun _ => rfl
  | @list _ items h =>
      cases hkind : isPacked f.kind with
      | true => exact turns_packed hfields hdone hf harity hkind h hsize
      | false =>
          have hwrite : writeDatum f.tag f.kind (.list items) =
              writeItems f.tag f.kind items := by
            rw [writeDatum.eq_def]
            simp only [hkind, Bool.false_eq_true, if_false]
          have hsmall : (writeItems f.tag f.kind items).length < 2 ^ 64 := by
            rw [← hwrite]
            exact hsize
          rw [if_neg (by simp [isZero]), hwrite]
          exact turns_items hread hfields hdone hf harity hkind h hsmall []

/-- The fields that are not done yet are taken one after another. -/
theorem turns_fields
    (hread : ReadsInside depth inner) {post : List MessageField} {ds : List Datum}
    (hfields : t.fields = pre ++ post) (hdone : done.length = pre.length)
    (h : List.Forall₂ (fun f d => Datum.Held inner f.arity f.kind d) post ds)
    (hsize : (writeFields post ds).length < 2 ^ 64) :
    Turns depth t limit (writeFields post ds)
      (done ++ post.map fun f => MessageType.zeroDatum f.arity f.kind) (done ++ ds) := by
  induction h generalizing pre done with
  | nil => exact .nil _
  | @cons f d post ds hd hrest ih =>
      have hmem : f ∈ t.fields := by
        rw [hfields]
        exact List.mem_append_right _ (List.mem_cons_self ..)
      have hwrite : writeFields (f :: post) (d :: ds) = written f d ++ writeFields post ds := rfl
      rw [hwrite] at hsize ⊢
      rw [List.length_append] at hsize
      have hfields' : t.fields = pre ++ [f] ++ post := by rw [hfields, List.append_cons]
      have hdone' : (done ++ [d]).length = (pre ++ [f]).length := by simp [hdone]
      have hlater := ih hfields' hdone' (by omega)
      simp only [List.append_assoc, List.singleton_append] at hlater
      refine .append ?_ hlater
      exact turns_written hread hfields hdone (portable_of_mem hmem) hd (by omega)

/-- What is written of a message is taken onto its zero value. -/
theorem turns_message
    (hread : ReadsInside depth inner) {ds : List Datum}
    (h : List.Forall₂ (fun f d => Datum.Held inner f.arity f.kind d) t.fields ds)
    (hsize : (writeFields t.fields ds).length < 2 ^ 64) :
    Turns depth t limit (writeFields t.fields ds) (Message.zero t).fields ds := by
  have hfields : t.fields = [] ++ t.fields := rfl
  have hdone : ([] : List Datum).length = ([] : List MessageField).length := rfl
  exact turns_fields hread hfields hdone h hsize

end Loop

/-!
## Whole messages
-/

/-- The loop ends when it has taken all that was written. -/
theorem takeFields_of_turns
    {depth fuel : Nat} {t : MessageType} {bytes rest : List UInt8} {before after : List Datum}
    (h : Turns depth t rest.length bytes before after) (hfuel : bytes.length < fuel) :
    takeFields fuel depth t rest.length before (bytes ++ rest) = .ok (after, rest) := by
  obtain ⟨left, hleft, heq⟩ := h fuel rest hfuel (Nat.le_refl _)
  rw [heq]
  cases left with
  | zero => omega
  | succ left => rw [takeFields, if_pos (Nat.le_refl _)]

/-- The messages inside are read if they nest no deeper than the reader goes. -/
theorem readsInside_fits
    {levels depth : Nat}
    (h : levels ≤ depth) :
    ReadsInside depth (MessageType.Fits levels) := by
  -- the fuel is that of the outermost message: it lasts for all bytes inside, whatever the level
  induction levels generalizing depth with
  | zero =>
      intro fuel size _ _ t ds rest hfits
      cases hfits
  | succ levels ih =>
      intro fuel size hfuel hbound t ds rest hfits hlength
      have hdepth : depth ≠ 0 := by omega
      have hsmall : (writeFields t.fields ds).length < 2 ^ 64 := by omega
      have hinside : ReadsInside (depth - 1) (MessageType.Fits levels) := ih (by omega)
      rw [inside, if_neg hdepth]
      exact takeSpan_delimited hsmall
        (takeFields_of_turns (turns_message hinside hfits hsmall) (by omega))

end Wire

namespace Message

/-- A message that nests no deeper than the reader goes is read as it was written. -/
theorem ofWire_toWire
    {m : Message} {levels : Nat}
    (h : m.type.Fits (levels + 1) m.fields) (hdepth : levels ≤ Wire.maxDepth)
    (hsize : m.toWire.length < 2 ^ 64) :
    ofWire m.type m.toWire = .ok m := by
  have hturns : Wire.Turns Wire.maxDepth m.type ([] : List UInt8).length m.toWire
      (zero m.type).fields m.fields :=
    Wire.turns_message (Wire.readsInside_fits hdepth) h hsize
  have hread := Wire.takeFields_of_turns hturns (Nat.lt_succ_self _)
  rw [List.append_nil] at hread
  have hfields : Wire.takeFields (m.toWire.length + 1) Wire.maxDepth m.type 0
      (zero m.type).fields m.toWire = .ok (m.fields, []) := hread
  rw [ofWire, hfields]

/-- The messages of services are read as they were written. -/
theorem ofWire_toWire_of_isService
    {m : Message}
    (hservice : m.type.isService = true) (h : m.WellFormed) (hsize : m.toWire.length < 2 ^ 64) :
    ofWire m.type m.toWire = .ok m := by
  obtain ⟨levels, hfits⟩ := h
  exact ofWire_toWire (MessageType.fits_two_of_isService hservice hfits) (by decide) hsize

end Message
end RpcGateway
