import Tenancy.Proofs.Json.Reordering

/-! # Normal forms stay exact

A document with integers of 64 bits for its numbers has a normal form with such numbers too, unless a form
reads doubles or a gap is filled with one. The text of the normal form can then be read back.
-/

namespace Tenancy.Json

variable {schema item : Schema} {layout : Layout} {fields : Fields} {depth : Nat} {value normal : Json}
  {items : List Json} {members known : List (String × Json)} {got : Members}

/-- No form anywhere in the schema reads doubles, and no gap is filled with one. -/
def Schema.isExact : Schema → Bool := Schema.every isIntegral fun
  | .double => false
  | _ => true

def Fields.isExact : Fields → Bool := Fields.every isIntegral fun
  | .double => false
  | _ => true

theorem Fields.isExact_cons {name : String} {absent void : Gap} {form : Schema} :
    (Fields.cons name absent void form fields).isExact ↔
      absent.every isIntegral ∧ void.every isIntegral ∧ form.isExact ∧ fields.isExact := by
  simp only [isExact, Schema.isExact, every, Bool.and_eq_true, and_assoc]

/-- What an exact schema makes of a value with whole numbers has whole numbers again. -/
theorem isIntegral_accept (exact : schema.isExact) (integral : value.isIntegral)
    (accepted : schema.accept value = .ok normal) : normal.isIntegral := by
  rw [Schema.accept.eq_def] at accepted
  split at accepted
  · cases accepted; exact integral
  · cases accepted; rfl
  · cases accepted; rfl
  · cases accepted; rfl
  · exact (Bool.false_ne_true exact).elim
  · rw [Schema.acceptInteger.eq_def] at accepted
    split at accepted
    · split_ifs at accepted
      cases accepted
      exact integral
    · cases accepted
  · split at accepted
    · cases accepted; rfl
    · cases accepted
  · split at accepted
    · cases accepted; rfl
    · cases accepted
  · cases accepted

/-- Decoding the value keeps its numbers exact, whatever the schema. -/
def StaysExact (j : Json) : Prop :=
  ∀ schema depth normal, schema.isExact → decodeWithin j depth schema = some normal → normal.isIntegral

/-! ## Parts -/

private theorem isIntegral_itemsWithin (each : ∀ value ∈ items, StaysExact value) (exact : item.isExact) :
    ∀ {normals : List Json}, itemsWithin items depth item = some normals →
      ∀ normal ∈ normals, normal.isIntegral := by
  induction items with
  | nil =>
    intro normals found
    rw [itemsWithin] at found
    cases found
    exact List.forall_mem_nil _
  | cons value items ih =>
    intro normals found
    rw [List.forall_mem_cons] at each
    simp only [itemsWithin, Option.bind_eq_bind, Option.bind_eq_some_iff, Option.pure_def,
      Option.some.injEq] at found
    obtain ⟨normal, first, normals, others, rfl⟩ := found
    exact List.forall_mem_cons.mpr ⟨each.1 _ _ _ exact first, ih each.2 others⟩

private theorem isIntegral_tableWithin (each : ∀ m ∈ members, StaysExact m.2) (exact : item.isExact) :
    ∀ {normals : List (String × Json)}, tableWithin members depth item = some normals →
      ∀ m ∈ normals, m.2.isIntegral := by
  induction members with
  | nil =>
    intro normals found
    rw [tableWithin] at found
    cases found
    exact List.forall_mem_nil _
  | cons entry members ih =>
    obtain ⟨name, value⟩ := entry
    intro normals found
    rw [List.forall_mem_cons] at each
    simp only [tableWithin, Option.bind_eq_bind, Option.bind_eq_some_iff, Option.pure_def,
      Option.some.injEq] at found
    obtain ⟨normal, first, normals, others, rfl⟩ := found
    exact List.forall_mem_cons.mpr ⟨each.1 _ _ _ exact first, ih each.2 others⟩

private theorem isIntegral_take (field : Field) (integral : value.isIntegral) (stays : StaysExact value)
    (exact : field.form.isExact)
    (taken : field.take value (decodeWithin value depth field.form) = some normal) :
    normal.isIntegral := by
  rw [Field.take] at taken
  split_ifs at taken
  · cases taken
    exact integral
  · exact stays _ _ _ exact taken

private theorem isIntegral_membersWithin (integral : ∀ m ∈ members, m.2.isIntegral)
    (each : ∀ m ∈ members, StaysExact m.2) (exact : fields.isExact)
    (held : membersWithin members depth layout fields = some got) :
    (∀ m ∈ got.read, m.2.isIntegral) ∧ ∀ m ∈ got.gathered, m.2.isIntegral := by
  induction members generalizing got with
  | nil =>
    rw [membersWithin] at held
    cases held
    exact ⟨List.forall_mem_nil _, List.forall_mem_nil _⟩
  | cons entry members ih =>
    obtain ⟨name, value⟩ := entry
    rw [List.forall_mem_cons] at integral each
    obtain ⟨here, later, taken, others, rfl⟩ := membersWithin_cons.mp held
    have rest := ih integral.2 each.2 others
    have first : (∀ m ∈ here.read, m.2.isIntegral) ∧ ∀ m ∈ here.gathered, m.2.isIntegral := by
      cases known : fields.find? name with
      | some field =>
        rw [takeMember_known known, Option.bind_eq_some_iff] at taken
        obtain ⟨normal, read, taken⟩ := taken
        obtain ⟨-, -, same⟩ := Option.map_eq_some_iff.mp taken
        subst same
        have among := (Fields.mem_of_find? known).1
        exact ⟨List.forall_mem_singleton.mpr
          (isIntegral_take field integral.1 each.1 (Fields.every_form exact field among) read),
          List.forall_mem_nil _⟩
      | none =>
        cases layout with
        | gathered record surplus =>
          rw [takeMember_gathered known] at taken
          split_ifs at taken
          cases taken
          exact ⟨List.forall_mem_nil _, List.forall_mem_singleton.mpr integral.1⟩
        | _ =>
          rw [takeMember_skipped known (by simp)] at taken
          cases taken
          exact ⟨List.forall_mem_nil _, List.forall_mem_nil _⟩
    exact ⟨List.forall_mem_append.mpr ⟨rest.1, first.1⟩, List.forall_mem_append.mpr ⟨rest.2, first.2⟩⟩

private theorem isIntegral_complete (exact : fields.isExact)
    (read : ∀ name field value, fields.find? name = some field → lookup name got.read = some value →
      value.isIntegral)
    (gathered : ∀ name value, lookup name got.gathered = some value → value.isIntegral)
    (complete : layout.complete fields got = .ok members) : ∀ m ∈ members, m.2.isIntegral := by
  rw [Layout.complete] at complete
  obtain ⟨known, assembled, complete⟩ := bind_eq_ok.mp complete
  have knows : ∀ m ∈ known, m.2.isIntegral := by
    intro m present
    rcases Fields.mem_assemble assembled present with ⟨found, -⟩ | filled
    · obtain ⟨field, among, named⟩ := Fields.name_of_assemble assembled m present
      cases known : fields.find? m.1 with
      | none => exact absurd named (Fields.find?_eq_none_iff.mp known field among)
      | some field => exact read _ field _ known found
    · exact Fields.every_fills exact m filled
  cases layout with
  | gathered kind surplus =>
    obtain ⟨types, left, completes, kept⟩ := complete_surplus complete
    obtain rfl := Except.ok.inj (complete.symm.trans (completes known))
    refine List.forall_mem_append.mpr ⟨List.forall_mem_append.mpr ⟨?_, knows⟩, ?_⟩
    · cases types with
      | none => exact List.forall_mem_nil _
      | some types => exact List.forall_mem_cons.mpr ⟨rfl, List.forall_mem_singleton.mpr rfl⟩
    · rcases kept with rfl | ⟨-, rfl⟩
      · intro m present
        have last := lookup_of_mem (increasing_ofMembers _).nodup present
        rw [lookup_ofMembers] at last
        have among := lookup_of_takeTypes last
        rw [List.reverse_reverse] at among
        exact gathered _ _ among
      · exact List.forall_mem_nil _
  | _ =>
    cases complete
    exact knows

private theorem isIntegral_members? {gap : Gap} (name : String) (exact : gap.every isIntegral)
    (found : gap.members? name = some known) : ∀ m ∈ known, m.2.isIntegral := by
  cases gap with
  | fill value => cases found; exact List.forall_mem_singleton.mpr exact
  | refuse => cases found
  | _ => cases found; exact List.forall_mem_nil _

private theorem isIntegral_vacancies : ∀ {fields : Fields} {known : List (String × Json)}, fields.isExact →
    fields.vacancies? = some known → ∀ m ∈ known, m.2.isIntegral
  | .nil, known, _, found => by
    cases found
    exact List.forall_mem_nil _
  | .cons name absent void form fields, known, exact, found => by
    obtain ⟨whenAbsent, -, -, exact⟩ := Fields.isExact_cons.mp exact
    simp only [Fields.vacancies?, Option.bind_eq_bind, Option.bind_eq_some_iff, Option.pure_def,
      Option.some.injEq] at found
    obtain ⟨here, vacant, later, others, rfl⟩ := found
    refine List.forall_mem_append.mpr ⟨?_, isIntegral_vacancies exact others⟩
    cases absent with
    | omitPlaced => cases vacant
    | _ => exact isIntegral_members? name whenAbsent vacant

private theorem isIntegral_placesWithin : ∀ {items : List Json} {fields : Fields}
    {known : List (String × Json)}, (∀ value ∈ items, value.isIntegral) →
      (∀ value ∈ items, StaysExact value) → fields.isExact →
      placesWithin items depth fields = some known → ∀ m ∈ known, m.2.isIntegral
  | [], fields, known, _, _, exact, found => by
    rw [placesWithin] at found
    exact isIntegral_vacancies exact found
  | value :: items, .nil, known, _, _, _, found => by
    rw [placesWithin] at found
    cases found
  | value :: items, .cons name absent void form fields, known, integral, each, exact, found => by
    rw [List.forall_mem_cons] at integral each
    obtain ⟨-, whenVoid, formExact, exact⟩ := Fields.isExact_cons.mp exact
    simp only [placesWithin, Field.place, Option.bind_eq_bind, Option.bind_eq_some_iff, Option.pure_def,
      Option.some.injEq] at found
    obtain ⟨here, ⟨normal, taken, placed⟩, later, others, rfl⟩ := found
    refine List.forall_mem_append.mpr
      ⟨?_, isIntegral_placesWithin integral.2 each.2 exact others⟩
    split_ifs at placed
    · exact isIntegral_members? name whenVoid placed
    · cases placed
      exact List.forall_mem_singleton.mpr
        (isIntegral_take ⟨name, absent, void, form⟩ integral.1 each.1 formExact taken)

/-! ## Values -/

private theorem staysExact_scalar (scalar : value.isScalar) (integral : value.isIntegral) :
    StaysExact value := by
  intro schema depth normal exact decoded
  by_cases plain : ∀ names, schema ≠ .choice names
  · rw [decodeWithin_scalar scalar plain, toOption_eq_some] at decoded
    exact isIntegral_accept exact integral decoded
  · obtain ⟨names, rfl⟩ : ∃ names, schema = .choice names := by simpa using plain
    cases value with
    | string s =>
      rw [decodeWithin] at decoded
      split_ifs at decoded
      cases decoded
      rfl
    | array items => exact (Bool.false_ne_true scalar).elim
    | object members => exact (Bool.false_ne_true scalar).elim
    | _ => cases decoded

private theorem staysExact_array (integral : ∀ item ∈ items, item.isIntegral)
    (each : ∀ item ∈ items, StaysExact item) : StaysExact (.array items) := by
  intro schema depth normal exact decoded
  cases schema with
  | document =>
    rw [decodeWithin] at decoded
    split_ifs at decoded
    cases decoded
    exact isIntegral_array.mpr integral
  | list item =>
    rw [decodeWithin] at decoded
    split_ifs at decoded
    simp only [Option.bind_eq_bind, Option.bind_eq_some_iff, Option.pure_def, Option.some.injEq] at decoded
    obtain ⟨normals, found, rfl⟩ := decoded
    have exact : item.isExact := exact
    exact isIntegral_array.mpr (isIntegral_itemsWithin each exact found)
  | record layout fields =>
    cases layout with
    | declared name =>
      rw [decodeWithin] at decoded
      split_ifs at decoded
      simp only [Option.bind_eq_bind, Option.bind_eq_some_iff, Option.pure_def, Option.some.injEq] at decoded
      obtain ⟨known, found, rfl⟩ := decoded
      exact isIntegral_object.mpr (isIntegral_placesWithin integral each exact found)
    | _ => cases decoded
  | _ => cases decoded

private theorem isIntegral_decodeChoice {names : List String}
    (decoded : decodeChoice names members = .ok normal) : normal.isIntegral := by
  rw [decodeChoice.eq_def] at decoded
  split at decoded
  · split_ifs at decoded
    cases decoded
    rfl
  · cases decoded

private theorem staysExact_object (integral : ∀ m ∈ members, m.2.isIntegral)
    (each : ∀ m ∈ members, StaysExact m.2) : StaysExact (.object members) := by
  intro schema depth normal exact decoded
  cases schema with
  | document =>
    rw [decodeWithin] at decoded
    split_ifs at decoded
    cases decoded
    exact isIntegral_object.mpr integral
  | table item =>
    rw [decodeWithin] at decoded
    split_ifs at decoded
    simp only [Option.bind_eq_bind, Option.bind_eq_some_iff, Option.pure_def, Option.some.injEq] at decoded
    obtain ⟨normals, found, rfl⟩ := decoded
    have exact : item.isExact := exact
    have kept := isIntegral_tableWithin each exact found
    exact isIntegral_object.mpr fun m present => kept m (mem_of_mem_ofMembers present)
  | choice names =>
    rw [decodeWithin] at decoded
    split_ifs at decoded
    exact isIntegral_decodeChoice (toOption_eq_some.mp decoded)
  | record layout fields =>
    obtain ⟨-, got, members, held, complete, rfl⟩ := decodeWithin_record.mp decoded
    obtain ⟨read, gathered⟩ := isIntegral_membersWithin integral each exact held
    exact isIntegral_object.mpr (isIntegral_complete exact (fun _ _ _ _ found => read _ (mem_of_lookup found))
      (fun _ _ found => gathered _ (mem_of_lookup found)) complete)
  | _ => cases decoded

/-- The normal form of an exact document by an exact schema is exact. -/
theorem staysExact (j : Json) (integral : j.isIntegral) : StaysExact j := by
  induction j using parts_induction with
  | null | bool b | number n | string s => exact staysExact_scalar rfl integral
  | array items ih =>
    rw [isIntegral_array] at integral
    exact staysExact_array integral fun item present => ih item present (integral item present)
  | object members ih =>
    rw [isIntegral_object] at integral
    exact staysExact_object integral fun m present => ih m present (integral m present)

/-- What a record keeps of the members of a text is exact if the document is, whatever the text says of members
that do not count. -/
theorem isIntegral_keep {kind : String} {texts : List (String × Json)} (exact : fields.isExact)
    (integral : ∀ m ∈ ofMembers texts, m.2.isIntegral)
    (held : membersWithin texts depth (.gathered kind .keep) fields = some got)
    (complete : (Layout.gathered kind .keep).complete fields got = .ok members) :
    ∀ m ∈ members, m.2.isIntegral := by
  have last {name : String} {value : Json} (found : lookup name texts.reverse = some value) :
      value.isIntegral := by
    rw [← lookup_ofMembers] at found
    exact integral _ (mem_of_lookup found)
  refine isIntegral_complete exact (fun name field value known found => ?_) (fun name value found => ?_) complete
  · have taken := lookup_read_membersWithin known held
    rw [found, Option.map_some, eq_comm, Option.map_eq_some_iff] at taken
    obtain ⟨source, present, read⟩ := taken
    have exactForm := Fields.every_form exact field (Fields.mem_of_find? known).1
    exact isIntegral_take field (last present) (staysExact source (last present)) exactForm read
  · rw [← List.reverse_reverse got.gathered, gathered_membersWithin held, ← List.filter_reverse,
      lookup_filter fun name => (fields.find? name).isNone] at found
    split_ifs at found
    exact last found

end Tenancy.Json
