import Tenancy.Proofs.Json.Normal

/-! # Records of skipped surplus

A declared record makes of an object what its fields make of the members that have their names, one field
after the other. No field looks at the member of another, and the members that no field describes do not
count.
-/

namespace Tenancy.Json

variable {depth : Nat} {fields : Fields} {form : Schema} {field : Field} {name kind : String}
  {value : Json} {member? : Option Json} {members normal here : List (String × Json)} {got : Members}

/-- What a field contributes to the normal form, of the member under its name. -/
def Field.draw (depth : Nat) (field : Field) : Option Json → Option (List (String × Json))
  | none => field.absent.members? field.name
  | some value => do
    let value ← field.take value (decodeWithin value depth field.form)
    let () ← (field.form.checkLiteral value).toOption
    if value.isNull then field.void.members? field.name else some [(field.name, value)]

/-- What the fields contribute, of the members of an object. -/
def Fields.drawn (depth : Nat) (members : List (String × Json)) : Fields → Option (List (String × Json))
  | .nil => some []
  | .cons name absent void form rest => do
    let here ← Field.draw depth ⟨name, absent, void, form⟩ (lookup name members)
    return here ++ (← rest.drawn depth members)

theorem drawn_cons {rest : List Field} : (Fields.ofList (field :: rest)).drawn depth members = some normal ↔
    ∃ here, field.draw depth (lookup field.name members) = some here ∧
      ∃ later, (Fields.ofList rest).drawn depth members = some later ∧ here ++ later = normal := by
  simp only [Fields.ofList, Fields.drawn, Option.bind_eq_bind, Option.bind_eq_some_iff, Option.pure_def,
    Option.some.injEq]

/-- Fields that contribute the values that are present, one each. -/
theorem drawn_present {rest : List Field} {v : String × Option Json} {values : List (String × Option Json)}
    (first : field.draw depth (lookup field.name members) = some (present [v]))
    (others : (Fields.ofList rest).drawn depth members = some (present values)) :
    (Fields.ofList (field :: rest)).drawn depth members = some (present (v :: values)) :=
  drawn_cons.mpr ⟨_, first, _, others, present_append.symm⟩

/-- Where anything is contributed, every field contributes. -/
theorem draw_of_drawn : ∀ {fields : Fields} {normal : List (String × Json)},
    fields.drawn depth members = some normal → ∀ field ∈ fields.toList,
      ∃ here, field.draw depth (lookup field.name members) = some here
  | .nil, _, _ => List.forall_mem_nil _
  | .cons name absent void form rest, _, found => by
    simp only [Fields.drawn, Option.bind_eq_bind, Option.bind_eq_some_iff] at found
    obtain ⟨here, first, later, others, -⟩ := found
    exact List.forall_mem_cons.mpr ⟨⟨here, first⟩, draw_of_drawn others⟩

/-- A member of a field that contributes is taken. -/
theorem takeMember_of_draw (known : fields.find? name = some field)
    (drawn : field.draw depth (some value) = some here) :
    ∃ held, (takeMember (.declared kind) fields depth name value fun form => decodeWithin value depth form) =
      some held := by
  simp only [Field.draw, Option.bind_eq_bind, Option.bind_eq_some_iff] at drawn
  obtain ⟨taken, read, free, literal, -⟩ := drawn
  rw [takeMember_known known, read, Option.bind_some, literal]
  exact ⟨_, rfl⟩

/-- What a field contributes to a record is what it draws from the members that were read. -/
theorem toOption_contribution (distinct : (members.map Prod.fst).Nodup)
    (held : membersWithin members depth (.declared kind) fields = some got)
    (known : fields.find? field.name = some field) :
    (Fields.contribution got.read field.name field.absent field.void).toOption =
      field.draw depth (lookup field.name members) := by
  cases present : lookup field.name members with
  | none =>
    have unread : lookup field.name got.read = none := lookup_eq_none_iff.mpr fun m read same =>
      lookup_eq_none_iff_not_mem.mp present (same ▸ name_of_membersWithin held m read)
    rw [Fields.contribution, unread, Field.draw]
    cases field.absent.members? field.name <;> rfl
  | some value =>
    obtain ⟨normal, read, literal, found⟩ := lookup_membersWithin distinct held known present
    simp only [Fields.contribution, Field.draw, found, read, Option.bind_eq_bind, Option.bind_some,
      literal, toOption_ok]
    cases normal with
    | null => cases field.void.members? field.name <;> rfl
    | _ => rfl

/-- The normal form is put together from what the fields contribute. -/
theorem toOption_assemble (distinct : (members.map Prod.fst).Nodup)
    (held : membersWithin members depth (.declared kind) fields = some got) :
    ∀ {among : Fields}, (∀ field ∈ among.toList, fields.find? field.name = some field) →
      (among.assemble got.read).toOption = among.drawn depth members
  | .nil, _ => rfl
  | .cons name absent void form rest, known => by
    rw [Fields.toList, List.forall_mem_cons] at known
    rw [Fields.assemble_cons, Fields.drawn, toOption_bind, toOption_contribution distinct held known.1,
      ← toOption_assemble distinct held known.2]
    cases Field.draw depth ⟨name, absent, void, form⟩ (lookup name members) with
    | none => rfl
    | some head => cases rest.assemble got.read <;> rfl

theorem complete_declared :
    (Layout.declared kind).complete fields got = fields.assemble got.read := by
  rw [Layout.complete]
  cases fields.assemble got.read <;> rfl

/-- A declared record is drawn from an object field by field. -/
theorem decodeWithin_declared (distinct : (members.map Prod.fst).Nodup)
    (apart : (fields.toList.map Field.name).Nodup) (deep : 1 < depth) :
    decodeWithin (.object members) depth (.record (.declared kind) fields) =
      (fields.drawn (depth - 1) members).map .object := by
  have known : ∀ field ∈ fields.toList, fields.find? field.name = some field := fun field described =>
    Fields.find?_eq_some_of_mem apart described
  apply Option.ext
  intro record
  rw [decodeWithin_record, Option.map_eq_some_iff]
  constructor
  · rintro ⟨-, got, normal, held, complete, rfl⟩
    refine ⟨normal, ?_, rfl⟩
    rw [← toOption_assemble distinct held known, toOption_eq_some, ← complete_declared, complete]
  · rintro ⟨normal, drawn, rfl⟩
    -- a member is taken because its field contributes, or it is passed over
    obtain ⟨got, held⟩ : ∃ got, membersWithin members (depth - 1) (.declared kind) fields = some got := by
      apply exists_membersWithin
      intro m present
      cases found : fields.find? m.1 with
      | none => exact ⟨_, takeMember_skipped found (by simp)⟩
      | some field =>
        obtain ⟨described, named⟩ := Fields.mem_of_find? found
        obtain ⟨here, contributes⟩ := draw_of_drawn drawn field described
        rw [named, lookup_of_mem distinct present] at contributes
        exact takeMember_of_draw found contributes
    rw [← toOption_assemble distinct held known, toOption_eq_some, ← complete_declared] at drawn
    exact ⟨deep, got, normal, held, drawn, rfl⟩

/-! ## What a member says -/

variable {α : Type} {write : α → Json} {value? : Option α}

/-- The form takes what is written in one way and nothing else. -/
structure Takes (depth : Nat) (form : Schema) (write : α → Json) : Prop where
  normal : ∀ a, Normal depth form (write a)
  only : ∀ value normal, decodeWithin value depth form = some normal → ∃ a, value = write a

/-- What the member of an optional field says: a value, or nothing where it is absent or null. -/
inductive Spells (write : α → Json) : Option Json → Option α → Prop
  | absent : Spells write none none
  | null : Spells write (some .null) none
  | given (a : α) : Spells write (some (write a)) (some a)

/-- The member is absent or null, or it is written in this way. -/
def Suits (write : α → Json) (member? : Option Json) : Prop :=
  ∀ value, member? = some value → value = .null ∨ ∃ a, value = write a

theorem exists_spells (suits : Suits write member?) : ∃ value?, Spells write member? value? := by
  cases member? with
  | none => exact ⟨none, .absent⟩
  | some value =>
    obtain rfl | ⟨a, rfl⟩ := suits value rfl
    · exact ⟨none, .null⟩
    · exact ⟨some a, .given a⟩

theorem spells_map (value? : Option α) : Spells write (value?.map write) value? := by
  cases value? with
  | none => exact .absent
  | some a => exact .given a

/-- What an optional field writes is its member, unless that was null. -/
theorem Spells.map_eq_filter (spells : Spells write member? value?) (nonnull : ∀ a, write a ≠ .null) :
    value?.map write = member?.filter (· ≠ .null) := by
  cases spells with
  | absent => rfl
  | null => rfl
  | given a => rw [Option.map_some, Option.filter_some, if_pos (decide_eq_true (nonnull a))]

theorem Spells.eq_none_of_null (spells : Spells write member? value?) (nonnull : ∀ a, write a ≠ .null)
    (null : member? = some .null) : value? = none := by
  cases spells with
  | absent => rfl
  | null => rfl
  | given a => exact absurd (Option.some.inj null) (nonnull a)

/-- A default says itself where there was no member. -/
theorem Spells.or_default (spells : Spells write member? value?) (default : α) :
    Spells write (member?.or (some (write default))) (if member?.isNone then some default else value?) := by
  cases spells with
  | absent => exact .given default
  | null => exact .null
  | given a => exact .given a

/-- A null stands for the field. -/
theorem draw_null (takesNull : field.takesNull) :
    field.draw depth (some .null) = field.void.members? field.name := by
  have free : field.form.checkLiteral .null = .ok () := by
    cases field.form <;> rfl
  have taken : field.take .null (decodeWithin .null depth field.form) = some .null :=
    if_pos ⟨takesNull, rfl⟩
  simp only [Field.draw, taken, Option.bind_eq_bind, Option.bind_some, free, toOption_ok]
  rfl

/-- A value in normal form stands for itself. -/
theorem Normal.draw (normal : Normal depth field.form value) :
    field.draw depth (some value) = some [(field.name, value)] := by
  simp only [Field.draw, normal.take, normal.free, normal.nonnull, Option.bind_eq_bind, Option.bind_some,
    toOption_ok, Bool.false_eq_true, if_false]

namespace Takes

theorem text : Takes depth .text string where
  normal := Normal.text
  only value normal decoded := by
    cases value with
    | string s => exact ⟨s, rfl⟩
    | _ => cases decoded

theorem boolean : Takes depth .boolean bool where
  normal := Normal.boolean
  only value normal decoded := by
    cases value with
    | bool b => exact ⟨b, rfl⟩
    | _ => cases decoded

private theorem texts_of_itemsWithin {items : List Json} : ∀ {normals : List Json},
    itemsWithin items depth .text = some normals → ∃ texts : List String, items = texts.map string := by
  induction items with
  | nil => exact fun _ => ⟨[], rfl⟩
  | cons item items ih =>
    intro normals read
    simp only [itemsWithin, Option.bind_eq_bind, Option.bind_eq_some_iff] at read
    obtain ⟨first, here, others, later, -⟩ := read
    obtain ⟨s, rfl⟩ := Takes.text.only item first here
    obtain ⟨texts, rfl⟩ := ih later
    exact ⟨s :: texts, rfl⟩

theorem texts (deep : 1 < depth) :
    Takes depth (.list .text) fun texts : List String => array (texts.map string) where
  normal := Normal.texts deep
  only value normal decoded := by
    cases value with
    | array items =>
      rw [decodeWithin, if_neg (Nat.not_le_of_lt deep)] at decoded
      obtain ⟨normals, read, -⟩ := Option.bind_eq_some_iff.mp decoded
      obtain ⟨texts, rfl⟩ := texts_of_itemsWithin read
      exact ⟨texts, rfl⟩
    | _ => cases decoded

/-- A field that reads its member contributes what the member says. -/
theorem exists_of_draw (takes : Takes depth field.form write)
    (reads : ¬(field.takesNull ∧ value.isNull)) (drawn : field.draw depth (some value) = some here) :
    ∃ a, value = write a ∧ here = [(field.name, write a)] := by
  have taken := drawn
  simp only [Field.draw, Field.take, if_neg reads, Option.bind_eq_bind, Option.bind_eq_some_iff] at taken
  obtain ⟨normal, decoded, -⟩ := taken
  obtain ⟨a, rfl⟩ := takes.only value normal decoded
  rw [(takes.normal a).draw] at drawn
  exact ⟨a, rfl, (Option.some.inj drawn).symm⟩

end Takes

/-- An optional field contributes what its member says. -/
theorem draw_optional (takes : Takes depth form write) :
    (Field.optional name form).draw depth member? = some here ↔
      ∃ value?, Spells write member? value? ∧ here = present [(name, value?.map write)] := by
  constructor
  · intro drawn
    cases member? with
    | none =>
      cases drawn
      exact ⟨none, .absent, rfl⟩
    | some value =>
      by_cases null : value.isNull
      · obtain rfl := eq_null_of_isNull null
        rw [draw_null rfl] at drawn
        cases drawn
        exact ⟨none, .null, rfl⟩
      · obtain ⟨a, rfl, rfl⟩ := takes.exists_of_draw (fun both => null both.2) drawn
        exact ⟨some a, .given a, rfl⟩
  · rintro ⟨value?, spells, rfl⟩
    cases spells with
    | absent => rfl
    | null => exact draw_null rfl
    | given a => exact (takes.normal a).draw

/-- A required field contributes what its member says, which must be something. -/
theorem draw_required (takes : Takes depth form write) :
    (Field.required name form).draw depth member? = some here ↔
      ∃ a, member? = some (write a) ∧ here = present [(name, some (write a))] := by
  constructor
  · intro drawn
    cases member? with
    | none => cases drawn
    | some value =>
      have reads : ¬((Field.required name form).takesNull ∧ value.isNull) := fun both => nomatch both.1
      obtain ⟨a, rfl, rfl⟩ := takes.exists_of_draw reads drawn
      exact ⟨a, rfl, rfl⟩
  · rintro ⟨a, rfl, rfl⟩
    exact (takes.normal a).draw

end Tenancy.Json
