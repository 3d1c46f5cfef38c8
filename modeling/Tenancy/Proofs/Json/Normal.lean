import Tenancy.Proofs.Json.Agreement
import Tenancy.Proofs.Json.Records

/-! # Records in normal form

A typed value writes a record as the fields that it has, in the order of the schema, and leaves out those
that it has not. Such a record is its own normal form, so that its text is read back as the very members
that were written. Nothing is asked of their order, which is that of the schema and not that of a document.
-/

namespace Tenancy.Json

variable {depth : Nat} {layout : Layout} {fields : Fields} {form : Schema} {field : Field}
  {absent void : Gap} {name kind : String} {value : Json} {value? : Option Json}
  {values : List (String × Option Json)} {members read : List (String × Json)} {m : String × Json}

/-! ## Members that are present -/

/-- Of members that may be absent, those that are present. -/
def present (values : List (String × Option Json)) : List (String × Json) :=
  values.filterMap fun v => v.2.map fun value => (v.1, value)

theorem record_eq_object : record values = .object (present values) := rfl

theorem present_cons_none : present ((name, none) :: values) = present values := rfl

theorem present_cons_some : present ((name, some value) :: values) = (name, value) :: present values := rfl

theorem present_append {more : List (String × Option Json)} :
    present (values ++ more) = present values ++ present more := List.filterMap_append

theorem names_present_sublist : ((present values).map Prod.fst).Sublist (values.map Prod.fst) := by
  induction values with
  | nil => exact List.Sublist.refl _
  | cons v values ih =>
    obtain ⟨name, value?⟩ := v
    cases value? with
    | none => exact ih.cons _
    | some value => exact ih.cons_cons _

theorem lookup_present_nil : lookup name (present []) = none := rfl

/-- An absent value is passed over, so a later one of its name would be found. -/
theorem lookup_present_cons {key : String} : lookup name (present ((key, value?) :: values)) =
    if key = name then value?.or (lookup name (present values)) else lookup name (present values) := by
  cases value? with
  | none =>
    rw [present_cons_none, Option.none_or]
    split_ifs <;> rfl
  | some value =>
    rw [present_cons_some, lookup, Option.some_or]

theorem lookup_present_eq_none (other : name ∉ values.map Prod.fst) :
    lookup name (present values) = none :=
  lookup_eq_none_iff_not_mem.mpr fun among => other (names_present_sublist.subset among)

/-- Where every name stands once, looking up finds what was given for the name. -/
theorem lookup_present (distinct : (values.map Prod.fst).Nodup) (given : (name, value?) ∈ values) :
    lookup name (present values) = value? := by
  induction values with
  | nil => exact absurd given List.not_mem_nil
  | cons v values ih =>
    obtain ⟨key, first?⟩ := v
    obtain ⟨fresh, apart⟩ := List.nodup_cons.mp distinct
    rw [lookup_present_cons]
    rcases List.mem_cons.mp given with same | later
    · cases same
      rw [if_pos rfl, lookup_present_eq_none fresh, Option.or_none]
    · have other : key ≠ name := by
        rintro rfl
        exact fresh (List.mem_map.mpr ⟨_, later, rfl⟩)
      rw [if_neg other]
      exact ih apart later

/-! ## What was written for a field -/

theorem bind_text?_map (s? : Option String) : (s?.map string).bind text? = s? := by
  cases s? <;> rfl

theorem bind_bool?_map (b? : Option Bool) : (b?.map bool).bind bool? = b? := by
  cases b? <;> rfl

theorem bind_double?_map (d? : Option Double) :
    (d?.map fun d => number (.double d)).bind double? = d? := by
  cases d? <;> rfl

theorem bind_items?_map (texts? : Option (List String)) :
    ((texts?.map fun texts => array (texts.map string)).bind items?).map (·.filterMap text?) = texts? := by
  cases texts? with
  | none => rfl
  | some texts =>
    have back : (texts.map string).filterMap text? = texts := by
      rw [List.filterMap_map]
      exact List.filterMap_some
    exact congrArg some back

/-! ## Values in normal form -/

/-- A value that a form takes as it is, and that can be written without loss. -/
structure Normal (depth : Nat) (form : Schema) (value : Json) : Prop where
  decoded : decodeWithin value depth form = some value
  nonnull : value.isNull = false
  free : form.checkLiteral value = .ok ()
  integral : value.isIntegral
  ordered : value.isOrdered

namespace Normal

theorem text (s : String) : Normal depth .text (.string s) := ⟨rfl, rfl, rfl, rfl, rfl⟩

theorem boolean (b : Bool) : Normal depth .boolean (.bool b) := ⟨rfl, rfl, rfl, rfl, rfl⟩

theorem choice {s : String} {names : List String} (known : s ∈ names) :
    Normal depth (.choice names) (.string s) := ⟨if_pos known, rfl, rfl, rfl, rfl⟩

private theorem itemsWithin_texts (texts : List String) :
    itemsWithin (texts.map .string) depth .text = some (texts.map .string) := by
  induction texts with
  | nil => rfl
  | cons s texts ih =>
    rw [List.map_cons, itemsWithin, ih]
    rfl

theorem texts (deep : 1 < depth) (texts : List String) :
    Normal depth (.list .text) (.array (texts.map .string)) where
  decoded := by
    rw [decodeWithin, if_neg (Nat.not_le_of_lt deep), itemsWithin_texts]
    rfl
  nonnull := rfl
  free := rfl
  integral := isIntegral_array.mpr fun item among => by
    obtain ⟨s, -, rfl⟩ := List.mem_map.mp among
    rfl
  ordered := isOrdered_array.mpr fun item among => by
    obtain ⟨s, -, rfl⟩ := List.mem_map.mp among
    rfl

/-- A value in normal form is taken by its field as it is. -/
theorem take (normal : Normal depth field.form value) :
    field.take value (decodeWithin value depth field.form) = some value := by
  rw [Field.take, normal.nonnull, normal.decoded]
  simp

end Normal

/-! ## Records -/

/-- The fields of a record with what is written for each, nothing for a field that is left out. -/
inductive Fields.Written (depth : Nat) : Fields → List (String × Option Json) → Prop
  | nil : Written depth .nil []
  | omitted {fields : Fields} {values : List (String × Option Json)} {name : String} {absent void : Gap}
      {form : Schema} (gap : absent.members? name = some []) (later : Written depth fields values) :
      Written depth (.cons name absent void form fields) ((name, none) :: values)
  | given {fields : Fields} {values : List (String × Option Json)} {name : String} {absent void : Gap}
      {form : Schema} {value : Json} (normal : Normal depth form value)
      (later : Written depth fields values) :
      Written depth (.cons name absent void form fields) ((name, some value) :: values)

/-- What a record holds of members in normal form: all of them, last first. -/
theorem membersWithin_normal
    (known : ∀ m ∈ members, ∃ field, fields.find? m.1 = some field ∧ Normal depth field.form m.2) :
    membersWithin members depth layout fields = some { read := members.reverse } := by
  induction members with
  | nil => rfl
  | cons m members ih =>
    obtain ⟨name, value⟩ := m
    rw [List.forall_mem_cons] at known
    obtain ⟨⟨field, found, normal⟩, others⟩ := known
    refine membersWithin_cons.mpr ⟨{ read := [(name, value)] }, _, ?_, ih others, ?_⟩
    · rw [takeMember_known found, normal.take, Option.bind_some, normal.free]
      rfl
    · rw [Members.followed, List.reverse_cons]
      rfl

namespace Fields.Written

/-- A field that may be absent, written when there is something to write. -/
theorem optional {α : Type} {write : α → Json} (normal : ∀ a, Normal depth form (write a))
    (a? : Option α) (later : Written depth fields values) :
    Written depth (.cons name .omit .omit form fields) ((name, a?.map write) :: values) := by
  cases a? with
  | none => exact omitted rfl later
  | some a => exact given (normal a) later

/-- A written record has the names of the schema's fields, in their order. -/
theorem names (written : Written depth fields values) :
    values.map Prod.fst = fields.toList.map Field.name := by
  induction written with
  | nil => rfl
  | omitted gap later ih => exact congrArg _ ih
  | given normal later ih => exact congrArg _ ih

/-- What is written is in normal form for the field that has its name. -/
theorem field_of_mem (written : Written depth fields values) (among : m ∈ present values) :
    ∃ field ∈ fields.toList, field.name = m.1 ∧ Normal depth field.form m.2 := by
  induction written with
  | nil => exact absurd among List.not_mem_nil
  | omitted gap later ih =>
    obtain ⟨field, described, named⟩ := ih among
    exact ⟨field, List.mem_cons_of_mem _ described, named⟩
  | given normal later ih =>
    rcases List.mem_cons.mp among with rfl | among
    · exact ⟨_, List.mem_cons_self .., rfl, normal⟩
    · obtain ⟨field, described, named⟩ := ih among
      exact ⟨field, List.mem_cons_of_mem _ described, named⟩

/-- From what was written for each field the same record is put together. -/
theorem assemble (written : Written depth fields values)
    (held : ∀ v ∈ values, lookup v.1 read = v.2) : fields.assemble read = .ok (present values) := by
  induction written with
  | nil => rfl
  | omitted gap later ih =>
    rw [List.forall_mem_cons] at held
    rw [assemble_cons, ih held.2, contribution, held.1]
    simp only [gap]
    rfl
  | given normal later ih =>
    rw [List.forall_mem_cons] at held
    have nonnull := normal.nonnull
    rw [assemble_cons, ih held.2, contribution_of_lookup held.1 (by rintro rfl; cases nonnull)]
    rfl

variable (written : Written (depth - 1) fields values)
  (distinct : (fields.toList.map Field.name).Nodup)

include written distinct

theorem names_nodup : (values.map Prod.fst).Nodup := written.names ▸ distinct

theorem present_nodup : ((present values).map Prod.fst).Nodup :=
  (written.names_nodup distinct).sublist names_present_sublist

/-- A record that was written is its own normal form. -/
theorem decodeWithin_record (deep : 1 < depth) :
    decodeWithin (record values) depth (.record (.declared kind) fields) = some (record values) := by
  have known : ∀ m ∈ present values, ∃ field,
      fields.find? m.1 = some field ∧ Normal (depth - 1) field.form m.2 := by
    intro m among
    obtain ⟨field, described, named, normal⟩ := written.field_of_mem among
    exact ⟨field, named ▸ find?_eq_some_of_mem distinct described, normal⟩
  have held : ∀ v ∈ values, lookup v.1 (present values).reverse = v.2 := by
    intro v given
    rw [lookup_reverse (written.present_nodup distinct)]
    exact lookup_present (written.names_nodup distinct) given
  have complete : (Layout.declared kind).complete fields { read := (present values).reverse } =
      .ok (present values) := by
    rw [Layout.complete, written.assemble held]
    rfl
  exact Json.decodeWithin_record.mpr ⟨deep, _, _, membersWithin_normal known, complete, rfl⟩

end Fields.Written

/-- A record is read back from its text as it was written. -/
theorem Schema.read_record (written : fields.Written (depthLimit - 1) values)
    (distinct : (fields.toList.map Field.name).Nodup)
    (wide : fields.width ≤ (Json.record values).encode.length + 3) :
    (Schema.record (.declared kind) fields).read (Json.record values).encode =
      .ok (Json.record values) := by
  have normal : ∀ m ∈ present values, ∃ form, Normal (depthLimit - 1) form m.2 := by
    intro m among
    obtain ⟨field, -, -, normal⟩ := written.field_of_mem among
    exact ⟨field.form, normal⟩
  have integral : ∀ m ∈ present values, m.2.isIntegral := fun m among =>
    (normal m among).elim fun _ normal => normal.integral
  have ordered : ∀ m ∈ present values, m.2.isOrdered := fun m among =>
    (normal m among).elim fun _ normal => normal.ordered
  rw [record_eq_object] at wide ⊢
  rw [← toOption_eq_some,
    Schema.read_encode_members integral ordered (written.present_nodup distinct) wide]
  exact written.decodeWithin_record distinct (by decide)

end Tenancy.Json
