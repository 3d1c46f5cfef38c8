import Tenancy.Json.Decode
import Tenancy.Json.Typed
import Tenancy.Proofs.Json.Document
import Tenancy.Proofs.Json.Reading

/-! # Decoding within a depth

What a typed reader makes of the text of a document can be told from the document. `decodeWithin` gives
the normal form of a document in order, and nothing where the reader stops. Like the reader it counts the
containers that are open, which does not happen in members that are only passed over.
-/

namespace Tenancy.Json

/-! ## Parts of a record -/

/-- What stands for a field, of whose value its form makes `decoded`. -/
def Field.take (field : Field) (value : Json) (decoded : Option Json) : Option Json :=
  if field.takesNull ∧ value.isNull then some value else decoded

theorem Field.take_object {field : Field} {members : List (String × Json)} {decoded : Option Json} :
    field.take (.object members) decoded = decoded := by
  rw [take, if_neg]
  simp [isNull]

theorem eq_null_of_isNull {value : Json} (null : value.isNull) : value = .null := by
  cases value with
  | null => rfl
  | _ => cases null

/-- What a record holds of a member, of whose value a form makes what `decode` says. -/
def takeMember (layout : Layout) (fields : Fields) (depth : Nat) (name : String) (value : Json)
    (decode : Schema → Option Json) : Option Members :=
  match fields.find? name with
  | some field => do
    let value ← field.take value (decode field.form)
    let () ← (field.form.checkLiteral value).toOption
    return { read := [(name, value)] }
  | none =>
    match layout with
    | .gathered _ _ => if value.depth < depth then some { gathered := [(name, value)] } else none
    | _ => some {}

section

variable {layout : Layout} {fields : Fields} {depth : Nat} {name : String} {value : Json}
  {decode : Schema → Option Json}

/-- A known member is decoded by its field and then put to the field's check. -/
theorem takeMember_known {field : Field} (known : fields.find? name = some field) :
    takeMember layout fields depth name value decode =
      (field.take value (decode field.form)).bind fun value =>
        (field.form.checkLiteral value).toOption.map fun _ => { read := [(name, value)] } := by
  simp only [takeMember.eq_def, known, Option.map_eq_bind]
  rfl

/-- An unknown member that is kept counts against the depth like any other value. -/
theorem takeMember_gathered {record : String} {surplus : Surplus} (unknown : fields.find? name = none) :
    takeMember (.gathered record surplus) fields depth name value decode =
      if value.depth < depth then some { gathered := [(name, value)] } else none := by
  rw [takeMember.eq_def, unknown]

/-- An unknown member that is not kept is passed over, however deep it is. -/
theorem takeMember_skipped (unknown : fields.find? name = none)
    (skips : ∀ record surplus, layout ≠ .gathered record surplus) :
    takeMember layout fields depth name value decode = some {} := by
  rw [takeMember.eq_def, unknown]
  cases layout with
  | gathered record surplus => exact absurd rfl (skips record surplus)
  | _ => rfl

/-- What is held of a member has its name. -/
theorem name_of_takeMember {here : Members}
    (taken : takeMember layout fields depth name value decode = some here) :
    ∀ m ∈ here.read, m.1 = name := by
  cases known : fields.find? name with
  | some field =>
    rw [takeMember_known known, Option.bind_eq_some_iff] at taken
    obtain ⟨v, -, taken⟩ := taken
    obtain ⟨-, -, same⟩ := Option.map_eq_some_iff.mp taken
    cases same
    exact List.forall_mem_singleton.mpr rfl
  | none =>
    cases layout with
    | gathered record surplus =>
      rw [takeMember_gathered known] at taken
      split_ifs at taken
      cases taken
      exact List.forall_mem_nil _
    | _ =>
      rw [takeMember_skipped known (by simp)] at taken
      cases taken
      exact List.forall_mem_nil _

end

/-- What is held of members, with that of later ones in front. -/
def Members.followed (here later : Members) : Members where
  read := later.read ++ here.read
  gathered := later.gathered ++ here.gathered

theorem Members.followed_assoc (a b c : Members) :
    (a.followed b).followed c = a.followed (b.followed c) := by
  simp only [followed, List.append_assoc]

theorem Members.followed_empty (held : Members) : held.followed {} = held := by
  simp only [followed, List.nil_append]

theorem Members.empty_followed (held : Members) : Members.followed {} held = held := by
  simp only [followed, List.append_nil]

/-- What stands for a field whose place is missing at the end of a list. -/
def Gap.vacancy? (name : String) : Gap → Option (List (String × Json))
  | .omitPlaced => none
  | gap => gap.members? name

/-- What stands for fields whose places are missing at the end of a list. -/
def Fields.vacancies? : Fields → Option (List (String × Json))
  | .nil => some []
  | .cons name absent _ _ rest => do
    let here ← absent.vacancy? name
    return here ++ (← rest.vacancies?)

/-- What stands for a field whose place holds a value, of which its form makes `decoded`. -/
def Field.place (field : Field) (value : Json) (decoded : Option Json) :
    Option (List (String × Json)) := do
  let value ← field.take value decoded
  if value.isNull then field.void.members? field.name else some [(field.name, value)]

/-! ## Values -/

mutual

/-- The normal form of a document in order, if fewer than `depth` containers are open at once in what is
read of it. -/
def decodeWithin : Json → Nat → Schema → Option Json
  | .array items, depth, .document => if (array items).depth < depth then some (.array items) else none
  | .array items, depth, .list item =>
    if depth ≤ 1 then none else return .array (← itemsWithin items (depth - 1) item)
  | .array items, depth, .record (.declared _) fields =>
    if depth ≤ 1 then none else return .object (← placesWithin items (depth - 1) fields)
  | .array _, _, _ => none
  | .object members, depth, .document =>
    if (object members).depth < depth then some (.object members) else none
  | .object members, depth, .table item =>
    if depth ≤ 1 then none else return .object (ofMembers (← tableWithin members (depth - 1) item))
  | .object members, depth, .choice names =>
    if depth ≤ 1 then none else (decodeChoice names members).toOption
  | .object members, depth, .record layout fields =>
    if depth ≤ 1 then none
    else do
      let held ← membersWithin members (depth - 1) layout fields
      return .object (← (layout.complete fields held).toOption)
  | .object _, _, _ => none
  | .string s, _, .choice names => if s ∈ names then some (.string s) else none
  | value, _, schema => (schema.accept value).toOption

/-- The normal forms of items of one type. -/
def itemsWithin : List Json → Nat → Schema → Option (List Json)
  | [], _, _ => some []
  | value :: rest, depth, item => do
    let value ← decodeWithin value depth item
    return value :: (← itemsWithin rest depth item)

/-- The normal forms of members of one type. -/
def tableWithin : List (String × Json) → Nat → Schema → Option (List (String × Json))
  | [], _, _ => some []
  | (name, value) :: rest, depth, item => do
    let value ← decodeWithin value depth item
    return (name, value) :: (← tableWithin rest depth item)

/-- What a record holds of its members. -/
def membersWithin : List (String × Json) → Nat → Layout → Fields → Option Members
  | [], _, _, _ => some {}
  | (name, value) :: rest, depth, layout, fields => do
    let here ← takeMember layout fields depth name value fun form => decodeWithin value depth form
    return here.followed (← membersWithin rest depth layout fields)

/-- The members that a record has from its list form. -/
def placesWithin : List Json → Nat → Fields → Option (List (String × Json))
  | [], _, fields => fields.vacancies?
  | _ :: _, _, .nil => none
  | value :: rest, depth, .cons name absent void form fields => do
    let here ← Field.place ⟨name, absent, void, form⟩ value (decodeWithin value depth form)
    return here ++ (← placesWithin rest depth fields)

end

/-- A scalar is decoded by what its schema accepts. -/
theorem decodeWithin_scalar {value : Json} {depth : Nat} {schema : Schema} (scalar : value.isScalar)
    (plain : ∀ names, schema ≠ .choice names) :
    decodeWithin value depth schema = (schema.accept value).toOption := by
  cases value with
  | array items => exact (Bool.false_ne_true scalar).elim
  | object members => exact (Bool.false_ne_true scalar).elim
  | _ =>
    cases schema with
    | choice names => exact absurd rfl (plain names)
    | _ => rfl

/-! ## Room for vacant places -/

mutual

/-- The most fields of a record in the schema that may be written as a list, and one more. -/
def Schema.width : Schema → Nat
  | .list item | .table item => item.width
  | .record (.declared _) fields => max (fields.length + 1) fields.width
  | .record _ fields => fields.width
  | _ => 0

def Fields.width : Fields → Nat
  | .nil => 0
  | .cons _ _ _ form rest => max form.width rest.width

end

theorem width_of_find? {name : String} {field : Field} : ∀ {fields : Fields},
    fields.find? name = some field → field.form.width ≤ fields.width
  | .nil, found => (nomatch found)
  | .cons key absent void form rest, found => by
    rw [Fields.find?] at found
    rw [Fields.width]
    split_ifs at found
    · cases found
      exact Nat.le_max_left ..
    · exact (width_of_find? found).trans (Nat.le_max_right ..)

theorem width_le_width {layout : Layout} {fields : Fields} :
    fields.width ≤ (Schema.record layout fields).width := by
  cases layout with
  | declared name => exact Nat.le_max_right ..
  | lenient name | gathered name surplus => exact Nat.le_refl _

end Tenancy.Json
