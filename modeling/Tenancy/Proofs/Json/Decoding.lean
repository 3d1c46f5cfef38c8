import Tenancy.Proofs.Json.Agreement

/-! # Reading a text agrees with decoding its document

A typed value is read from a text, and decoded from a document that has been read before. The two differ
where a schema takes documents as they are: a text may hold one that is too deep. Where none is taken, the
schema tells how many containers are open at once, and both give the same.
-/

namespace Tenancy.Json

variable {depth index length : Nat} {schema item : Schema} {layout : Layout} {fields : Fields}
  {field : Field} {name : String} {value normal : Json} {items : List Json}
  {members : List (String × Json)}

/-! ## Schemas of bounded depth -/

mutual

/-- Whether the schema never has `depth` containers open at once, whatever it is followed through. Documents
that are taken as they are have no bound. -/
def Schema.fits : Schema → Nat → Bool
  | .document, _ | .record (.gathered _ _) _, _ => false
  | .choice _, depth => 1 < depth
  | .list item, depth | .table item, depth => 1 < depth && item.fits (depth - 1)
  | .record _ fields, depth => 1 < depth && fields.fits (depth - 1)
  | _, _ => true

def Fields.fits : Fields → Nat → Bool
  | .nil, _ => true
  | .cons _ _ _ form rest, depth => form.fits depth && rest.fits depth

end

theorem Fields.fits_cons {absent void : Gap} {form : Schema} :
    (Fields.cons name absent void form fields).fits depth ↔ form.fits depth ∧ fields.fits depth := by
  rw [fits, Bool.and_eq_true]

theorem fits_of_find? : ∀ {fields : Fields}, fields.fits depth → fields.find? name = some field →
    field.form.fits depth
  | .nil, _, found => (nomatch found)
  | .cons key absent void form rest, bounded, found => by
    obtain ⟨here, later⟩ := Fields.fits_cons.mp bounded
    rw [Fields.find?] at found
    split_ifs at found
    · cases found
      exact here
    · exact fits_of_find? later found

theorem fits_record : (Schema.record layout fields).fits depth ↔
    (∀ kind surplus, layout ≠ .gathered kind surplus) ∧ 1 < depth ∧ fields.fits (depth - 1) := by
  cases layout <;> simp [Schema.fits]

/-! ## Nulls -/

/-- A schema of bounded depth takes no null. -/
theorem decodeValue_null (bounded : schema.fits depth) : ∃ e, decodeValue .null schema = .error e := by
  cases schema with
  | document => exact (Bool.false_ne_true bounded).elim
  | _ => exact ⟨_, rfl⟩

/-- A scalar that a schema of bounded depth takes is no null, nor is its normal form. -/
theorem accept_ne_null (bounded : schema.fits depth) (accepted : schema.accept value = .ok normal) :
    normal ≠ .null := by
  rw [Schema.accept.eq_def] at accepted
  split at accepted
  · exact (Bool.false_ne_true bounded).elim
  · cases accepted; simp
  · cases accepted; simp
  · cases accepted; simp
  · cases accepted; simp
  · rw [Schema.acceptInteger.eq_def] at accepted
    split at accepted
    · split_ifs at accepted
      cases accepted
      simp [int]
    · cases accepted
  · split at accepted
    · cases accepted; simp
    · cases accepted
  · split at accepted
    · cases accepted; simp
    · cases accepted
  · cases accepted

theorem decodeValue_scalar (scalar : value.isScalar) (plain : ∀ names, schema ≠ .choice names) :
    decodeValue value schema = schema.accept value := by
  cases value with
  | array items => exact (Bool.false_ne_true scalar).elim
  | object members => exact (Bool.false_ne_true scalar).elim
  | _ =>
    cases schema with
    | choice names => exact absurd rfl (plain names)
    | _ => rfl

private theorem decodeChoice_ne_null {names : List String}
    (decoded : decodeChoice names members = .ok normal) : normal ≠ .null := by
  rw [decodeChoice.eq_def] at decoded
  split at decoded
  · split_ifs at decoded
    cases decoded
    simp
  · cases decoded

/-- Nothing that a schema of bounded depth takes has null for its normal form. -/
theorem decodeValue_ne_null (bounded : schema.fits depth)
    (decoded : decodeValue value schema = .ok normal) : normal ≠ .null := by
  rw [decodeValue.eq_def] at decoded
  split at decoded
  case h_1 | h_6 => exact (Bool.false_ne_true bounded).elim
  case h_2 | h_3 | h_7 | h_9 =>
    simp only [bind_eq_ok, pure, Except.pure, Except.ok.injEq] at decoded
    grind
  case h_4 | h_5 | h_10 => cases decoded
  case h_8 => exact decodeChoice_ne_null decoded
  case h_11 =>
    split_ifs at decoded
    cases decoded
    simp
  case h_12 => exact accept_ne_null bounded decoded

/-! ## Agreement -/

/-- Decoding the value gives what a reader makes of it, whatever the schema of bounded depth. -/
def Decodes (value : Json) : Prop :=
  ∀ schema depth, schema.fits depth → decodeWithin value depth schema = (decodeValue value schema).toOption

private theorem decodes_scalar (scalar : value.isScalar) : Decodes value := by
  intro schema depth bounded
  by_cases plain : ∀ names, schema ≠ .choice names
  · rw [decodeWithin_scalar scalar plain, decodeValue_scalar scalar plain]
  · obtain ⟨names, rfl⟩ : ∃ names, schema = .choice names := by simpa using plain
    cases value with
    | string s =>
      rw [decodeWithin, decodeValue]
      split_ifs <;> rfl
    | array items => exact (Bool.false_ne_true scalar).elim
    | object members => exact (Bool.false_ne_true scalar).elim
    | _ => rfl

private theorem itemsWithin_eq (each : ∀ value ∈ items, Decodes value) (bounded : item.fits depth) :
    itemsWithin items depth item = (decodeItems items item).toOption := by
  induction items with
  | nil => rfl
  | cons value items ih =>
    rw [List.forall_mem_cons] at each
    rw [itemsWithin, decodeItems, each.1 item depth bounded, ih each.2]
    simp only [toOption_bind, toOption_pure, Option.bind_eq_bind, Option.pure_def]

private theorem tableWithin_eq (each : ∀ m ∈ members, Decodes m.2) (bounded : item.fits depth) :
    tableWithin members depth item = (decodeTable members item).toOption := by
  induction members with
  | nil => rfl
  | cons entry members ih =>
    obtain ⟨name, value⟩ := entry
    rw [List.forall_mem_cons] at each
    rw [tableWithin, decodeTable, each.1 item depth bounded, ih each.2]
    simp only [toOption_bind, toOption_pure, Option.bind_eq_bind, Option.pure_def]

/-- One member of a record and those after it. -/
private theorem decodeMembers_cons {before : Members} (decodes : Decodes value) (bounded : fields.fits depth)
    (plain : ∀ kind surplus, layout ≠ .gathered kind surplus) (fresh : lookup name before.read = none) :
    (decodeMembers ((name, value) :: members) layout fields before).toOption =
      (takeMember layout fields depth name value fun form => decodeWithin value depth form).bind
        fun here => (decodeMembers members layout fields (before.followed here)).toOption := by
  rw [decodeMembers.eq_def]
  cases known : fields.find? name with
  | some field =>
    rw [takeMember_known known, decodes _ _ (fits_of_find? bounded known), Field.take]
    simp only [known, fresh, Option.isSome_none, Bool.false_eq_true, and_false, if_false]
    split_ifs
    · simp only [toOption_bind, toOption_ok, Option.bind_some]
      cases field.form.checkLiteral value <;> rfl
    · simp only [toOption_bind]
      cases decodeValue value field.form with
      | error m => rfl
      | ok normal =>
        simp only [toOption_ok, Option.bind_some]
        cases field.form.checkLiteral normal <;> rfl
  | none =>
    rw [takeMember_skipped known plain, Option.bind_some, Members.followed_empty]
    simp only [known]

/-- What was read before stays, with what the members add in front. -/
private theorem toOption_decodeMembers (each : ∀ m ∈ members, Decodes m.2) (bounded : fields.fits depth)
    (plain : ∀ kind surplus, layout ≠ .gathered kind surplus) (distinct : (members.map Prod.fst).Nodup)
    {before : Members} (fresh : ∀ m ∈ members, lookup m.1 before.read = none) :
    (decodeMembers members layout fields before).toOption =
      (membersWithin members depth layout fields).map before.followed := by
  -- a member that is read changes what was read before the next one
  induction members generalizing before with
  | nil =>
    rw [decodeMembers, membersWithin, Option.map_some, Members.followed_empty, toOption_ok]
  | cons entry members ih =>
    obtain ⟨name, value⟩ := entry
    rw [List.forall_mem_cons] at each fresh
    rw [List.map_cons, List.nodup_cons] at distinct
    rw [decodeMembers_cons each.1 bounded plain fresh.1, membersWithin]
    cases taken : takeMember layout fields depth name value fun form => decodeWithin value depth form with
    | none => rfl
    | some here =>
      simp only [Option.bind_some, Option.bind_eq_bind]
      rw [ih each.2 distinct.2 (still_fresh distinct.1 (name_of_takeMember taken) fresh.2)]
      cases membersWithin members depth layout fields with
      | none => rfl
      | some got => simp [Members.followed_assoc]

private theorem vacancies_eq (all : Fields) : ∀ (fields : Fields) (index : Nat),
    fields.vacancies? = (missingPlaces name all index fields).toOption
  | .nil, _ => rfl
  | .cons key absent void form rest, index => by
    rw [Fields.vacancies?, missingPlaces.eq_def, vacancies_eq all rest (index + 1)]
    cases absent <;>
      simp only [Gap.vacancy?, Gap.members?, toOption_bind, toOption_pure, Option.bind_eq_bind,
        Option.pure_def, toOption_ok, toOption_error]

private theorem placesWithin_eq (all : Fields) : ∀ (items : List Json) (fields : Fields) (index : Nat),
    (∀ value ∈ items, Decodes value) → fields.fits depth →
    placesWithin items depth fields = (decodePlaces items length name all index fields).toOption
  | [], fields, index, _, _ => by
    rw [placesWithin, decodePlaces]
    exact vacancies_eq all fields index
  | _ :: _, .nil, _, _, _ => rfl
  | value :: items, .cons key absent void form fields, index, each, bounded => by
    obtain ⟨here, later⟩ := Fields.fits_cons.mp bounded
    rw [List.forall_mem_cons] at each
    rw [placesWithin, each.1 _ _ here, placesWithin_eq all items fields (index + 1) each.2 later,
      decodePlaces.eq_def (value :: items)]
    simp only [Field.place, Field.take]
    generalize decodePlaces items length name all (index + 1) fields = others
    by_cases null : value.isNull
    · obtain rfl := eq_null_of_isNull null
      obtain ⟨e, refused⟩ := decodeValue_null here
      cases void <;> cases others <;> simp [refused, Field.takesNull, Gap.members?, isNull]
    · cases decoded : decodeValue value form with
      | error e => simp [null]
      | ok normal =>
        have nonnull : ¬normal.isNull := fun null =>
          decodeValue_ne_null here decoded (eq_null_of_isNull null)
        cases others <;> simp [null, nonnull]

private theorem decodes_array (each : ∀ item ∈ items, Decodes item) : Decodes (.array items) := by
  intro schema depth bounded
  cases schema with
  | document => exact (Bool.false_ne_true bounded).elim
  | list item =>
    obtain ⟨deep, bounded⟩ := Bool.and_eq_true_iff.mp bounded
    rw [decodeWithin, decodeValue, if_neg (Nat.not_le_of_lt (of_decide_eq_true deep)),
      itemsWithin_eq each bounded]
    cases decodeItems items item <;> rfl
  | record layout fields =>
    obtain ⟨-, deep, within⟩ := fits_record.mp bounded
    cases layout with
    | declared name =>
      rw [decodeWithin, decodeValue, if_neg (Nat.not_le_of_lt deep),
        placesWithin_eq fields items fields 0 each within]
      cases decodePlaces items items.length name fields 0 fields <;> rfl
    | _ => rfl
  | _ => rfl

private theorem decodes_object (each : ∀ m ∈ members, Decodes m.2)
    (distinct : (members.map Prod.fst).Nodup) : Decodes (.object members) := by
  intro schema depth bounded
  cases schema with
  | document => exact (Bool.false_ne_true bounded).elim
  | table item =>
    obtain ⟨deep, bounded⟩ := Bool.and_eq_true_iff.mp bounded
    rw [decodeWithin, decodeValue, if_neg (Nat.not_le_of_lt (of_decide_eq_true deep)),
      tableWithin_eq each bounded]
    cases decodeTable members item <;> rfl
  | choice names =>
    rw [decodeWithin, decodeValue, if_neg (Nat.not_le_of_lt (of_decide_eq_true bounded))]
  | record layout fields =>
    obtain ⟨plain, deep, bounded⟩ := fits_record.mp bounded
    have held : (decodeMembers members layout fields {}).toOption =
        (membersWithin members (depth - 1) layout fields).map (Members.followed {}) :=
      toOption_decodeMembers each bounded plain distinct fun _ _ => rfl
    rw [decodeWithin, decodeValue, if_neg (Nat.not_le_of_lt deep)]
    simp only [toOption_bind, held]
    cases membersWithin members (depth - 1) layout fields with
    | none => rfl
    | some got =>
      simp only [Option.map_some, Option.bind_some, Option.bind_eq_bind, Members.empty_followed]
      cases layout.complete fields got <;> rfl
  | _ => rfl

/-- Documents in order are decoded as they are read, by whichever schema of bounded depth. -/
theorem decodes (j : Json) (ordered : j.isOrdered) : Decodes j := by
  induction j using parts_induction with
  | null | bool b | number n | string s => exact decodes_scalar rfl
  | array items ih =>
    rw [isOrdered_array] at ordered
    exact decodes_array fun item present => ih item present (ordered item present)
  | object members ih =>
    rw [isOrdered_object] at ordered
    exact decodes_object (fun m present => ih m present (ordered.2 m present)) ordered.1.nodup

/-- A record is read from the text of an object exactly if it is decoded from the object. What the schema
passes over may be as deep as it likes. -/
theorem Schema.read_encode_eq_decode (bounded : (Schema.record layout fields).fits depthLimit)
    (integral : (object members).isIntegral) (ordered : (object members).isOrdered)
    (wide : fields.width ≤ (object members).encode.length + 3) :
    ((Schema.record layout fields).read (object members).encode).toOption =
      ((Schema.record layout fields).decode (object members)).toOption := by
  have decoded := decodes _ ordered (.record layout fields) depthLimit bounded
  rw [isIntegral_object] at integral
  rw [isOrdered_object] at ordered
  rw [Schema.read_encode_members integral ordered.2 ordered.1.nodup wide, decoded, Schema.decode]

end Tenancy.Json
