import Tenancy.Proofs.Json.Agreement.Scalars

/-! # Records, in agreement

A record is read from an object, each member by its field, or in list form, each field in its place. A
reader of either form goes on after a mismatch to tell it in the end, so that what counts is what it
settles.
-/

namespace Tenancy.Json

variable {fuel depth index : Nat} {item : Schema} {input next rest : Input} {value : Json}
  {items : List Json} {name : String} {members : List (String × Json)} {layout : Layout}
  {fields : Fields}

/-! ## Members of a record -/

/-- What was read of a record, unless there is a complaint about it. -/
def settled {ε α : Type} (r : Attempt (Except ε α × Input)) : Option (α × Input) :=
  r.toOption.bind fun (outcome, rest) => outcome.toOption.map (·, rest)

/-- A written value reads by its field as the field takes it. -/
theorem toOption_readField (field : Field) (integral : value.isIntegral) (agrees : Agrees value)
    (room : 0 < depth) (enough : 2 * value.encode.length + field.form.width ≤ fuel)
    (ends : endsNumber rest) :
    (readField (fuel + 1) field depth (value.encode ++ rest)).toOption =
      (field.take value (decodeWithin value depth field.form)).map (·, rest) := by
  have form := agrees field.form depth fuel rest room enough ends
  rw [readField, Field.take]
  by_cases void : field.takesNull
  · simp only [void, if_true, readNull?_encode integral ends, true_and]
    by_cases null : value.isNull
    · cases value with
      | null => rfl
      | _ => exact (Bool.false_ne_true null).elim
    · simp only [null, Bool.false_eq_true, if_false]
      exact form
  · simp only [void, Bool.false_eq_true, if_false, false_and]
    exact form

/-- A record reads as its members behind an opening brace. -/
theorem toOption_readTyped_record (next : Input) :
    (readTyped (fuel + 1) (.record layout fields) depth (ascii '\x7b' :: next)).toOption =
      if depth ≤ 1 then none
      else (settled (readFields fuel layout fields (depth - 1) true {} next)).bind
        fun (held, rest) => (layout.complete fields held).toOption.map
          fun members => (.object members, rest.tail) := by
  have brace : ¬ ascii '\x7b' = ascii '[' := by decide
  rw [readTyped, skipSpace_cons _ (by decide)]
  · simp only [if_neg brace, if_true, decide_eq_true_eq]
    split_ifs
    · rfl
    · rw [toOption_bind, settled]
      cases readFields fuel layout fields (depth - 1) true {} next with
      | error e => rfl
      | ok result =>
        obtain ⟨outcome, rest⟩ := result
        cases outcome with
        | error m => exact toOption_complainTable m
        | ok held =>
          simp only [toOption_ok, Option.bind_some, Option.map_some]
          cases layout.complete fields held with
          | error m => exact toOption_complainTable m
          | ok members => rfl
  · simp
  · simp

theorem settled_readFields_end (fuel depth : Nat) (first : Bool) (held : Members) (rest : Input) :
    settled (readFields (fuel + 1) layout fields depth first held (ascii '\x7d' :: rest)) =
      some (held, ascii '\x7d' :: rest) := by
  simp [readFields, nextMember_end, settled]

/-- A record that goes on reads as one member, of a name not met before, and those after it. -/
theorem settled_readFields_more {first : Bool} {held : Members}
    (more : nextMember first input = .ok (true, memberBytes name value members ++ rest))
    (fresh : lookup name held.read = none) (integral : value.isIntegral) (ordered : value.isOrdered)
    (agrees : Agrees value) (room : 0 < depth)
    (enough : 2 * (memberBytes name value members).length + fields.width ≤ fuel) :
    settled (readFields (fuel + 1) layout fields depth first held input) =
      (takeMember layout fields depth name value fun form => decodeWithin value depth form).bind
        fun here => settled (readFields fuel layout fields depth false (held.followed here)
          (membersBytes members ++ rest)) := by
  rw [length_memberBytes] at enough
  have ends : endsNumber (membersBytes members ++ rest) := endsNumber_membersBytes rest
  rw [settled, readFields]
  simp only [more, toOption_bind, toOption_ok, Option.bind_some, Bool.not_true, Bool.false_eq_true,
    if_false, readText_memberBytes]
  cases known : fields.find? name with
  | some field =>
    have width := width_of_find? known
    obtain ⟨fuel, rfl⟩ := Nat.exists_eq_succ_of_ne_zero (by omega : fuel ≠ 0)
    have taken := toOption_readField field integral agrees room
      (show 2 * value.encode.length + field.form.width ≤ fuel by omega) ends
    simp only [fresh, Option.isSome_none, Bool.false_eq_true, and_false, if_false, toOption_bind,
      toOption_within, readColon_colon, toOption_ok, Option.bind_some, taken, takeMember_known known]
    cases field.take value (decodeWithin value depth field.form) with
    | none => rfl
    | some v =>
      simp only [Option.map_some, Option.bind_some]
      cases field.form.checkLiteral v with
      | error m => rfl
      | ok _ => rfl
  | none =>
    simp only
    cases layout with
    | gathered _ _ =>
      have document := toOption_readDocument integral ordered room
        (show value.encode.length ≤ fuel by omega) ends
      simp only [toOption_bind, toOption_within, readColon_colon, toOption_ok, Option.bind_some, document,
        takeMember_gathered known]
      split_ifs <;> rfl
    | _ =>
      have skipped := skipValue_encode integral (show 2 * value.encode.length ≤ fuel by omega) ends
      rw [takeMember_skipped known (by simp)]
      simp only [toOption_bind, toOption_within, readColon_colon, toOption_ok, Option.bind_some, skipped,
        Members.followed_empty]
      rfl

/-- One member of a record and those after it. -/
private theorem settled_readFields_member {first : Bool} {held : Members}
    (more : nextMember first input = .ok (true, memberBytes name value members ++ rest))
    (fresh : lookup name held.read = none) (integral : value.isIntegral) (ordered : value.isOrdered)
    (agrees : Agrees value) (room : 0 < depth)
    (enough : 2 * (memberBytes name value members).length + fields.width ≤ fuel)
    (following : ∀ here : Members, (∀ m ∈ here.read, m.1 = name) →
      settled (readFields fuel layout fields depth false (held.followed here)
        (membersBytes members ++ rest)) = (membersWithin members depth layout fields).map fun got =>
          ((held.followed here).followed got, ascii '\x7d' :: rest)) :
    settled (readFields (fuel + 1) layout fields depth first held input) =
      (membersWithin ((name, value) :: members) depth layout fields).map fun got =>
        (held.followed got, ascii '\x7d' :: rest) := by
  rw [settled_readFields_more more fresh integral ordered agrees room enough, membersWithin]
  cases taken : takeMember layout fields depth name value fun form => decodeWithin value depth form with
  | none => rfl
  | some here =>
    simp only [Option.bind_some, Option.bind_eq_bind]
    rw [following here (name_of_takeMember taken)]
    cases membersWithin members depth layout fields with
    | none => rfl
    | some got => simp [Members.followed_assoc]

/-- With distinct names a member taken keeps the later ones new. -/
theorem still_fresh {held here : Members} (distinct : name ∉ members.map Prod.fst)
    (named : ∀ m ∈ here.read, m.1 = name) (fresh : ∀ m ∈ members, lookup m.1 held.read = none) :
    ∀ m ∈ members, lookup m.1 (held.followed here).read = none := by
  intro m present
  have other : ∀ entry ∈ here.read, entry.1 ≠ m.1 := by
    intro entry held same
    have among : m.1 ∈ members.map Prod.fst := List.mem_map_of_mem present
    rw [← same, named entry held] at among
    exact distinct among
  rw [Members.followed, lookup_append_of_ne other, fresh m present]

/-- The members of a record, none of which has been read before. -/
private theorem settled_readFields_membersBytes (integral : ∀ m ∈ members, m.2.isIntegral)
    (ordered : ∀ m ∈ members, m.2.isOrdered) (each : ∀ m ∈ members, Agrees m.2) (room : 0 < depth)
    (distinct : (members.map Prod.fst).Nodup) : ∀ fuel (held : Members),
      (∀ m ∈ members, lookup m.1 held.read = none) →
      2 * (membersBytes members).length + fields.width ≤ fuel →
      settled (readFields fuel layout fields depth false held (membersBytes members ++ rest)) =
        (membersWithin members depth layout fields).map fun got =>
          (held.followed got, ascii '\x7d' :: rest) := by
  induction members with
  | nil =>
    intro fuel held _ enough
    rw [membersBytes_nil, List.length_singleton] at enough
    obtain ⟨fuel, rfl⟩ := Nat.exists_eq_succ_of_ne_zero (by omega : fuel ≠ 0)
    rw [membersBytes_nil, List.singleton_append, settled_readFields_end, membersWithin,
      Option.map_some, Members.followed_empty]
  | cons m members ih =>
    obtain ⟨name, value⟩ := m
    intro fuel held fresh enough
    rw [List.forall_mem_cons] at integral ordered each fresh
    rw [List.map_cons, List.nodup_cons] at distinct
    rw [membersBytes_cons, List.length_cons, List.length_cons] at enough
    have length := length_memberBytes name value members
    obtain ⟨fuel, rfl⟩ := Nat.exists_eq_succ_of_ne_zero (by omega : fuel ≠ 0)
    refine settled_readFields_member ?_ fresh.1 integral.1 ordered.1 each.1 room (by omega) ?_
    · rw [membersBytes_cons, List.cons_append, List.cons_append, nextMember_comma]
    · intro here named
      exact ih integral.2 ordered.2 each.2 distinct.2 fuel _
        (still_fresh distinct.1 named fresh.2) (by omega)

/-- The written members of a record read as they are taken from the object. -/
theorem settled_readFields_tableBytes (integral : ∀ m ∈ members, m.2.isIntegral)
    (ordered : ∀ m ∈ members, m.2.isOrdered) (each : ∀ m ∈ members, Agrees m.2) (room : 0 < depth)
    (distinct : (members.map Prod.fst).Nodup)
    (enough : 2 * (tableBytes members).length + fields.width ≤ fuel) :
    settled (readFields fuel layout fields depth true {} (tableBytes members ++ rest)) =
      (membersWithin members depth layout fields).map fun got => (got, ascii '\x7d' :: rest) := by
  cases members with
  | nil =>
    rw [tableBytes, List.length_singleton] at enough
    obtain ⟨fuel, rfl⟩ := Nat.exists_eq_succ_of_ne_zero (by omega : fuel ≠ 0)
    rw [tableBytes, List.singleton_append, settled_readFields_end, membersWithin, Option.map_some]
  | cons m members =>
    obtain ⟨name, value⟩ := m
    rw [List.forall_mem_cons] at integral ordered each
    rw [List.map_cons, List.nodup_cons] at distinct
    rw [tableBytes, List.length_cons] at enough
    have length := length_memberBytes name value members
    obtain ⟨fuel, rfl⟩ := Nat.exists_eq_succ_of_ne_zero (by omega : fuel ≠ 0)
    have read : settled (readFields (fuel + 1) layout fields depth true {}
        (tableBytes ((name, value) :: members) ++ rest)) =
        (membersWithin ((name, value) :: members) depth layout fields).map fun got =>
          (Members.followed {} got, ascii '\x7d' :: rest) := by
      refine settled_readFields_member ?_ rfl integral.1 ordered.1 each.1 room (by omega) ?_
      · rw [tableBytes, List.cons_append, nextMember_first]
      · intro here named
        exact settled_readFields_membersBytes integral.2 ordered.2 each.2 room distinct.2 fuel _
          (still_fresh distinct.1 named fun _ _ => rfl) (by omega)
    simpa only [Members.empty_followed] using read

/-! ## Records in list form -/

/-- What was read of a record in list form, when the list ends after it. -/
def placed (r : Attempt (Except Nat (List (String × Json)) × Input)) :
    Option (List (String × Json) × Input) :=
  (settled r).bind fun (members, input) => (closeList input).toOption.map (members, ·)

/-- A record can also be read from an array, place by place. -/
theorem toOption_readTyped_places (next : Input) :
    (readTyped (fuel + 1) (.record (.declared name) fields) depth (ascii '[' :: next)).toOption =
      if depth ≤ 1 then none
      else (placed (readPlaces fuel fields (depth - 1) 0 next)).map fun (members, rest) =>
        (.object members, rest) := by
  rw [readTyped, skipSpace_cons _ (by decide)]
  · simp only [if_true, decide_eq_true_eq]
    split_ifs
    · rfl
    · rw [toOption_bind, placed, settled]
      cases readPlaces fuel fields (depth - 1) 0 next with
      | error e => rfl
      | ok result =>
        obtain ⟨outcome, rest⟩ := result
        cases outcome with
        | error place => exact toOption_complainList _
        | ok members =>
          simp only [toOption_ok, Option.bind_some, Option.map_some, toOption_bind]
          cases closeList rest <;> rfl
  · simp
  · simp

theorem toOption_closeList_more {b : UInt8} {tail : Input} (opens : opensValue b) :
    (closeList (b :: tail)).toOption = none := by
  obtain ⟨notEnd, -, notComma⟩ := opensValue_ne opens
  rw [closeList, skipSpace_cons _ (opensValue_solid opens)]
  simp only [if_neg notEnd, if_neg notComma, toOption_stopAt]

theorem toOption_closeList_comma (tail : Input) : (closeList (ascii ',' :: tail)).toOption = none := by
  have notEnd : ¬ ascii ',' = ascii ']' := by decide
  rw [closeList, skipSpace_cons _ (by decide)]
  simp only [if_neg notEnd, if_true]
  split_ifs <;> rfl

section

variable {absent void : Gap} {form : Schema}

/-- With a place in front, the places after it are read as they are. -/
private theorem placed_precede (here : List (String × Json))
    (later : Attempt (Except Nat (List (String × Json)) × Input)) :
    placed (later >>= fun read => pure (read.1.map (here ++ ·), read.2)) =
      (placed later).map fun read => (here ++ read.1, read.2) := by
  cases later with
  | error e => rfl
  | ok read =>
    obtain ⟨outcome, after⟩ := read
    cases outcome with
    | error place => rfl
    | ok members =>
      change (closeList after).toOption.map _ = ((closeList after).toOption.map _).map _
      cases closeList after <;> rfl

/-- A record in an array goes on with the field of the next place. -/
theorem placed_readPlaces_more {first : Bool} (isFirst : (index == 0) = first)
    (more : nextItem first input = .ok (true, value.encode ++ rest)) (integral : value.isIntegral)
    (agrees : Agrees value) (room : 0 < depth)
    (enough : 2 * value.encode.length + form.width < fuel) (ends : endsNumber rest) :
    placed (readPlaces (fuel + 1) (.cons name absent void form fields) depth index input) =
      (Field.place ⟨name, absent, void, form⟩ value (decodeWithin value depth form)).bind fun here =>
        (placed (readPlaces fuel fields depth (index + 1) rest)).map fun read =>
          (here ++ read.1, read.2) := by
  obtain ⟨fuel, rfl⟩ := Nat.exists_eq_succ_of_ne_zero (by omega : fuel ≠ 0)
  have taken := toOption_readField ⟨name, absent, void, form⟩ integral agrees room
    (show 2 * value.encode.length + form.width ≤ fuel by omega) ends
  rw [placed, settled, readPlaces]
  simp only [isFirst, more, within_ok, toOption_bind, toOption_ok, Option.bind_some, if_true,
    toOption_within, taken, Field.place]
  cases Field.take ⟨name, absent, void, form⟩ value (decodeWithin value depth form) with
  | none => rfl
  | some v =>
    simp only [Option.map_some, Option.bind_some, Option.bind_eq_bind]
    generalize (if v.isNull then void.members? name else some [(name, v)]) = here
    cases here with
    | none => rfl
    | some here => exact placed_precede here (readPlaces (fuel + 1) fields depth (index + 1) rest)

/-- A field beyond the end of the array is left to what the field does when it is absent. -/
theorem placed_readPlaces_vacant (rest : Input) :
    placed (readPlaces (fuel + 1) (.cons name absent void form fields) depth index
      (ascii ']' :: rest)) =
      (absent.vacancy? name).bind fun here =>
        (placed (readPlaces fuel fields depth (index + 1) (ascii ']' :: rest))).map
          fun read => (here ++ read.1, read.2) := by
  rw [readPlaces, nextItem_end]
  cases absent with
  | refuse | omitPlaced => rfl
  | _ => exact placed_precede _ (readPlaces fuel fields depth (index + 1) (ascii ']' :: rest))

end

private theorem placed_readPlaces_end (rest : Input) : ∀ (fields : Fields) (fuel index : Nat),
    fields.length < fuel →
      placed (readPlaces fuel fields depth index (ascii ']' :: rest)) =
        fields.vacancies?.map (·, rest)
  | .nil, fuel, index, enough => by
    obtain ⟨fuel, rfl⟩ := Nat.exists_eq_succ_of_ne_zero (by omega : fuel ≠ 0)
    rw [readPlaces]
    rfl
  | .cons name absent void form fields, fuel, index, enough => by
    rw [Fields.length] at enough
    obtain ⟨fuel, rfl⟩ := Nat.exists_eq_succ_of_ne_zero (by omega : fuel ≠ 0)
    have later := placed_readPlaces_end rest fields fuel (index + 1) (by omega)
    rw [placed_readPlaces_vacant, later, Fields.vacancies?]
    cases absent.vacancy? name with
    | none => rfl
    | some here => cases fields.vacancies? <;> rfl

private theorem placed_readPlaces_itemsBytes (rest : Input) (room : 0 < depth) :
    ∀ (items : List Json) (fields : Fields) (fuel index : Nat),
      (∀ item ∈ items, item.isIntegral) → (∀ item ∈ items, Agrees item) →
      2 * (itemsBytes items).length + fields.width < fuel → fields.length < fuel →
      placed (readPlaces fuel fields depth (index + 1) (itemsBytes items ++ rest)) =
        (placesWithin items depth fields).map (·, rest)
  | [], fields, fuel, index, _, _, _, enough => by
    rw [placesWithin]
    exact placed_readPlaces_end rest fields fuel (index + 1) enough
  | value :: items, .nil, fuel, index, _, _, enough, _ => by
    obtain ⟨fuel, rfl⟩ := Nat.exists_eq_succ_of_ne_zero (by omega : fuel ≠ 0)
    rw [readPlaces, itemsBytes_cons, List.cons_append, placesWithin]
    simp only [placed, settled, toOption_pure, Option.bind_some, toOption_ok, Option.map_some,
      toOption_closeList_comma]
    rfl
  | value :: items, .cons name absent void form fields, fuel, index, integral, each, enough, wide => by
    rw [List.forall_mem_cons] at integral each
    rw [itemsBytes_cons, List.length_cons, List.length_append, Fields.width] at enough
    rw [Fields.length] at wide
    obtain ⟨fuel, rfl⟩ := Nat.exists_eq_succ_of_ne_zero (by omega : fuel ≠ 0)
    have later := placed_readPlaces_itemsBytes rest room items fields fuel (index + 1) integral.2 each.2
      (by omega) (by omega)
    rw [itemsBytes_cons, List.cons_append, List.append_assoc,
      placed_readPlaces_more (show (index + 1 == 0) = false from rfl) (nextItem_comma integral.1 _)
        integral.1 each.1 room (by omega) (endsNumber_itemsBytes rest), later, placesWithin]
    cases Field.place ⟨name, absent, void, form⟩ value (decodeWithin value depth form) with
    | none => rfl
    | some here => cases placesWithin items depth fields <;> rfl

/-- The written items of a record in an array read as they are taken from their places. -/
theorem placed_readPlaces_listBytes (room : 0 < depth) (integral : ∀ item ∈ items, item.isIntegral)
    (each : ∀ item ∈ items, Agrees item) (enough : 2 * (listBytes items).length + fields.width < fuel)
    (wide : fields.length < fuel) :
    placed (readPlaces fuel fields depth 0 (listBytes items ++ rest)) =
      (placesWithin items depth fields).map (·, rest) := by
  cases items with
  | nil =>
    rw [placesWithin]
    exact placed_readPlaces_end rest fields fuel 0 wide
  | cons value items =>
    rw [List.forall_mem_cons] at integral each
    obtain ⟨fuel, rfl⟩ := Nat.exists_eq_succ_of_ne_zero (by omega : fuel ≠ 0)
    rw [listBytes, List.append_assoc]
    cases fields with
    | nil =>
      obtain ⟨b, tail, bytes, opens⟩ := encode_opens integral.1
      rw [readPlaces, bytes, List.cons_append, placesWithin]
      simp only [placed, settled, toOption_pure, Option.bind_some, toOption_ok, Option.map_some,
        toOption_closeList_more opens]
      rfl
    | cons name absent void form fields =>
      have long := length_encode_pos integral.1
      have closing := length_itemsBytes_pos items
      rw [listBytes, List.length_append, Fields.width] at enough
      rw [Fields.length] at wide
      have later := placed_readPlaces_itemsBytes rest room items fields fuel 0 integral.2
        each.2 (by omega) (by omega)
      rw [placed_readPlaces_more (show (0 == 0) = true from rfl) (nextItem_first integral.1 _)
          integral.1 each.1 room (by omega) (endsNumber_itemsBytes rest), later, placesWithin]
      cases Field.place ⟨name, absent, void, form⟩ value (decodeWithin value depth form) with
      | none => rfl
      | some here => cases placesWithin items depth fields <;> rfl

end Tenancy.Json
