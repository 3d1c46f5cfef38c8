import Tenancy.Proofs.Json.Agreement.Scalars

/-! # Lists and tables, in agreement

A list of one type, or a table of one type, is read as its items are.
-/

namespace Tenancy.Json

variable {fuel depth index : Nat} {item : Schema} {input next rest : Input} {value : Json}
  {items : List Json} {name : String} {members : List (String × Json)}

/-! ## Lists of one type -/

theorem toOption_readListOf_more {first : Bool} (isFirst : (index == 0) = first)
    (more : nextItem first input = .ok (true, next)) :
    (readListOf (fuel + 1) item depth index input).toOption =
      (readTyped fuel item depth next).toOption.bind fun (value, rest) =>
        (readListOf fuel item depth (index + 1) rest).toOption.map fun (values, rest) =>
          (value :: values, rest) := by
  simp only [readListOf, isFirst, more, within_ok, toOption_bind, toOption_ok, Option.bind_some, if_true,
    toOption_within, toOption_pure, Option.map_eq_bind]
  rfl

theorem toOption_readListOf_end (fuel : Nat) (index : Nat) (rest : Input) :
    (readListOf (fuel + 1) item depth index (ascii ']' :: rest)).toOption = some ([], rest) := by
  simp [readListOf, nextItem_end]

theorem toOption_readTyped_list (next : Input) :
    (readTyped (fuel + 1) (.list item) depth (ascii '[' :: next)).toOption =
      if depth ≤ 1 then none
      else (readListOf fuel item (depth - 1) 0 next).toOption.map fun (items, rest) =>
        (.array items, rest) := by
  rw [readTyped, skipSpace_cons _ (by decide)]
  · simp only [if_true, decide_eq_true_eq]
    split_ifs
    · rfl
    · simp only [toOption_bind, toOption_pure, Option.map_eq_bind]
      rfl
  · simp
  · simp

private theorem toOption_readListOf_itemsBytes (integral : ∀ item ∈ items, item.isIntegral)
    (each : ∀ value ∈ items, Agrees value) (room : 0 < depth) : ∀ fuel index,
      2 * (itemsBytes items).length + item.width ≤ fuel →
      (readListOf fuel item depth (index + 1) (itemsBytes items ++ rest)).toOption =
        (itemsWithin items depth item).map (·, rest) := by
  induction items with
  | nil =>
    intro fuel index enough
    rw [itemsBytes_nil, List.length_singleton] at enough
    obtain ⟨fuel, rfl⟩ := Nat.exists_eq_succ_of_ne_zero (by omega : fuel ≠ 0)
    exact toOption_readListOf_end fuel (index + 1) rest
  | cons value items ih =>
    intro fuel index enough
    rw [List.forall_mem_cons] at integral each
    rw [itemsBytes_cons, List.length_cons, List.length_append] at enough
    obtain ⟨fuel, rfl⟩ := Nat.exists_eq_succ_of_ne_zero (by omega : fuel ≠ 0)
    rw [itemsBytes_cons, List.cons_append, List.append_assoc,
      toOption_readListOf_more (show (index + 1 == 0) = false from rfl) (nextItem_comma integral.1 _),
      each.1 item depth fuel _ room (by omega) (endsNumber_itemsBytes rest), itemsWithin]
    cases decodeWithin value depth item with
    | none => rfl
    | some v =>
      simp only [Option.map_some, Option.bind_some]
      rw [ih integral.2 each.2 fuel (index + 1) (by omega)]
      cases itemsWithin items depth item <;> rfl

/-- A written list reads by its schema as its values decode. -/
theorem toOption_readListOf_listBytes (integral : ∀ item ∈ items, item.isIntegral)
    (each : ∀ value ∈ items, Agrees value) (room : 0 < depth)
    (enough : 2 * (listBytes items).length + item.width < fuel) :
    (readListOf fuel item depth 0 (listBytes items ++ rest)).toOption =
      (itemsWithin items depth item).map (·, rest) := by
  obtain ⟨fuel, rfl⟩ := Nat.exists_eq_succ_of_ne_zero (by omega : fuel ≠ 0)
  cases items with
  | nil => exact toOption_readListOf_end fuel 0 rest
  | cons value items =>
    rw [List.forall_mem_cons] at integral each
    have long := length_encode_pos integral.1
    rw [listBytes, List.length_append] at enough
    rw [listBytes, List.append_assoc, toOption_readListOf_more (show (0 == 0) = true from rfl)
        (nextItem_first integral.1 _),
      each.1 item depth fuel _ room (by omega) (endsNumber_itemsBytes rest), itemsWithin]
    cases decodeWithin value depth item with
    | none => rfl
    | some v =>
      simp only [Option.map_some, Option.bind_some]
      rw [toOption_readListOf_itemsBytes integral.2 each.2 room fuel 0 (by omega)]
      cases itemsWithin items depth item <;> rfl

/-! ## Tables of one type -/

theorem toOption_readTableOf_more {first : Bool}
    (more : nextMember first input = .ok (true, memberBytes name value members ++ rest)) :
    (readTableOf (fuel + 1) item depth first input).toOption =
      (readTyped fuel item depth (value.encode ++ (membersBytes members ++ rest))).toOption.bind
        fun (value, rest) => (readTableOf fuel item depth false rest).toOption.map
          fun (values, rest) => ((name, value) :: values, rest) := by
  simp only [readTableOf, more, toOption_bind, toOption_ok, Option.bind_some, if_true,
    readText_memberBytes, readColon_colon, toOption_within, toOption_pure, Option.map_eq_bind]
  rfl

theorem toOption_readTableOf_end (fuel depth : Nat) (first : Bool) (rest : Input) :
    (readTableOf (fuel + 1) item depth first (ascii '\x7d' :: rest)).toOption = some ([], rest) := by
  simp [readTableOf, nextMember_end]

theorem toOption_readTyped_table (next : Input) :
    (readTyped (fuel + 1) (.table item) depth (ascii '\x7b' :: next)).toOption =
      if depth ≤ 1 then none
      else (readTableOf fuel item (depth - 1) true next).toOption.map fun (members, rest) =>
        (.object (ofMembers members), rest) := by
  have brace : ¬ ascii '\x7b' = ascii '[' := by decide
  rw [readTyped, skipSpace_cons _ (by decide)]
  · simp only [if_neg brace, if_true, decide_eq_true_eq]
    split_ifs
    · rfl
    · simp only [toOption_bind, toOption_pure, Option.map_eq_bind]
      rfl
  · simp
  · simp

/-- One member of a table and those after it. -/
private theorem toOption_readTableOf_member {first : Bool}
    (more : nextMember first input = .ok (true, memberBytes name value members ++ rest))
    (agrees : Agrees value) (room : 0 < depth)
    (enough : 2 * (memberBytes name value members).length + item.width ≤ fuel)
    (following : (readTableOf fuel item depth false (membersBytes members ++ rest)).toOption =
      (tableWithin members depth item).map (·, rest)) :
    (readTableOf (fuel + 1) item depth first input).toOption =
      (tableWithin ((name, value) :: members) depth item).map (·, rest) := by
  rw [length_memberBytes] at enough
  rw [toOption_readTableOf_more more,
    agrees item depth fuel _ room (by omega) (endsNumber_membersBytes rest), tableWithin]
  cases decodeWithin value depth item with
  | none => rfl
  | some v =>
    simp only [Option.map_some, Option.bind_some]
    rw [following]
    cases tableWithin members depth item <;> rfl

private theorem toOption_readTableOf_membersBytes (each : ∀ m ∈ members, Agrees m.2)
    (room : 0 < depth) : ∀ fuel, 2 * (membersBytes members).length + item.width ≤ fuel →
      (readTableOf fuel item depth false (membersBytes members ++ rest)).toOption =
        (tableWithin members depth item).map (·, rest) := by
  induction members with
  | nil =>
    intro fuel enough
    rw [membersBytes_nil, List.length_singleton] at enough
    obtain ⟨fuel, rfl⟩ := Nat.exists_eq_succ_of_ne_zero (by omega : fuel ≠ 0)
    exact toOption_readTableOf_end fuel depth false rest
  | cons m members ih =>
    obtain ⟨name, value⟩ := m
    intro fuel enough
    rw [List.forall_mem_cons] at each
    rw [membersBytes_cons, List.length_cons, List.length_cons] at enough
    obtain ⟨fuel, rfl⟩ := Nat.exists_eq_succ_of_ne_zero (by omega : fuel ≠ 0)
    have length := length_memberBytes name value members
    refine toOption_readTableOf_member ?_ each.1 room (by omega) (ih each.2 fuel (by omega))
    rw [membersBytes_cons, List.cons_append, List.cons_append, nextMember_comma]

/-- A written table reads by its schema as its values decode. -/
theorem toOption_readTableOf_tableBytes (each : ∀ m ∈ members, Agrees m.2) (room : 0 < depth)
    (enough : 2 * (tableBytes members).length + item.width ≤ fuel) :
    (readTableOf fuel item depth true (tableBytes members ++ rest)).toOption =
      (tableWithin members depth item).map (·, rest) := by
  cases members with
  | nil =>
    rw [tableBytes, List.length_singleton] at enough
    obtain ⟨fuel, rfl⟩ := Nat.exists_eq_succ_of_ne_zero (by omega : fuel ≠ 0)
    exact toOption_readTableOf_end fuel depth true rest
  | cons m members =>
    obtain ⟨name, value⟩ := m
    rw [List.forall_mem_cons] at each
    rw [tableBytes, List.length_cons] at enough
    obtain ⟨fuel, rfl⟩ := Nat.exists_eq_succ_of_ne_zero (by omega : fuel ≠ 0)
    have length := length_memberBytes name value members
    refine toOption_readTableOf_member ?_ each.1 room (by omega)
      (toOption_readTableOf_membersBytes each.2 room fuel (by omega))
    rw [tableBytes, List.cons_append, nextMember_first]

end Tenancy.Json
