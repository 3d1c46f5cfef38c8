import Tenancy.Json.Schema
import Tenancy.Proofs.Json.Members
import Tenancy.Proofs.Json.Reading

/-! # The members of a record

A member of a record's normal form was read under its name, or fills the gap that its field leaves, or
is what the record does with its surplus. These lemmas say so of each step by which the normal form is
put together.
-/

namespace Tenancy.Json

variable {name : String} {field : Field} {m : String × Json} {members read : List (String × Json)}

namespace Fields

theorem mem_of_find? : ∀ {fields : Fields}, fields.find? name = some field →
    field ∈ fields.toList ∧ field.name = name
  | .nil, found => (nomatch found)
  | .cons key absent void form rest, found => by
    rw [find?] at found
    split_ifs at found with same
    · cases found
      exact ⟨List.mem_cons_self .., same⟩
    · obtain ⟨present, named⟩ := mem_of_find? found
      exact ⟨List.mem_cons_of_mem _ present, named⟩

/-- With distinct names each field of a record is found under its own. -/
theorem find?_eq_some_of_mem : ∀ {fields : Fields}, (fields.toList.map Field.name).Nodup →
    field ∈ fields.toList → fields.find? field.name = some field
  | .nil, _, present => absurd present List.not_mem_nil
  | .cons key absent void form rest, distinct, present => by
    obtain ⟨fresh, distinct⟩ := List.nodup_cons.mp distinct
    rw [find?]
    rcases List.mem_cons.mp present with rfl | later
    · exact if_pos rfl
    · have among : field.name ∈ rest.toList.map Field.name := List.mem_map_of_mem later
      have other : key ≠ field.name := fun same => fresh (same ▸ among)
      rw [if_neg other]
      exact find?_eq_some_of_mem distinct later

/-- What stands in the gaps that the fields leave, each with the name of its field. -/
def fills : Fields → List (String × Json)
  | .nil => []
  | .cons name absent void _ rest =>
    (absent.members? name).getD [] ++ (void.members? name).getD [] ++ rest.fills

/-- What a field contributes to the normal form of its record. -/
def contribution (read : List (String × Json)) (name : String) (absent void : Gap) :
    Except Mismatch (List (String × Json)) :=
  match lookup name read with
  | none => (absent.members? name).elim (.error (.missing name)) .ok
  | some .null => (void.members? name).elim (.error (.missing name)) .ok
  | some v => .ok [(name, v)]

theorem assemble_cons (read : List (String × Json)) (name : String) (absent void : Gap) (form : Schema)
    (rest : Fields) : assemble read (.cons name absent void form rest) =
      (contribution read name absent void >>= fun head => (head ++ ·) <$> rest.assemble read) := by
  rw [assemble, contribution]
  generalize rest.assemble read = later
  cases held : lookup name read with
  | none => cases filled : absent.members? name <;> cases later <;> simp [filled]
  | some v =>
    cases v with
    | null => cases filled : void.members? name <;> cases later <;> simp [filled]
    | _ => cases later <;> rfl

/-- A contribution was read, or fills the gap. -/
theorem mem_contribution {absent void : Gap}
    (found : contribution read name absent void = .ok members) (present : m ∈ members) :
    m.1 = name ∧ lookup name read = some m.2 ∧ m.2 ≠ .null ∨
      m ∈ (absent.members? name).getD [] ++ (void.members? name).getD [] := by
  rw [contribution] at found
  split at found
  · cases filled : absent.members? name with
    | none => rw [filled] at found; cases found
    | some gap =>
      rw [filled] at found
      cases found
      exact .inr (List.mem_append_left _ present)
  · cases filled : void.members? name with
    | none => rw [filled] at found; cases found
    | some gap =>
      rw [filled] at found
      cases found
      exact .inr (List.mem_append_right _ present)
  · next v some_ held =>
    cases found
    rw [List.mem_singleton.mp present]
    exact .inl ⟨rfl, held, some_⟩

theorem name_of_contribution {absent void : Gap}
    (found : contribution read name absent void = .ok members) : ∀ m ∈ members, m.1 = name := by
  intro m present
  rcases mem_contribution found present with ⟨named, -⟩ | filled
  · exact named
  · have named : ∀ gap : Gap, m ∈ (gap.members? name).getD [] → m.1 = name := by
      intro gap filled
      cases gap with
      | fill value => rw [List.mem_singleton.mp filled]
      | _ => exact absurd filled List.not_mem_nil
    exact (List.mem_append.mp filled).elim (named absent) (named void)

theorem find?_eq_none_iff : ∀ {fields : Fields}, fields.find? name = none ↔
    ∀ field ∈ fields.toList, field.name ≠ name
  | .nil => ⟨fun _ => List.forall_mem_nil _, fun _ => rfl⟩
  | .cons key absent void form rest => by
    rw [find?, toList, List.forall_mem_cons]
    split_ifs with same
    · exact ⟨fun found => (nomatch found), fun others => absurd same others.1⟩
    · rw [find?_eq_none_iff]
      exact ⟨fun others => ⟨same, others⟩, fun others => others.2⟩

/-- A record knows its fields by name. -/
theorem name_of_assemble : ∀ {fields : Fields} {members : List (String × Json)},
    fields.assemble read = .ok members → ∀ m ∈ members, ∃ field ∈ fields.toList, field.name = m.1
  | .nil, members, found => by
    cases found
    exact List.forall_mem_nil _
  | .cons name absent void form rest, members, found => by
    rw [assemble_cons] at found
    obtain ⟨head, here, found⟩ := bind_eq_ok.mp found
    obtain ⟨tail, later, same⟩ := map_eq_ok.mp found
    subst same
    refine List.forall_mem_append.mpr ?_
    constructor
    · intro m present
      exact ⟨_, List.mem_cons_self .., (name_of_contribution here m present).symm⟩
    · intro m present
      obtain ⟨field, among, named⟩ := name_of_assemble later m present
      exact ⟨field, List.mem_cons_of_mem _ among, named⟩

/-- Only what was read for the fields counts for a record. -/
theorem assemble_congr {other : List (String × Json)} : ∀ {fields : Fields},
    (∀ field ∈ fields.toList, lookup field.name read = lookup field.name other) →
      fields.assemble read = fields.assemble other
  | .nil, _ => rfl
  | .cons name absent void form rest, same => by
    obtain ⟨here, later⟩ := List.forall_mem_cons.mp same
    rw [assemble_cons, assemble_cons, contribution, contribution, here, assemble_congr later]

theorem contribution_of_lookup {value : Json} {absent void : Gap} (held : lookup name read = some value)
    (nonnull : value ≠ .null) : contribution read name absent void = .ok [(name, value)] := by
  rw [contribution, held]
  cases value with
  | null => exact absurd rfl nonnull
  | _ => rfl

/-- What was read for a field is in the normal form. -/
theorem lookup_assemble {value : Json} (held : lookup name read = some value) (nonnull : value ≠ .null) :
    ∀ {fields : Fields} {members : List (String × Json)}, fields.find? name = some field →
      fields.assemble read = .ok members → lookup name members = some value
  | .nil, members, known, _ => (nomatch known)
  | .cons key absent void form rest, members, known, found => by
    rw [assemble_cons] at found
    obtain ⟨head, here, found⟩ := bind_eq_ok.mp found
    obtain ⟨tail, later, same⟩ := map_eq_ok.mp found
    subst same
    by_cases first : key = name
    · subst first
      rw [contribution_of_lookup held nonnull] at here
      cases here
      exact lookup_cons_self
    · rw [find?, if_neg first] at known
      have others : ∀ m ∈ head, m.1 ≠ name := fun m present =>
        name_of_contribution here m present ▸ first
      rw [lookup_append_of_ne others]
      exact lookup_assemble held nonnull known later

/-- Exchanging what was read for a field exchanges it in the normal form. -/
theorem assemble_exchange {old value : Json} (held : lookup name read = some old) (nonnull : old ≠ .null)
    (stillNonnull : value ≠ .null) : ∀ {fields : Fields} {members : List (String × Json)},
      fields.assemble read = .ok members →
      fields.assemble (exchange name value read) = .ok (exchange name value members)
  | .nil, members, found => by
    cases found
    rfl
  | .cons key absent void form rest, members, found => by
    rw [assemble_cons] at found ⊢
    obtain ⟨head, here, found⟩ := bind_eq_ok.mp found
    obtain ⟨tail, later, same⟩ := map_eq_ok.mp found
    subst same
    have exchanged : contribution (exchange name value read) key absent void =
        .ok (exchange name value head) := by
      by_cases first : key = name
      · subst first
        have now : lookup key (exchange key value read) = some value := by
          rw [lookup_exchange, if_pos rfl, held, Option.map_some]
        rw [contribution_of_lookup held nonnull] at here
        cases here
        rw [contribution_of_lookup now stillNonnull, exchange, List.map_singleton, if_pos rfl]
      · have others : ∀ m ∈ head, m.1 ≠ name := fun m present =>
          name_of_contribution here m present ▸ first
        rw [exchange_of_ne others, ← here, contribution, contribution, lookup_exchange, if_neg first]
    rw [exchanged, assemble_exchange held nonnull stillNonnull later, exchange_append]
    rfl

/-- Each member of an assembled record was read and is not null, or is filled in for one that was absent. -/
theorem mem_assemble : ∀ {fields : Fields} {members : List (String × Json)},
    fields.assemble read = .ok members → m ∈ members →
      (lookup m.1 read = some m.2 ∧ m.2 ≠ .null) ∨ m ∈ fields.fills
  | .nil, members, found, present => by
    cases found
    exact absurd present List.not_mem_nil
  | .cons name absent void form rest, members, found, present => by
    rw [assemble_cons] at found
    obtain ⟨head, here, found⟩ := bind_eq_ok.mp found
    obtain ⟨tail, later, same⟩ := map_eq_ok.mp found
    subst same
    rcases List.mem_append.mp present with first | other
    · rcases mem_contribution here first with ⟨rfl, held⟩ | filled
      · exact .inl held
      · exact .inr (List.mem_append_left _ filled)
    · exact (mem_assemble later other).imp_right (List.mem_append_right _)

end Fields

/-! ## Surplus -/

/-- Taking the type metadata out, one member after the other. -/
private theorem takeTypes_go_cons (version kind : Option String) (name : String) (value : Json)
    (rest : List (String × Json)) : takeTypes.go version kind ((name, value) :: rest) =
      if name = "apiVersion" then
        match version, value with
        | some _, _ => (.error (.duplicate "apiVersion"), rest)
        | none, .string s => takeTypes.go (some s) kind rest
        | none, v => (.error (.wrongType (found v) "a string"), rest)
      else if name = "kind" then
        match kind, value with
        | some _, _ => (.error (.duplicate "kind"), rest)
        | none, .string s => takeTypes.go version (some s) rest
        | none, v => (.error (.wrongType (found v) "a string"), rest)
      else
        let (types, left) := takeTypes.go version kind rest
        (types, (name, value) :: left) := rfl

theorem takeTypes_sublist : (takeTypes members).2.Sublist members := by
  suffices ∀ version kind, (takeTypes.go version kind members).2.Sublist members from this none none
  induction members with
  | nil =>
    intro version kind
    cases version <;> cases kind <;> exact List.Sublist.refl _
  | cons entry rest ih =>
    obtain ⟨name, value⟩ := entry
    intro version kind
    rw [takeTypes_go_cons]
    split_ifs
    · split
      · exact List.sublist_cons_self ..
      · exact (ih _ _).cons _
      · exact List.sublist_cons_self ..
    · split
      · exact List.sublist_cons_self ..
      · exact (ih _ _).cons _
      · exact List.sublist_cons_self ..
    · exact (ih _ _).cons_cons _

theorem mem_takeTypes (present : m ∈ (takeTypes members).2) : m ∈ members :=
  takeTypes_sublist.subset present

/-- Taking the type metadata out leaves every other member, in the same order. -/
theorem filter_takeTypes (p : String → Bool) (noVersion : p "apiVersion" = false) (noKind : p "kind" = false) :
    (takeTypes members).2.filter (fun m => p m.1) = members.filter fun m => p m.1 := by
  suffices ∀ version kind, (takeTypes.go version kind members).2.filter (fun m => p m.1) =
    members.filter fun m => p m.1 from this none none
  induction members with
  | nil =>
    intro version kind
    cases version <;> cases kind <;> rfl
  | cons entry rest ih =>
    obtain ⟨key, value⟩ := entry
    intro version kind
    rw [takeTypes_go_cons, List.filter_cons]
    split_ifs with isVersion kept isKind kept kept
    · exact absurd (isVersion ▸ kept) (by rw [noVersion]; exact Bool.false_ne_true)
    · split
      · rfl
      · exact ih _ _
      · rfl
    · exact absurd (isKind ▸ kept) (by rw [noKind]; exact Bool.false_ne_true)
    · split
      · rfl
      · exact ih _ _
      · rfl
    · rw [List.filter_cons, if_pos kept, ih]
    · rw [List.filter_cons, if_neg kept, ih]

private theorem filter_name_takeTypes (noVersion : name ≠ "apiVersion") (noKind : name ≠ "kind") :
    (takeTypes members).2.filter (fun m => m.1 == name) = members.filter fun m => m.1 == name :=
  filter_takeTypes (· == name) (beq_eq_false_iff_ne.mpr noVersion.symm) (beq_eq_false_iff_ne.mpr noKind.symm)

/-- Taking the two type members out leaves the last member of every other name where it was. -/
theorem lookup_reverse_takeTypes (noVersion : name ≠ "apiVersion") (noKind : name ≠ "kind") :
    lookup name (takeTypes members).2.reverse = lookup name members.reverse := by
  rw [← lookup_filter_name, List.filter_reverse, filter_name_takeTypes noVersion noKind,
    ← List.filter_reverse, lookup_filter_name]

/-- Where a name is left, its last member is. -/
theorem lookup_of_takeTypes {value : Json} (left : lookup name (takeTypes members).2.reverse = some value) :
    lookup name members.reverse = some value := by
  by_cases isType : name = "apiVersion" ∨ name = "kind"
  · suffices ∀ version kind, lookup name (takeTypes.go version kind members).2.reverse = some value →
      lookup name members.reverse = some value from this none none left
    clear left
    induction members with
    | nil =>
      intro version kind left
      cases version <;> cases kind <;> exact left
    | cons entry rest ih =>
      obtain ⟨key, first⟩ := entry
      intro version kind left
      have later (found : lookup name rest.reverse = some value) :
          lookup name ((key, first) :: rest).reverse = some value := by
        rw [List.reverse_cons, lookup_append, found, Option.some_or]
      rw [takeTypes_go_cons] at left
      split_ifs at left with isVersion isKind
      · split at left
        · exact later left
        · exact later (ih _ _ left)
        · exact later left
      · split at left
        · exact later left
        · exact later (ih _ _ left)
        · exact later left
      · have other : key ≠ name := by
          rintro rfl
          exact isType.elim isVersion isKind
        have left : lookup name ((key, first) :: (takeTypes.go version kind rest).2).reverse = some value := left
        have nothing : lookup name [] = none := rfl
        rw [List.reverse_cons, lookup_append, lookup_cons_of_ne other, nothing, Option.or_none] at left
        exact later (ih version kind left)
  · rw [not_or] at isType
    rwa [lookup_reverse_takeTypes isType.1 isType.2] at left

def typeMembers (types : String × String) : List (String × Json) :=
  [("apiVersion", .string types.1), ("kind", .string types.2)]

theorem typeMembers_name (types : Option (String × String)) :
    ∀ m ∈ (types.map typeMembers).getD [], m.1 = "apiVersion" ∨ m.1 = "kind" := by
  cases types with
  | none => exact List.forall_mem_nil _
  | some types => exact List.forall_mem_cons.mpr ⟨.inl rfl, List.forall_mem_singleton.mpr (.inr rfl)⟩

/-- A completed record has type metadata in front, if any, and surplus behind, if it keeps that. What is
known of the record does not count for either. -/
theorem complete_surplus {surplus : Surplus} {gathered known : List (String × Json)}
    (found : surplus.complete gathered known = .ok members) :
    ∃ types : Option (String × String), ∃ left : List (String × Json),
      (∀ known, surplus.complete gathered known = .ok ((types.map typeMembers).getD [] ++ known ++ left)) ∧
      (left = ofMembers (takeTypes gathered).2 ∨ surplus ≠ .keep ∧ left = []) := by
  rw [Surplus.complete] at found
  cases surplus with
  | skip => exact ⟨none, [], fun known => by simp [Surplus.complete], .inr ⟨by simp, rfl⟩⟩
  | typed =>
    obtain ⟨types, taken, -⟩ := bind_eq_ok.mp found
    have taken : (takeTypes gathered).1 = .ok types := taken
    refine ⟨some types, [], fun known => ?_, .inr ⟨by simp, rfl⟩⟩
    simp only [Surplus.complete, taken, List.append_nil]
    rfl
  | typedOr version kind =>
    cases taken : (takeTypes gathered).1 with
    | ok types =>
      refine ⟨some types, [], fun known => ?_, .inr ⟨by simp, rfl⟩⟩
      simp only [Surplus.complete, taken, List.append_nil]
      rfl
    | error e =>
      refine ⟨some (version, kind), [], fun known => ?_, .inr ⟨by simp, rfl⟩⟩
      simp only [Surplus.complete, taken, List.append_nil]
      rfl
  | keep =>
    cases taken : (takeTypes gathered).1 with
    | ok types =>
      refine ⟨some types, _, fun known => ?_, .inl rfl⟩
      simp only [Surplus.complete, taken]
      rfl
    | error e =>
      refine ⟨none, _, fun known => ?_, .inl rfl⟩
      simp only [Surplus.complete, taken]
      rfl

/-! ## Every part of a schema -/

def Gap.every (p : Json → Bool) : Gap → Bool
  | .fill value => p value
  | _ => true

mutual

/-- Whether every value that fills a gap in the schema has a property, and every form without parts
another one. -/
def Schema.every (p : Json → Bool) (q : Schema → Bool) : Schema → Bool
  | .list item | .table item => item.every p q
  | .record _ fields => fields.every p q
  | schema => q schema

def Fields.every (p : Json → Bool) (q : Schema → Bool) : Fields → Bool
  | .nil => true
  | .cons _ absent void form rest => absent.every p && void.every p && form.every p q && rest.every p q

end

namespace Fields

variable {p : Json → Bool} {q : Schema → Bool}

private theorem every_gap {gap : Gap} (holds : gap.every p) :
    ∀ m ∈ (gap.members? name).getD [], p m.2 := by
  cases gap with
  | fill value => exact List.forall_mem_singleton.mpr holds
  | _ => exact List.forall_mem_nil _

theorem every_fills : ∀ {fields : Fields}, fields.every p q → ∀ m ∈ fields.fills, p m.2
  | .nil, _ => List.forall_mem_nil _
  | .cons name absent void form rest, holds => by
    simp only [every, Bool.and_eq_true] at holds
    obtain ⟨⟨⟨whenAbsent, whenVoid⟩, -⟩, later⟩ := holds
    exact List.forall_mem_append.mpr ⟨List.forall_mem_append.mpr ⟨every_gap whenAbsent,
      every_gap whenVoid⟩, every_fills later⟩

theorem every_form : ∀ {fields : Fields}, fields.every p q →
    ∀ field ∈ fields.toList, field.form.every p q
  | .nil, _ => List.forall_mem_nil _
  | .cons name absent void form rest, holds => by
    simp only [every, Bool.and_eq_true] at holds
    obtain ⟨⟨-, here⟩, later⟩ := holds
    exact List.forall_mem_cons.mpr ⟨here, every_form later⟩

end Fields

end Tenancy.Json
