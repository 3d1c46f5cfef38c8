import Tenancy.Proofs.Json.Fields
import Tenancy.Proofs.Json.Within

/-! # Records of documents

A field of a record's normal form comes from the member of the document that has its name. Exchanging that
member therefore changes this field and no other. A record that keeps its surplus has the members that it
does not know as they are, and takes one more of them.
-/

namespace Tenancy.Json

variable {layout : Layout} {fields : Fields} {depth : Nat} {name : String} {value new old : Json}
  {members : List (String × Json)} {got : Members} {field : Field}

/-! ## Members -/

theorem membersWithin_cons : membersWithin ((name, value) :: members) depth layout fields = some got ↔
    ∃ here later, (takeMember layout fields depth name value fun form => decodeWithin value depth form) =
      some here ∧ membersWithin members depth layout fields = some later ∧ here.followed later = got := by
  rw [membersWithin, Option.bind_eq_bind, Option.bind_eq_some_iff]
  simp only [Option.bind_eq_some_iff, Option.pure_def, Option.some.injEq]
  constructor
  · rintro ⟨here, taken, later, others, same⟩
    exact ⟨here, later, taken, others, same⟩
  · rintro ⟨here, later, taken, others, same⟩
    exact ⟨here, taken, later, others, same⟩

/-- If each member can be taken, all of them can. -/
theorem exists_membersWithin {layout : Layout} (taken : ∀ m ∈ members, ∃ held,
    (takeMember layout fields depth m.1 m.2 fun form => decodeWithin m.2 depth form) = some held) :
    ∃ got, membersWithin members depth layout fields = some got := by
  induction members with
  | nil => exact ⟨{}, rfl⟩
  | cons m members ih =>
    obtain ⟨name, value⟩ := m
    rw [List.forall_mem_cons] at taken
    obtain ⟨here, first⟩ := taken.1
    obtain ⟨got, others⟩ := ih taken.2
    exact ⟨_, membersWithin_cons.mpr ⟨here, got, first, others, rfl⟩⟩

theorem name_of_membersWithin (held : membersWithin members depth layout fields = some got) :
    ∀ m ∈ got.read, m.1 ∈ members.map Prod.fst := by
  induction members generalizing got with
  | nil =>
    rw [membersWithin] at held
    cases held
    exact List.forall_mem_nil _
  | cons entry members ih =>
    obtain ⟨name, value⟩ := entry
    obtain ⟨here, later, taken, others, rfl⟩ := membersWithin_cons.mp held
    intro m present
    rcases List.mem_append.mp present with behind | first
    · exact List.mem_cons_of_mem _ (ih others m behind)
    · rw [name_of_takeMember taken m first]
      exact List.mem_cons_self ..

/-- What is held for a field is what stands for its member. -/
theorem lookup_membersWithin (distinct : (members.map Prod.fst).Nodup)
    (held : membersWithin members depth layout fields = some got)
    (known : fields.find? name = some field) (present : lookup name members = some value) :
    ∃ normal, field.take value (decodeWithin value depth field.form) = some normal ∧
      field.form.checkLiteral normal = .ok () ∧ lookup name got.read = some normal := by
  induction members generalizing got with
  | nil => cases present
  | cons entry members ih =>
    obtain ⟨key, first⟩ := entry
    obtain ⟨fresh, distinct⟩ := List.nodup_cons.mp distinct
    obtain ⟨here, later, taken, others, rfl⟩ := membersWithin_cons.mp held
    by_cases same : key = name
    · subst same
      rw [lookup_cons_self, Option.some.injEq] at present
      subst present
      rw [takeMember_known known, Option.bind_eq_some_iff] at taken
      obtain ⟨normal, read, taken⟩ := taken
      obtain ⟨_, literal, same⟩ := Option.map_eq_some_iff.mp taken
      subst same
      refine ⟨normal, read, toOption_eq_some.mp literal, ?_⟩
      have noLater : ∀ m ∈ later.read, m.1 ≠ key := fun m present same =>
        fresh (same ▸ name_of_membersWithin others m present)
      rw [Members.followed, lookup_append_of_ne noLater, lookup_cons_self]
    · rw [lookup_cons_of_ne same] at present
      obtain ⟨normal, read, literal, found⟩ := ih distinct others present
      exact ⟨normal, read, literal, by rw [Members.followed, lookup_append, found, Option.some_or]⟩

/-- Exchanging the member of a field exchanges what is held for it. -/
theorem membersWithin_exchange {normal : Json} (known : fields.find? name = some field)
    (read : field.take new (decodeWithin new depth field.form) = some normal)
    (literal : field.form.checkLiteral normal = .ok ())
    (held : membersWithin members depth layout fields = some got) :
    membersWithin (exchange name new members) depth layout fields =
      some { got with read := exchange name normal got.read } := by
  induction members generalizing got with
  | nil =>
    rw [membersWithin] at held
    cases held
    rw [exchange, List.map_nil, membersWithin]
    rfl
  | cons entry members ih =>
    obtain ⟨key, first⟩ := entry
    obtain ⟨here, later, taken, others, rfl⟩ := membersWithin_cons.mp held
    have exchanged := ih others
    rw [exchange] at exchanged
    rw [exchange, List.map_cons]
    by_cases same : key = name
    · subst same
      rw [takeMember_known known, Option.bind_eq_some_iff] at taken
      obtain ⟨before, -, taken⟩ := taken
      obtain ⟨-, -, same⟩ := Option.map_eq_some_iff.mp taken
      subst same
      rw [if_pos rfl]
      refine membersWithin_cons.mpr ⟨{ read := [(key, normal)] }, _, ?_, exchanged, ?_⟩
      · rw [takeMember_known known, read, Option.bind_some, literal]
        rfl
      · simp [Members.followed, exchange]
    · rw [if_neg same]
      refine membersWithin_cons.mpr ⟨here, _, taken, exchanged, ?_⟩
      have noName : ∀ m ∈ here.read, m.1 ≠ name := fun m present =>
        name_of_takeMember taken m present ▸ same
      simp only [Members.followed, exchange_append, exchange_of_ne noName]

/-! ## Normal forms -/

variable {normal : List (String × Json)} {record : Json}

/-- What is held for the fields stands between type metadata and surplus, on which it has no influence. -/
theorem complete_frame (complete : layout.complete fields got = .ok normal) :
    ∃ known front back, fields.assemble got.read = .ok known ∧ normal = front ++ known ++ back ∧
      (∀ m ∈ front, m.1 = "apiVersion" ∨ m.1 = "kind") ∧
      ∀ read known, fields.assemble read = .ok known →
        layout.complete fields { got with read } = .ok (front ++ known ++ back) := by
  rw [Layout.complete] at complete
  obtain ⟨known, assembled, complete⟩ := bind_eq_ok.mp complete
  cases layout with
  | gathered name surplus =>
    obtain ⟨types, left, completes, -⟩ := complete_surplus complete
    refine ⟨known, _, left, assembled, ?_, typeMembers_name types, fun read known assembled => ?_⟩
    · exact Except.ok.inj (complete.symm.trans (completes known))
    · rw [Layout.complete, assembled]
      exact completes known
  | _ =>
    refine ⟨known, [], [], assembled, ?_, List.forall_mem_nil _, fun read known assembled => ?_⟩
    · cases complete
      rw [List.nil_append, List.append_nil]
    · rw [Layout.complete, assembled, List.nil_append, List.append_nil]
      rfl

/-- An object decodes as a record in three steps: room for its bracket, its members taken, the record
completed. -/
theorem decodeWithin_record : decodeWithin (.object members) depth (.record layout fields) = some record ↔
    1 < depth ∧ ∃ got normal, membersWithin members (depth - 1) layout fields = some got ∧
      layout.complete fields got = .ok normal ∧ record = .object normal := by
  rw [decodeWithin]
  split_ifs with shallow
  · exact ⟨fun found => (nomatch found), fun ⟨deep, _⟩ => absurd shallow (Nat.not_le_of_lt deep)⟩
  · simp only [Option.bind_eq_bind, Option.bind_eq_some_iff, Option.pure_def, Option.some.injEq,
      toOption_eq_some]
    constructor
    · rintro ⟨got, held, normal, complete, rfl⟩
      exact ⟨Nat.lt_of_not_le shallow, got, normal, held, complete, rfl⟩
    · rintro ⟨-, got, normal, held, complete, rfl⟩
      exact ⟨got, held, normal, complete, rfl⟩

theorem object_of_decodeWithin_record
    (decoded : decodeWithin (.object members) depth (.record layout fields) = some record) :
    ∃ normal, record = .object normal := by
  obtain ⟨-, got, normal, -, -, same⟩ := decodeWithin_record.mp decoded
  exact ⟨normal, same⟩

private theorem noType_of_front {front : List (String × Json)}
    (isType : ∀ m ∈ front, m.1 = "apiVersion" ∨ m.1 = "kind")
    (noType : name ≠ "apiVersion" ∧ name ≠ "kind") : ∀ m ∈ front, m.1 ≠ name := by
  intro m present same
  rcases isType m present with version | kind
  · exact noType.1 (same.symm.trans version)
  · exact noType.2 (same.symm.trans kind)

/-- What is held for a field is in the normal form, unless it is null. -/
theorem lookup_complete (complete : layout.complete fields got = .ok normal)
    (known : fields.find? name = some field) (noType : name ≠ "apiVersion" ∧ name ≠ "kind")
    (found : lookup name got.read = some value) (nonnull : value ≠ .null) : lookup name normal = some value := by
  obtain ⟨among, front, back, assembled, rfl, isType, -⟩ := complete_frame complete
  rw [List.append_assoc, lookup_append_of_ne (noType_of_front isType noType), lookup_append,
    Fields.lookup_assemble found nonnull known assembled, Option.some_or]

/-- A field of the normal form is what stands for its member, unless that is null. -/
theorem get?_decodeWithin (field : Field)
    (decoded : decodeWithin (.object members) depth (.record layout fields) = some record)
    (increasing : Increasing members) (known : fields.find? name = some field)
    (noType : name ≠ "apiVersion" ∧ name ≠ "kind") (present : lookup name members = some value) :
    ∃ taken, field.take value (decodeWithin value (depth - 1) field.form) = some taken ∧
      (taken ≠ .null → record.get? name = some taken) := by
  obtain ⟨-, got, normal, held, complete, rfl⟩ := decodeWithin_record.mp decoded
  obtain ⟨taken, read, -, found⟩ := lookup_membersWithin increasing.nodup held known present
  exact ⟨taken, read, lookup_complete complete known noType found⟩

/-- Exchanging the member of a field exchanges the field of the normal form, and nothing else. -/
theorem decodeWithin_exchange (field : Field) {normal : Json}
    (decoded : decodeWithin (.object members) depth (.record layout fields) = some record)
    (increasing : Increasing members) (known : fields.find? name = some field)
    (noType : name ≠ "apiVersion" ∧ name ≠ "kind") (present : lookup name members = some old)
    (nonnull : field.take old (decodeWithin old (depth - 1) field.form) ≠ some .null)
    (read : field.take new (decodeWithin new (depth - 1) field.form) = some normal)
    (literal : field.form.checkLiteral normal = .ok ()) (stillNonnull : normal ≠ .null) :
    ∃ other, decodeWithin (.object (insert name new members)) depth (.record layout fields) = some other ∧
      other.get? name = some normal ∧ ∀ key, key ≠ name → other.get? key = record.get? key := by
  obtain ⟨deep, got, _, held, complete, rfl⟩ := decodeWithin_record.mp decoded
  obtain ⟨among, front, back, assembled, rfl, isType, frame⟩ := complete_frame complete
  obtain ⟨before, beforeRead, -, found⟩ := lookup_membersWithin increasing.nodup held known present
  have some_ : before ≠ .null := fun same => nonnull (same ▸ beforeRead)
  have completed := frame _ _ (Fields.assemble_exchange found some_ stillNonnull assembled)
  refine ⟨_, decodeWithin_record.mpr ⟨deep, _, _, ?_, completed, rfl⟩, ?_, ?_⟩
  · rw [increasing.insert_eq_exchange present]
    exact membersWithin_exchange known read literal held
  · rw [get?, List.append_assoc, lookup_append_of_ne (noType_of_front isType noType), lookup_append,
      lookup_exchange, if_pos rfl, Fields.lookup_assemble found some_ known assembled, Option.map_some,
      Option.some_or]
  · intro key different
    rw [get?, get?, lookup_append, lookup_append, lookup_append, lookup_append, lookup_exchange,
      if_neg different]

/-! ## Surplus that is kept -/

variable {kind : String}

/-- What a record gathers are the members that no field describes. -/
theorem gathered_membersWithin {surplus : Surplus}
    (held : membersWithin members depth (.gathered kind surplus) fields = some got) :
    got.gathered.reverse = members.filter fun m => (fields.find? m.1).isNone := by
  induction members generalizing got with
  | nil =>
    rw [membersWithin] at held
    cases held
    rfl
  | cons entry members ih =>
    obtain ⟨name, value⟩ := entry
    obtain ⟨here, later, taken, others, rfl⟩ := membersWithin_cons.mp held
    rw [Members.followed, List.reverse_append, ih others, List.filter_cons]
    cases known : fields.find? name with
    | some field =>
      rw [takeMember_known known, Option.bind_eq_some_iff] at taken
      obtain ⟨normal, -, taken⟩ := taken
      obtain ⟨-, -, same⟩ := Option.map_eq_some_iff.mp taken
      subst same
      rfl
    | none =>
      rw [takeMember_gathered known] at taken
      split_ifs at taken
      cases taken
      rfl

/-- Of the members with a name that the record does not know the last is kept as it is. -/
theorem lookup_surplus {normal : List (String × Json)}
    (held : membersWithin members depth (.gathered kind .keep) fields = some got)
    (complete : (Layout.gathered kind .keep).complete fields got = .ok normal)
    (unknown : fields.find? name = none) (noType : name ≠ "apiVersion" ∧ name ≠ "kind") :
    lookup name normal = lookup name members.reverse := by
  rw [Layout.complete] at complete
  obtain ⟨known, assembled, complete⟩ := bind_eq_ok.mp complete
  obtain ⟨types, left, completes, kept⟩ := complete_surplus complete
  obtain rfl := Except.ok.inj (complete.symm.trans (completes known))
  obtain rfl := kept.resolve_right fun none => none.1 rfl
  have others : ∀ m ∈ known, m.1 ≠ name := by
    intro m present same
    obtain ⟨field, among, named⟩ := Fields.name_of_assemble assembled m present
    exact Fields.find?_eq_none_iff.mp unknown field among (named.trans same)
  rw [List.append_assoc, lookup_append_of_ne (noType_of_front (typeMembers_name types) noType),
    lookup_append_of_ne others, lookup_ofMembers, lookup_reverse_takeTypes noType.1 noType.2,
    gathered_membersWithin held, ← List.filter_reverse,
    lookup_filter fun name => (fields.find? name).isNone, unknown]
  rfl

private theorem depth_of_membersWithin {surplus : Surplus}
    (held : membersWithin members depth (.gathered kind surplus) fields = some got) :
    ∀ m ∈ got.gathered, m.2.depth < depth := by
  induction members generalizing got with
  | nil =>
    rw [membersWithin] at held
    cases held
    exact List.forall_mem_nil _
  | cons entry members ih =>
    obtain ⟨name, value⟩ := entry
    obtain ⟨here, later, taken, others, rfl⟩ := membersWithin_cons.mp held
    refine List.forall_mem_append.mpr ⟨ih others, ?_⟩
    cases known : fields.find? name with
    | some field =>
      rw [takeMember_known known, Option.bind_eq_some_iff] at taken
      obtain ⟨normal, -, taken⟩ := taken
      obtain ⟨-, -, same⟩ := Option.map_eq_some_iff.mp taken
      subst same
      exact List.forall_mem_nil _
    | none =>
      rw [takeMember_gathered known] at taken
      split_ifs at taken with shallow
      cases taken
      exact List.forall_mem_singleton.mpr shallow

/-- A member that the record does not know is no deeper than the reader allows. -/
theorem depth_of_surplus {surplus : Surplus}
    (decoded : decodeWithin (.object members) depth (.record (.gathered kind surplus) fields) = some record)
    (unknown : fields.find? name = none) (present : lookup name members = some value) :
    value.depth + 1 < depth := by
  obtain ⟨deep, got, normal, held, complete, rfl⟩ := decodeWithin_record.mp decoded
  have among : (name, value) ∈ got.gathered.reverse := by
    rw [gathered_membersWithin held]
    exact List.mem_filter.mpr ⟨mem_of_lookup present, by rw [unknown]; rfl⟩
  have shallow : value.depth < depth - 1 := depth_of_membersWithin held _ (List.mem_reverse.mp among)
  omega

private theorem membersWithin_insert_surplus {surplus : Surplus} (unknown : fields.find? name = none)
    (shallow : new.depth < depth)
    (held : membersWithin members depth (.gathered kind surplus) fields = some got) :
    ∃ more, membersWithin (insert name new members) depth (.gathered kind surplus) fields = some more ∧
      more.read = got.read := by
  have taken : ∀ decode, takeMember (.gathered kind surplus) fields depth name new decode =
      some { gathered := [(name, new)] } := fun decode => by
    rw [takeMember_gathered unknown, if_pos shallow]
  induction members generalizing got with
  | nil =>
    rw [membersWithin] at held
    cases held
    exact ⟨_, membersWithin_cons.mpr ⟨_, {}, taken _, by rw [membersWithin], rfl⟩, rfl⟩
  | cons entry members ih =>
    obtain ⟨key, first⟩ := entry
    obtain ⟨here, later, firstTaken, others, rfl⟩ := membersWithin_cons.mp held
    rw [insert]
    split_ifs with same less
    · subst same
      have noRead : here.read = [] := by
        rw [takeMember_gathered unknown] at firstTaken
        split_ifs at firstTaken
        cases firstTaken
        rfl
      refine ⟨_, membersWithin_cons.mpr ⟨_, later, taken _, others, rfl⟩, ?_⟩
      simp only [Members.followed, noRead]
    · refine ⟨_, membersWithin_cons.mpr ⟨_, here.followed later, taken _, held, rfl⟩, ?_⟩
      simp only [Members.followed, List.append_nil]
    · obtain ⟨more, inserted, sameRead⟩ := ih others
      refine ⟨_, membersWithin_cons.mpr ⟨here, _, firstTaken, inserted, rfl⟩, ?_⟩
      simp only [Members.followed, sameRead]

/-- A record that keeps its surplus is complete when its fields are. -/
theorem exists_complete {known : List (String × Json)} (assembled : fields.assemble got.read = .ok known) :
    ∃ normal, (Layout.gathered kind .keep).complete fields got = .ok normal := by
  simp only [Layout.complete, assembled, Surplus.complete]
  cases (takeTypes got.gathered.reverse).1 with
  | ok types => exact ⟨_, rfl⟩
  | error e => exact ⟨_, rfl⟩

/-- A record takes one more member that it does not know, or another value for it. -/
theorem decodeWithin_insert_surplus
    (decoded : decodeWithin (.object members) depth (.record (.gathered kind .keep) fields) = some record)
    (unknown : fields.find? name = none) (shallow : new.depth + 1 < depth) :
    ∃ other, decodeWithin (.object (insert name new members)) depth
      (.record (.gathered kind .keep) fields) = some other := by
  obtain ⟨deep, got, normal, held, complete, rfl⟩ := decodeWithin_record.mp decoded
  obtain ⟨more, inserted, sameRead⟩ := membersWithin_insert_surplus unknown
    (Nat.lt_sub_of_add_lt shallow) held
  rw [Layout.complete] at complete
  obtain ⟨known, assembled, -⟩ := bind_eq_ok.mp complete
  obtain ⟨normal, completed⟩ := exists_complete (sameRead ▸ assembled)
  exact ⟨_, decodeWithin_record.mpr ⟨deep, _, _, inserted, completed, rfl⟩⟩

end Tenancy.Json
