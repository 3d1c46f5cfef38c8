import Tenancy.Proofs.Json.Records

/-! # Members in the order of a text

A text has the members of an object in any order, and maybe several with one name. A document has them in
order, and of those with one name the last. What a record or a table makes of the members as the text has them
is what it makes of those of the document, unless it gathers members: whether those are type metadata depends
on their order.
-/

namespace Tenancy.Json

variable {layout : Layout} {fields : Fields} {depth : Nat} {name : String} {item : Schema} {field : Field}
  {members normals : List (String × Json)} {got : Members}

/-- Sorting keeps, under each name, the member that came last. -/
theorem lookup_reverse_ofMembers : lookup name (ofMembers members).reverse = lookup name members.reverse := by
  rw [lookup_reverse (increasing_ofMembers members).nodup, lookup_ofMembers]

/-! ## Records -/

/-- When all members could be taken, each of them could. -/
theorem taken_of_membersWithin (held : membersWithin members depth layout fields = some got) :
    ∀ m ∈ members, ∃ here, (takeMember layout fields depth m.1 m.2 fun form => decodeWithin m.2 depth form) =
      some here := by
  induction members generalizing got with
  | nil => exact List.forall_mem_nil _
  | cons entry members ih =>
    obtain ⟨name, value⟩ := entry
    obtain ⟨here, later, taken, others, -⟩ := membersWithin_cons.mp held
    exact List.forall_mem_cons.mpr ⟨⟨here, taken⟩, ih others⟩

/-- What is held for a field is what stands for the last member with its name. -/
theorem lookup_read_membersWithin (known : fields.find? name = some field)
    (held : membersWithin members depth layout fields = some got) :
    (lookup name got.read).map some = (lookup name members.reverse).map fun value =>
      field.take value (decodeWithin value depth field.form) := by
  induction members generalizing got with
  | nil =>
    rw [membersWithin] at held
    cases held
    rfl
  | cons entry members ih =>
    obtain ⟨key, value⟩ := entry
    obtain ⟨here, later, taken, others, rfl⟩ := membersWithin_cons.mp held
    have first : (lookup name here.read).map some = (lookup name [(key, value)]).map fun value =>
        field.take value (decodeWithin value depth field.form) := by
      by_cases same : key = name
      · subst same
        rw [takeMember_known known, Option.bind_eq_some_iff] at taken
        obtain ⟨normal, read, taken⟩ := taken
        obtain ⟨-, -, same⟩ := Option.map_eq_some_iff.mp taken
        rw [← same, lookup_cons_self, lookup_cons_self, Option.map_some, Option.map_some, read]
      · have nothing : lookup name here.read = none := lookup_eq_none_iff.mpr fun m present =>
          name_of_takeMember taken m present ▸ same
        rw [nothing, lookup_cons_of_ne same]
        rfl
    rw [Members.followed, List.reverse_cons, lookup_append, lookup_append, Option.map_or, Option.map_or,
      ih others, first]

/-- The members of the document give a record the same fields as those of the text. -/
theorem membersWithin_ofMembers (held : membersWithin members depth layout fields = some got) :
    ∃ sorted, membersWithin (ofMembers members) depth layout fields = some sorted ∧
      fields.assemble sorted.read = fields.assemble got.read := by
  obtain ⟨sorted, again⟩ := exists_membersWithin fun m (present : m ∈ ofMembers members) =>
    taken_of_membersWithin held m (mem_of_mem_ofMembers present)
  refine ⟨sorted, again, Fields.assemble_congr fun field among => ?_⟩
  cases known : fields.find? field.name with
  | none => exact absurd rfl (Fields.find?_eq_none_iff.mp known field among)
  | some first =>
    have same := lookup_read_membersWithin known again
    rw [lookup_reverse_ofMembers, ← lookup_read_membersWithin known held] at same
    exact Option.map_injective (Option.some_injective _) same

/-- A record that gathers nothing has one normal form from the text and from the document. -/
theorem decodeWithin_record_ofMembers {normal : List (String × Json)} (room : 1 < depth)
    (plain : ∀ kind surplus, layout ≠ .gathered kind surplus)
    (held : membersWithin members (depth - 1) layout fields = some got)
    (complete : layout.complete fields got = .ok normal) :
    decodeWithin (.object (ofMembers members)) depth (.record layout fields) = some (.object normal) := by
  obtain ⟨sorted, again, same⟩ := membersWithin_ofMembers held
  refine decodeWithin_record.mpr ⟨room, sorted, normal, again, ?_, rfl⟩
  rw [Layout.complete] at complete ⊢
  cases layout with
  | gathered kind surplus => exact absurd rfl (plain kind surplus)
  | _ => rwa [same]

/-- A record that keeps its surplus takes the members of the document if it takes those of the text, though it
may keep others of the type metadata. -/
theorem exists_decodeWithin_keep {kind : String} {normal : List (String × Json)} (room : 1 < depth)
    (held : membersWithin members (depth - 1) (.gathered kind .keep) fields = some got)
    (complete : (Layout.gathered kind .keep).complete fields got = .ok normal) :
    ∃ record, decodeWithin (.object (ofMembers members)) depth (.record (.gathered kind .keep) fields) =
      some record := by
  obtain ⟨sorted, again, same⟩ := membersWithin_ofMembers held
  rw [Layout.complete] at complete
  obtain ⟨known, assembled, -⟩ := bind_eq_ok.mp complete
  obtain ⟨normal, complete⟩ := exists_complete (same.trans assembled)
  exact ⟨_, decodeWithin_record.mpr ⟨room, sorted, normal, again, complete, rfl⟩⟩

/-! ## Tables -/

theorem tableWithin_cons {value : Json} : tableWithin ((name, value) :: members) depth item = some normals ↔
    ∃ normal others, decodeWithin value depth item = some normal ∧
      tableWithin members depth item = some others ∧ (name, normal) :: others = normals := by
  rw [tableWithin]
  simp only [Option.bind_eq_bind, Option.bind_eq_some_iff, Option.pure_def, Option.some.injEq]
  constructor
  · rintro ⟨normal, first, others, later, same⟩
    exact ⟨normal, others, first, later, same⟩
  · rintro ⟨normal, others, first, later, same⟩
    exact ⟨normal, first, others, later, same⟩

theorem exists_tableWithin (each : ∀ m ∈ members, ∃ normal, decodeWithin m.2 depth item = some normal) :
    ∃ normals, tableWithin members depth item = some normals := by
  induction members with
  | nil => exact ⟨[], rfl⟩
  | cons entry members ih =>
    obtain ⟨name, value⟩ := entry
    obtain ⟨⟨normal, first⟩, each⟩ := List.forall_mem_cons.mp each
    obtain ⟨others, later⟩ := ih each
    exact ⟨_, tableWithin_cons.mpr ⟨normal, others, first, later, rfl⟩⟩

theorem decoded_of_tableWithin (found : tableWithin members depth item = some normals) :
    ∀ m ∈ members, ∃ normal, decodeWithin m.2 depth item = some normal := by
  induction members generalizing normals with
  | nil => exact List.forall_mem_nil _
  | cons entry members ih =>
    obtain ⟨name, value⟩ := entry
    obtain ⟨normal, others, first, later, -⟩ := tableWithin_cons.mp found
    exact List.forall_mem_cons.mpr ⟨⟨normal, first⟩, ih later⟩

/-- Decoding a table keeps, under each name, which member came last. -/
theorem lookup_reverse_tableWithin (name : String) (found : tableWithin members depth item = some normals) :
    (lookup name normals.reverse).map some =
      (lookup name members.reverse).map fun value => decodeWithin value depth item := by
  induction members generalizing normals with
  | nil =>
    cases found
    rfl
  | cons entry members ih =>
    obtain ⟨key, value⟩ := entry
    obtain ⟨normal, others, first, later, rfl⟩ := tableWithin_cons.mp found
    have here : (lookup name [(key, normal)]).map some =
        (lookup name [(key, value)]).map fun value => decodeWithin value depth item := by
      by_cases same : key = name
      · subst same
        rw [lookup_cons_self, lookup_cons_self, Option.map_some, Option.map_some, first]
      · rw [lookup_cons_of_ne same, lookup_cons_of_ne same]
        rfl
    rw [List.reverse_cons, List.reverse_cons, lookup_append, lookup_append, Option.map_or, Option.map_or,
      ih later, here]

/-- A table has one normal form from the text and from the document. -/
theorem decodeWithin_table_ofMembers (room : 1 < depth)
    (found : tableWithin members (depth - 1) item = some normals) :
    decodeWithin (.object (ofMembers members)) depth (.table item) = some (.object (ofMembers normals)) := by
  obtain ⟨sorted, again⟩ := exists_tableWithin fun m (present : m ∈ ofMembers members) =>
    decoded_of_tableWithin found m (mem_of_mem_ofMembers present)
  have same : ofMembers sorted = ofMembers normals := by
    refine (increasing_ofMembers sorted).ext (increasing_ofMembers normals) fun name => ?_
    have last := lookup_reverse_tableWithin name again
    rw [lookup_reverse_ofMembers, ← lookup_reverse_tableWithin name found] at last
    rw [lookup_ofMembers, lookup_ofMembers]
    exact Option.map_injective (Option.some_injective _) last
  rw [decodeWithin, if_neg (Nat.not_le_of_lt room), again, ← same]
  rfl

end Tenancy.Json
