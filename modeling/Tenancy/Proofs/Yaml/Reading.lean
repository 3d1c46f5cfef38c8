import Tenancy.Proofs.Yaml.Building
import Tenancy.Proofs.Yaml.Meaning
import Tenancy.Yaml.Decode

/-! # Reading a JSON text as YAML

A node that shows a value is read as this value with its members in order, and so a portable JSON text says the
same in YAML.
-/

namespace Tenancy.Yaml

open Json (renderChars renderInt)

variable {d : Document} {spot : Spot} {node : Node} {nodes : List Node} {entries : List (Node × Node)}
  {fuel n : Nat}

/-- The value is what is read, and no alias has been followed. -/
def Reads {α : Type} (read : Attempt α) (a : α) : Prop := ∀ n, read n = .ok (a, n)

theorem Reads.bind {α β : Type} {x : Attempt α} {f : α → Attempt β} {a : α} {r : β} (first : Reads x a)
    (later : Reads (f a) r) : Reads (x >>= f) r := by
  intro n
  change (x n >>= fun p => f p.1 p.2) = _
  rw [first n]
  exact later n

theorem Reads.placed {α : Type} {x : Attempt α} {a : α} {mark : Mark} {path : List Json.Step}
    (reads : Reads x a) : Reads (Attempt.placed mark path x) a := by
  intro n
  rw [Attempt.placed, reads n]

theorem Reads.pure {α : Type} (a : α) : Reads (Pure.pure a : Attempt α) a := fun _ => rfl

/-! ## Scalars -/

/-- A scalar without a tag is read as what its text means. -/
theorem readAny_scalar {mark : Mark} {style : Style} {text : String} {v : Json} (meaning : Meaning)
    (meant : Meaning.ofScalar none style text = .ok meaning) (value : valueOf meaning = .ok v) :
    Reads (readAny (fuel + 1) d spot (.scalar mark none style text)) v := by
  intro n
  rw [readAny]
  simp only [ownTag?, Option.filter_none, Option.isSome_none, Bool.false_eq_true, if_false, meant, Attempt.check]
  refine Reads.placed (Reads.bind (.pure meaning) ?_) n
  rw [value]
  exact .pure v

theorem reads_string {mark : Mark} (s : String) :
    Reads (readAny (fuel + 1) d spot (.scalar mark none .double s)) (.string s) :=
  readAny_scalar (.text s) rfl rfl

theorem reads_null {mark : Mark} :
    Reads (readAny (fuel + 1) d spot (.scalar mark none .plain (String.ofList (renderChars .null)))) .null :=
  readAny_scalar .nothing (by decide) rfl

theorem reads_bool {mark : Mark} (b : Bool) :
    Reads (readAny (fuel + 1) d spot (.scalar mark none .plain (String.ofList (renderChars (.bool b)))))
      (.bool b) :=
  readAny_scalar (.truth b) (by cases b <;> decide) rfl

theorem reads_integer {mark : Mark} {i : Int} (word : (Json.Number.integer i).isWord) :
    Reads (readAny (fuel + 1) d spot (.scalar mark none .plain (String.ofList (renderInt i))))
      (.number (.integer i)) :=
  readAny_scalar (.integer i) (congrArg Except.ok (Meaning.ofPlain_integer word)) rfl

/-! ## Lists and tables -/

/-- A container is read one level further down, if there is room. -/
theorem reads_nested {α : Type} {mark : Mark} {read : Spot → Attempt α} {a : α} {depth : Nat}
    (room : spot.depth = depth + 1) (inside : Reads (read { spot with depth }) a) :
    Reads (nested mark spot read) a := by
  rw [nested, room]
  exact inside

/-- A list node is read as the array of what its items are read as. -/
theorem reads_list {mark : Mark} {values : List Json} {depth : Nat} (room : spot.depth = depth + 1)
    (inside : Reads (readAnyItems fuel d { spot with depth } 0 nodes) values) :
    Reads (readAny (fuel + 1) d spot (.list mark none nodes)) (.array values) := by
  intro n
  rw [readAny]
  simp only [ownTag?, Option.filter_none, Option.isSome_none, Bool.false_eq_true, if_false]
  exact Reads.placed (reads_nested room (inside.bind (.pure (Json.array values)))) n

/-- A table node is read as the object of what its members are read as. -/
theorem reads_table {mark : Mark} {values : List (String × Json)} {depth : Nat} (room : spot.depth = depth + 1)
    (inside : Reads (readAnyMembers fuel d { spot with depth } true entries) values) :
    Reads (readAny (fuel + 1) d spot (.table mark none entries)) (.object (Json.ofMembers values)) := by
  intro n
  rw [readAny]
  simp only [ownTag?, Option.filter_none, Option.isSome_none, Bool.false_eq_true, if_false]
  exact Reads.placed (reads_nested room (inside.bind (.pure (Json.object (Json.ofMembers values))))) n

theorem reads_item {index : Nat} {v : Json} {values : List Json}
    (head : Reads (readAny fuel d (spot.step (.index index)) node) v)
    (tail : Reads (readAnyItems fuel d spot (index + 1) nodes) values) :
    Reads (readAnyItems (fuel + 1) d spot index (node :: nodes)) (v :: values) := by
  rw [readAnyItems]
  exact head.bind (tail.bind (.pure _))

theorem reads_member {first : Bool} {mark : Mark} {name : String} {v : Json} {values : List (String × Json)}
    (head : Reads (readAny (fuel + 1) d (spot.member (.scalar mark none .double name)) node) v)
    (tail : Reads (readAnyMembers (fuel + 1) d spot false entries) values) :
    Reads (readAnyMembers (fuel + 2) d spot first ((.scalar mark none .double name, node) :: entries))
      ((name, v) :: values) := by
  have key : ∀ expected, Reads (readName (fuel + 1) d expected spot (.scalar mark none .double name)) name := by
    intro expected
    rw [readName]
    exact .pure name
  rw [readAnyMembers]
  exact (key _).bind (head.bind (tail.bind (.pure _)))

theorem Shows.size_pos {j : Json} (shows : Shows j node) : 0 < node.size := by
  cases j with
  | null | bool | number | string =>
    obtain ⟨mark, rfl⟩ := shows
    exact Nat.one_pos
  | array | object =>
    obtain ⟨mark, nodes, rfl, -⟩ := shows
    exact Nat.succ_pos _

mutual

/-- A node that shows a value is read as the value with its members in order. -/
theorem Shows.reads : ∀ (j : Json) {node : Node} {spot : Spot} {fuel : Nat}, Shows j node → j.isIntegral →
    j.depth ≤ spot.depth → 2 * node.size ≤ fuel → Reads (readAny fuel d spot node) j.sorted
  | .null, _, _, fuel, ⟨_, shown⟩, _, _, enough => by
    subst shown
    obtain ⟨fuel, rfl⟩ := Nat.exists_eq_add_of_le' (Nat.le_trans (by decide : 1 ≤ 2 * 1) enough)
    exact reads_null
  | .bool b, _, _, fuel, ⟨_, shown⟩, _, _, enough => by
    subst shown
    obtain ⟨fuel, rfl⟩ := Nat.exists_eq_add_of_le' (Nat.le_trans (by decide : 1 ≤ 2 * 1) enough)
    exact reads_bool b
  | .string s, _, _, fuel, ⟨_, shown⟩, _, _, enough => by
    subst shown
    obtain ⟨fuel, rfl⟩ := Nat.exists_eq_add_of_le' (Nat.le_trans (by decide : 1 ≤ 2 * 1) enough)
    exact reads_string s
  | .number (.integer i), _, _, fuel, ⟨_, shown⟩, word, _, enough => by
    subst shown
    obtain ⟨fuel, rfl⟩ := Nat.exists_eq_add_of_le' (Nat.le_trans (by decide : 1 ≤ 2 * 1) enough)
    exact reads_integer word
  | .array items, _, _, fuel, ⟨_, nodes, shown, inside⟩, integral, room, enough => by
    subst shown
    rw [Json.isIntegral_array] at integral
    rw [Node.size] at enough
    obtain ⟨depth, place⟩ := Nat.exists_eq_add_of_le' (Nat.le_trans (Nat.le_add_left 1 _) room)
    rw [place, Json.depth_array_le_succ] at room
    obtain ⟨fuel, rfl⟩ := Nat.exists_eq_add_of_le' (show 1 ≤ fuel by omega)
    rw [Json.sorted_array]
    exact reads_list place (ShowsItems.reads items inside integral room (by omega))
  | .object members, _, _, fuel, ⟨_, nodes, shown, inside⟩, integral, room, enough => by
    subst shown
    rw [Json.isIntegral_object] at integral
    rw [Node.size] at enough
    obtain ⟨depth, place⟩ := Nat.exists_eq_add_of_le' (Nat.le_trans (Nat.le_add_left 1 _) room)
    rw [place, Json.depth_object_le_succ] at room
    obtain ⟨fuel, rfl⟩ := Nat.exists_eq_add_of_le' (show 1 ≤ fuel by omega)
    rw [Json.sorted_object]
    exact reads_table place (ShowsMembers.reads members inside integral room (by omega))

/-- Nodes that show items are read as these items. -/
theorem ShowsItems.reads : ∀ (items : List Json) {nodes : List Node} {spot : Spot} {fuel index : Nat},
    ShowsItems items nodes → (∀ item ∈ items, item.isIntegral) → (∀ item ∈ items, item.depth ≤ spot.depth) →
    2 * Node.sizeAll nodes + 1 ≤ fuel → Reads (readAnyItems fuel d spot index nodes) (items.map Json.sorted)
  | [], _, _, fuel, _, shown, _, _, enough => by
    subst shown
    obtain ⟨fuel, rfl⟩ := Nat.exists_eq_add_of_le' (Nat.le_trans (Nat.le_add_left 1 _) enough)
    exact .pure []
  | item :: items, _, _, fuel, _, ⟨node, rest, shown, here, later⟩, integral, room, enough => by
    subst shown
    rw [List.forall_mem_cons] at integral room
    rw [Node.sizeAll] at enough
    have some := Shows.size_pos here
    obtain ⟨fuel, rfl⟩ := Nat.exists_eq_add_of_le' (show 1 ≤ fuel by omega)
    exact reads_item (Shows.reads item here integral.1 room.1 (by omega))
      (ShowsItems.reads items later integral.2 room.2 (by omega))

/-- Nodes that show members are read as these members. -/
theorem ShowsMembers.reads : ∀ (members : List (String × Json)) {nodes : List (Node × Node)} {spot : Spot}
    {fuel : Nat} {first : Bool}, ShowsMembers members nodes → (∀ m ∈ members, m.2.isIntegral) →
    (∀ m ∈ members, m.2.depth ≤ spot.depth) → 2 * Node.sizeMembers nodes + 1 ≤ fuel →
    Reads (readAnyMembers fuel d spot first nodes) (members.map fun m => (m.1, m.2.sorted))
  | [], _, _, fuel, _, shown, _, _, enough => by
    subst shown
    obtain ⟨fuel, rfl⟩ := Nat.exists_eq_add_of_le' (Nat.le_trans (Nat.le_add_left 1 _) enough)
    exact .pure []
  | (name, value) :: members, _, _, fuel, _, ⟨mark, node, rest, shown, here, later⟩, integral, room, enough => by
    subst shown
    rw [List.forall_mem_cons] at integral room
    simp only [Node.sizeMembers, Node.size] at enough
    obtain ⟨fuel, rfl⟩ := Nat.exists_eq_add_of_le' (show 2 ≤ fuel by omega)
    exact reads_member (Shows.reads value here integral.1 room.1 (by omega))
      (ShowsMembers.reads members later integral.2 room.2 (by omega))

end

/-! ## Whole texts -/

/-- A portable JSON text says in YAML what it says in JSON. -/
theorem readYaml_spelling {s : Json.TextSpelling} (portable : s.isPortable)
    (integral : s.root.written.isIntegral) (allowed : s.chars.all isAllowed)
    (shallow : s.root.written.depth ≤ depthLimit) :
    Json.Schema.document.readYaml s.chars = .ok s.root.written.sorted := by
  obtain ⟨shows, whole, single⟩ := Document.ofText_spelling portable integral allowed
  have reads : Reads (readTyped (Document.ofText s.chars).fuel (Document.ofText s.chars) .document {}
      (Document.ofText s.chars).root) s.root.written.sorted := by
    obtain ⟨fuel, place, enough⟩ : ∃ fuel, (Document.ofText s.chars).fuel = fuel + 1 ∧
        2 * (Document.ofText s.chars).root.size ≤ fuel := by
      refine ⟨389 * ((Document.ofText s.chars).root.size + 4) + ((Document.ofText s.chars).root.size + 3), ?_, ?_⟩
      · rw [Document.fuel, depthLimit]
        omega
      · omega
    rw [place, readTyped]
    exact shows.reads _ integral shallow enough
  rw [Json.Schema.readYaml]
  simp only [reads 0, bind, Except.bind, whole, single, Bool.false_eq_true, if_false]

/-- A text with a character that may not stand in it says nothing. -/
theorem readYaml_of_control {text : List Char} (control : text.all isAllowed = false) :
    ∃ why, Json.Schema.document.readYaml text = .error why := by
  have stops : (text.takeWhile isAllowed).length ≠ text.length := fun same => by
    have whole := (List.takeWhile_sublist isAllowed).eq_of_length same
    rw [List.all_eq_true.mpr (List.takeWhile_eq_self_iff.mp whole)] at control
    cases control
  obtain ⟨p, found⟩ : ∃ p, controlProblem? text = some p := ⟨_, if_neg stops⟩
  have cut : Document.ofText text = { root := .cut, broken := some (.problem p), followed := true } := by
    rw [Document.ofText, Token.ofText, found]
    rfl
  exact ⟨.broken (.problem p), by rw [Json.Schema.readYaml, cut]; rfl⟩

end Tenancy.Yaml
