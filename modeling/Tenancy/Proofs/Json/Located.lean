import Tenancy.Proofs.Json.Following
import Tenancy.Proofs.Json.Records

/-! # Parts of a text

A text has a member where its name stands and its value starts, after members that can be passed over, and an
item of a list likewise. Where a record that refuses repeats has been read from the text, its field was read at
that place, whatever stands before and behind it.
-/

namespace Tenancy.Json

variable {input rest next after start : Input} {fuel depth index : Nat} {first : Bool} {name : String}
  {value record : Json} {held before : Members} {fields : Fields} {layout : Layout} {field : Field}

/-- Among the members that the input is at, one has the name, and its value starts there. -/
inductive Finds (name : String) (start : Input) : Bool → Input → Prop where
  | here {first : Bool} {input : Input} (key : MemberAt first input name start) : Finds name start first input
  | later {first : Bool} {input : Input} {other : String} {value after : Input}
    (key : MemberAt first input other value) (passed : Extent value after)
    (found : Finds name start false after) : Finds name start first input

/-- The object at the front of the input has a member with the name, and its value starts there. -/
def HasMember (input : Input) (name : String) (start : Input) : Prop :=
  ∃ next, skipSpace input = ascii '\x7b' :: next ∧ Finds name start true next

/-- Of the items that the input is at, the one with the index starts there. -/
inductive Reaches (start : Input) : Nat → Bool → Input → Prop where
  | here {first : Bool} {input : Input} (step : nextItem first input = .ok (true, start)) :
    Reaches start 0 first input
  | later {index : Nat} {first : Bool} {input value after : Input} (step : nextItem first input = .ok (true, value))
    (passed : Extent value after) (found : Reaches start index false after) :
    Reaches start (index + 1) first input

/-- The list at the front of the input has an item with the index, and it starts there. -/
def HasItem (input : Input) (index : Nat) (start : Input) : Prop :=
  ∃ next, skipSpace input = ascii '[' :: next ∧ Reaches start index true next

/-! ## Members -/

/-- What is held for a field stays, as a second member for it would be refused. -/
theorem lookup_readFields (refuses : layout.refusesRepeats) (fuel : Nat) :
    ∀ {first : Bool} {before : Members} {input : Input}, lookup name before.read = some value →
      readFields fuel layout fields depth first before input = .ok (.ok held, rest) →
        lookup name held.read = some value := by
  induction fuel with
  | zero =>
    intro first before input _ found
    rw [readFields] at found
    exact absurd found stop_ne_ok
  | succ fuel ih =>
    intro first before input present found
    cases readFields_ok found with
    | done _ same => rwa [same]
    | known other field value start next _ _ fresh _ _ following =>
      have different : other ≠ name := by
        rintro rfl
        rw [fresh refuses] at present
        cases present
      exact ih ((lookup_cons_of_ne different).trans present) following
    | gathered _ _ _ _ _ _ _ _ _ _ following =>
      refine ih ?_ following
      exact present
    | skipped _ _ _ _ _ _ _ following => exact ih present following

/-- The members of a record are read where they are. -/
theorem readField_of_readFields (refuses : layout.refusesRepeats) (known : fields.find? name = some field)
    (placed : Finds name start first input) : ∀ {fuel : Nat} {before : Members},
      readFields fuel layout fields depth first before input = .ok (.ok held, rest) →
        ∃ less value next, readField less field depth start = .ok (value, next) ∧
          lookup name held.read = some value := by
  induction placed with
  | here key =>
    intro fuel before found
    cases fuel with
    | zero => rw [readFields] at found; exact absurd found stop_ne_ok
    | succ fuel =>
      cases readFields_ok found with
      | done step =>
        obtain ⟨blank, close⟩ := nextMember_ended step
        exact absurd (blank.trans close) key.not_close
      | known _ _ value _ next same described _ read _ following =>
        obtain ⟨rfl, rfl⟩ := key.unique same
        cases known.symm.trans described
        -- no later member has the name, for repeats are refused, so that the value stays
        exact ⟨fuel, value, next, read, lookup_readFields refuses fuel lookup_cons_self following⟩
      | gathered _ _ _ _ _ _ same unknown =>
        obtain ⟨rfl, -⟩ := key.unique same
        cases known.symm.trans unknown
      | skipped _ _ _ same unknown =>
        obtain ⟨rfl, -⟩ := key.unique same
        cases known.symm.trans unknown
  | later key passed _ ih =>
    intro fuel before found
    cases fuel with
    | zero => rw [readFields] at found; exact absurd found stop_ne_ok
    | succ fuel =>
      cases readFields_ok found with
      | done step =>
        obtain ⟨blank, close⟩ := nextMember_ended step
        exact absurd (blank.trans close) key.not_close
      | known _ _ _ _ _ same _ _ read _ following =>
        obtain ⟨-, rfl⟩ := key.unique same
        obtain rfl := passed.unique (extent_of_readField read)
        exact ih following
      | gathered _ _ _ _ _ _ same _ _ read following =>
        obtain ⟨-, rfl⟩ := key.unique same
        obtain rfl := passed.unique (extent_of_readDocument read)
        exact ih following
      | skipped _ _ _ same _ _ read following =>
        obtain ⟨-, rfl⟩ := key.unique same
        obtain rfl := passed.unique (extent_of_skipValue read)
        exact ih following

/-- The field of a record is what was read where the text has its member. -/
theorem readField_of_hasMember (field : Field) (refuses : layout.refusesRepeats)
    (known : fields.find? name = some field) (noType : name ≠ "apiVersion" ∧ name ≠ "kind")
    (found : readTyped fuel (.record layout fields) depth input = .ok (record, rest))
    (has : HasMember input name start) :
    ∃ less value next, readField less field (depth - 1) start = .ok (value, next) ∧
      (value ≠ .null → record.get? name = some value) := by
  obtain ⟨next, brace, placed⟩ := has
  cases fuel with
  | zero => rw [readTyped] at found; exact absurd found stop_ne_ok
  | succ fuel =>
    cases readTyped_ok found with
    | document same => cases same
    | choice _ same => cases same
    | scalar _ _ _ begins noBracket => cases brace.symm.trans begins; exact absurd noBracket (by decide)
    | list _ _ _ same => cases same
    | table _ _ _ same => cases same
    | places _ _ _ _ _ _ begins =>
      have other : ascii '\x7b' ≠ ascii '[' := by decide
      exact absurd (List.cons.inj (brace.symm.trans begins)).1 other
    | record layout fields held normal next last same begins _ read complete value_eq =>
      cases same
      cases brace.symm.trans begins
      obtain ⟨less, value, next, taken, present⟩ := readField_of_readFields refuses known placed read
      refine ⟨less, value, next, taken, fun nonnull => ?_⟩
      rw [value_eq]
      exact lookup_complete complete known noType present nonnull

/-! ## Places -/

private theorem name_of_place {gap : Gap} {here : List (String × Json)}
    (placed : (if value.isNull then gap.members? name else some [(name, value)]) = some here) :
    ∀ m ∈ here, m.1 = name := by
  split_ifs at placed
  · cases gap with
    | fill v => cases placed; exact List.forall_mem_singleton.mpr rfl
    | refuse => cases placed
    | _ => cases placed; exact List.forall_mem_nil _
  · cases placed
    exact List.forall_mem_singleton.mpr rfl

/-- The places of a record are read where they are. -/
theorem readField_of_readPlaces (placed : Reaches start index first input) :
    ∀ {fuel place : Nat} {fields : Fields} {members : List (String × Json)}, (place == 0) = first →
      (fields.toList.map Field.name).Nodup → fields.toList[index]? = some field →
      readPlaces fuel fields depth place input = .ok (.ok members, rest) →
        ∃ less value next, readField less field depth start = .ok (value, next) ∧
          (value ≠ .null → lookup field.name members = some value) := by
  induction placed with
  | here step =>
    intro fuel place fields members isFirst distinct described found
    cases fuel with
    | zero => rw [readPlaces] at found; exact absurd found stop_ne_ok
    | succ fuel =>
      cases fields with
      | nil => cases described
      | cons key absent void form fields =>
        cases described
        obtain ⟨here, later, next, -, rfl, ⟨missing, -⟩ | ⟨_, value, again, read, placed⟩⟩ := readPlaces_ok found
        · rw [isFirst] at missing
          cases step.symm.trans missing
        · rw [isFirst] at again
          cases step.symm.trans again
          refine ⟨fuel, value, next, read, fun nonnull => ?_⟩
          rw [if_neg fun null => nonnull (eq_null_of_isNull null), Option.some.injEq] at placed
          rw [← placed, List.singleton_append, lookup_cons_self]
  | later step passed _ ih =>
    intro fuel place fields members isFirst distinct described found
    cases fuel with
    | zero => rw [readPlaces] at found; exact absurd found stop_ne_ok
    | succ fuel =>
      cases fields with
      | nil => cases described
      | cons key absent void form fields =>
        obtain ⟨fresh, distinct⟩ := List.nodup_cons.mp distinct
        obtain ⟨here, later, next, following, rfl, ⟨missing, -⟩ | ⟨_, other, again, read, placed⟩⟩ :=
          readPlaces_ok found
        · rw [isFirst] at missing
          cases step.symm.trans missing
        · rw [isFirst] at again
          cases step.symm.trans again
          obtain rfl := passed.unique (extent_of_readField read)
          obtain ⟨less, value, last, taken, present⟩ := ih rfl distinct described following
          rw [Fields.toList, List.getElem?_cons_succ] at described
          have elsewhere : ∀ m ∈ here, m.1 ≠ field.name := by
            intro m among same
            rw [name_of_place placed m among] at same
            exact fresh (List.mem_map.mpr ⟨field, List.mem_of_getElem? described, same.symm⟩)
          exact ⟨less, value, last, taken, fun nonnull =>
            (lookup_append_of_ne elsewhere).trans (present nonnull)⟩

/-- The field of a record in list form is what was read where the text has its place. -/
theorem readField_of_hasItem {kind : String} (distinct : (fields.toList.map Field.name).Nodup)
    (described : fields.toList[index]? = some field)
    (found : readTyped fuel (.record (.declared kind) fields) depth input = .ok (record, rest))
    (has : HasItem input index start) :
    ∃ less value next, readField less field (depth - 1) start = .ok (value, next) ∧
      (value ≠ .null → record.get? field.name = some value) := by
  obtain ⟨next, bracket, placed⟩ := has
  cases fuel with
  | zero => rw [readTyped] at found; exact absurd found stop_ne_ok
  | succ fuel =>
    cases readTyped_ok found with
    | document same => cases same
    | choice _ same => cases same
    | scalar _ _ _ begins noBracket => cases bracket.symm.trans begins; exact absurd noBracket (by decide)
    | list _ _ _ same => cases same
    | table _ _ _ same => cases same
    | record _ _ _ _ _ _ _ begins =>
      have other : ascii '[' ≠ ascii '\x7b' := by decide
      exact absurd (List.cons.inj (bracket.symm.trans begins)).1 other
    | places _ _ members next last same begins _ read _ value_eq =>
      cases same
      cases bracket.symm.trans begins
      rw [value_eq]
      exact readField_of_readPlaces placed rfl distinct described read

/-! ## Records within records -/

/-- A field whose value is not null is read by its form. -/
theorem readTyped_of_readField {b : UInt8} (begins : skipSpace input = b :: next) (noNull : b ≠ ascii 'n')
    (found : readField fuel field depth input = .ok (value, rest)) :
    ∃ less, readTyped less field.form depth input = .ok (value, rest) := by
  cases readField_ok found with
  | null _ read =>
    obtain ⟨-, _, letter, -⟩ := readNull?_eq_some read
    exact absurd (List.cons.inj (begins.symm.trans letter)).1 noNull
  | form less _ _ read => exact ⟨less, read⟩

theorem object_of_readTyped (found : readTyped fuel (.record layout fields) depth input = .ok (value, rest)) :
    ∃ members, value = .object members := by
  cases fuel with
  | zero => rw [readTyped] at found; exact absurd found stop_ne_ok
  | succ fuel =>
    obtain ⟨-, types, known, left, value_eq, -⟩ := recordOf_of_readTyped found
    exact ⟨_, value_eq⟩

/-- A record that was read in a field of another is that field. -/
theorem readTyped_of_field {b : UInt8} {inner : Layout} {parts : Fields} (form : field.form = .record inner parts)
    (begins : skipSpace start = b :: next) (noNull : b ≠ ascii 'n')
    (taken : ∃ less value after, readField less field depth start = .ok (value, after) ∧
      (value ≠ .null → record.get? name = some value)) :
    ∃ less value after, readTyped less (.record inner parts) depth start = .ok (value, after) ∧
      record.get? name = some value := by
  obtain ⟨less, value, after, read, present⟩ := taken
  obtain ⟨less, read⟩ := readTyped_of_readField begins noNull read
  rw [form] at read
  obtain ⟨members, rfl⟩ := object_of_readTyped read
  exact ⟨less, _, after, read, present (by simp)⟩

/-! ## Members of documents -/

private theorem finds_of_readMembers (fuel : Nat) : ∀ {first : Bool} {input : Input}
    {members : List (String × Json)}, readMembers fuel depth first input = .ok (members, rest) →
      lookup name members.reverse = some value → ∃ start, Finds name start first input ∧
        ∃ less after, readDocument less depth start = .ok (value, after) := by
  induction fuel with
  | zero =>
    intro first input members found
    rw [readMembers] at found
    exact absurd found stop_ne_ok
  | succ fuel ih =>
    intro first input members found present
    rcases readMembers_ok found with ⟨rfl, -⟩ | ⟨other, here, others, start, after, rfl, key, read, following⟩
    · cases present
    · rw [List.reverse_cons, lookup_append] at present
      cases behind : lookup name others.reverse with
      | some last =>
        rw [behind, Option.some_or] at present
        cases present
        obtain ⟨place, placed, document⟩ := ih following behind
        exact ⟨place, .later key (extent_of_readDocument read) placed, document⟩
      | none =>
        rw [behind, Option.none_or] at present
        by_cases same : other = name
        · subst same
          rw [lookup_cons_self] at present
          cases present
          exact ⟨start, .here key, fuel, after, read⟩
        · rw [lookup_cons_of_ne same] at present
          cases present

/-- The text of a document has the members of the document. -/
theorem hasMember_of_readDocument {members : List (String × Json)}
    (found : readDocument fuel depth input = .ok (.object members, rest))
    (present : lookup name members = some value) :
    ∃ start, HasMember input name start ∧
      ∃ less room after, readDocument less room start = .ok (value, after) := by
  obtain ⟨next, brace⟩ := start_of_readDocument_object found
  obtain ⟨less, texts, parts, same⟩ := readMembers_of_readDocument brace found
  cases same
  rw [lookup_ofMembers] at present
  obtain ⟨start, placed, less, after, read⟩ := finds_of_readMembers less parts present
  exact ⟨start, ⟨next, brace, placed⟩, less, depth - 1, after, read⟩

end Tenancy.Json
