import Tenancy.Proofs.Json.Following
import Tenancy.Proofs.Json.Reordering

/-! # Two readers of one text

A text that the reader of documents reads may be read by a typed reader as well. The two then stop at the same
places, and the typed value is the one that decoding makes of the document. Choices, which a text may write as
objects, and the list form of a record are left out, and so are records that gather members: what those keep
depends on the order of the text.
-/

namespace Tenancy.Json

variable {input rest after : Input} {fuel more depth room index : Nat} {first : Bool}
  {value document : Json} {items : List Json} {members : List (String × Json)} {name : String}
  {schema item : Schema} {fields : Fields} {layout : Layout} {field : Field}

/-! ## Lenient schemas -/

mutual

/-- Every record in the schema is lenient, and no form is a choice. -/
def Schema.isLenient : Schema → Bool
  | .list item | .table item => item.isLenient
  | .record (.lenient _) fields => fields.isLenient
  | .record _ _ | .choice _ => false
  | _ => true

def Fields.isLenient : Fields → Bool
  | .nil => true
  | .cons _ _ _ form rest => form.isLenient && rest.isLenient

end

theorem Fields.isLenient_form : ∀ {fields : Fields}, fields.isLenient → fields.find? name = some field →
    field.form.isLenient
  | .nil, _, known => (nomatch known)
  | .cons key absent void form rest, lenient, known => by
    rw [isLenient, Bool.and_eq_true] at lenient
    rw [find?] at known
    split_ifs at known
    · cases known
      exact lenient.1
    · exact isLenient_form lenient.2 known

theorem decodeWithin_document (shallow : value.depth < depth) :
    decodeWithin value depth .document = some value := by
  cases value with
  | array items => rw [decodeWithin, if_pos shallow]
  | object members => rw [decodeWithin, if_pos shallow]
  | _ => rfl

/-! ## In step -/

/-- The typed readers with so much fuel are in step with those of documents: where both read a text, what the
typed one has is what decoding makes of what the other has. -/
structure InStep (fuel : Nat) : Prop where
  typed : ∀ {schema : Schema} {depth more room : Nat} {input rest after : Input} {value document : Json},
    schema.isLenient → 0 < depth → readTyped fuel schema depth input = .ok (value, rest) →
    readDocument more room input = .ok (document, after) →
      decodeWithin document depth schema = some value
  list : ∀ {item : Schema} {depth index more room : Nat} {input rest after : Input} {values items : List Json},
    item.isLenient → 0 < depth → readListOf fuel item depth index input = .ok (values, rest) →
    readItems more room index input = .ok (items, after) →
      itemsWithin items depth item = some values
  table : ∀ {item : Schema} {depth more room : Nat} {first : Bool} {input rest after : Input}
      {values members : List (String × Json)},
    item.isLenient → 0 < depth → readTableOf fuel item depth first input = .ok (values, rest) →
    readMembers more room first input = .ok (members, after) →
      tableWithin members depth item = some values
  field : ∀ {field : Field} {depth more room : Nat} {input rest after : Input} {value document : Json},
    field.form.isLenient → 0 < depth → readField fuel field depth input = .ok (value, rest) →
    readDocument more room input = .ok (document, after) →
      field.take document (decodeWithin document depth field.form) = some value
  record : ∀ {layout : Layout} {fields : Fields} {depth more room : Nat} {first : Bool} {before held : Members}
      {input rest after : Input} {members : List (String × Json)},
    fields.isLenient → 0 < depth →
    readFields fuel layout fields depth first before input = .ok (.ok held, rest) →
    readMembers more room first input = .ok (members, after) →
      ∃ got, membersWithin members depth layout fields = some got ∧ held = before.followed got

namespace InStep

variable {before taken : Members} {values : List Json} {entries : List (String × Json)}

theorem zero : InStep 0 where
  typed _ _ found := by rw [readTyped] at found; exact absurd found stop_ne_ok
  list _ _ found := by rw [readListOf] at found; exact absurd found stop_ne_ok
  table _ _ found := by rw [readTableOf] at found; exact absurd found stop_ne_ok
  field _ _ found := by rw [readField] at found; exact absurd found stop_ne_ok
  record _ _ found := by rw [readFields] at found; exact absurd found stop_ne_ok

theorem typed_succ (inStep : InStep fuel) (lenient : schema.isLenient) (positive : 0 < depth)
    (found : readTyped (fuel + 1) schema depth input = .ok (value, rest))
    (whole : readDocument more room input = .ok (document, after)) :
    decodeWithin document depth schema = some value := by
  cases readTyped_ok found with
  | document schema_eq read =>
    subst schema_eq
    cases readDocument_unique read whole
    exact decodeWithin_document (wellRead_of_readDocument positive read).2
  | choice names schema_eq => subst schema_eq; exact absurd lenient Bool.false_ne_true
  | scalar b next v start noBracket read accepted =>
    cases read.symm.trans (readScalar_of_readDocument start noBracket whole)
    have plain : ∀ names, schema ≠ .choice names := by
      rintro names rfl
      exact Bool.false_ne_true lenient
    rw [decodeWithin_scalar (scalar_of_readScalar read) plain, accepted, toOption_ok]
  | list item values next schema_eq start deep read value_eq =>
    subst schema_eq value_eq
    have lenient : item.isLenient := lenient
    obtain ⟨less, items, parts, rfl⟩ := readItems_of_readDocument start whole
    rw [decodeWithin, if_neg (Nat.not_le_of_lt deep),
      inStep.list lenient (Nat.sub_pos_of_lt deep) read parts]
    rfl
  | table item values next schema_eq start deep read value_eq =>
    subst schema_eq value_eq
    have lenient : item.isLenient := lenient
    obtain ⟨less, members, parts, rfl⟩ := readMembers_of_readDocument start whole
    exact decodeWithin_table_ofMembers deep (inStep.table lenient (Nat.sub_pos_of_lt deep) read parts)
  | record layout fields held normal next last schema_eq start deep read complete value_eq =>
    subst schema_eq value_eq
    obtain ⟨less, members, parts, rfl⟩ := readMembers_of_readDocument start whole
    cases layout with
    | lenient kind =>
      have lenient : fields.isLenient := lenient
      obtain ⟨got, within, rfl⟩ := inStep.record lenient (Nat.sub_pos_of_lt deep) read parts
      rw [Members.empty_followed] at complete
      exact decodeWithin_record_ofMembers deep (by simp) within complete
    | _ => exact absurd lenient Bool.false_ne_true
  | places kind fields _ _ _ schema_eq => subst schema_eq; exact absurd lenient Bool.false_ne_true

theorem list_succ (inStep : InStep fuel) (lenient : item.isLenient) (positive : 0 < depth)
    (found : readListOf (fuel + 1) item depth index input = .ok (values, rest))
    (whole : readItems more room index input = .ok (items, after)) :
    itemsWithin items depth item = some values := by
  cases more with
  | zero => rw [readItems] at whole; exact absurd whole stop_ne_ok
  | succ more =>
    rcases readListOf_ok found with ⟨rfl, close⟩ | ⟨value, others, next, mid, rfl, step, read, following⟩ <;>
    rcases readItems_ok whole with ⟨rfl, ends⟩ | ⟨document, later, start, last, rfl, again, part, remaining⟩
    · rfl
    · cases again.symm.trans (nextItem_close _ close)
    · cases step.symm.trans (nextItem_close _ ends)
    · cases step.symm.trans again
      obtain rfl := (extent_of_readTyped read).unique (extent_of_readDocument part)
      rw [itemsWithin, inStep.typed lenient positive read part, Option.bind_eq_bind, Option.bind_some,
        inStep.list lenient positive following remaining]
      rfl

theorem table_succ (inStep : InStep fuel) (lenient : item.isLenient) (positive : 0 < depth)
    (found : readTableOf (fuel + 1) item depth first input = .ok (entries, rest))
    (whole : readMembers more room first input = .ok (members, after)) :
    tableWithin members depth item = some entries := by
  cases more with
  | zero => rw [readMembers] at whole; exact absurd whole stop_ne_ok
  | succ more =>
    rcases readTableOf_ok found with ⟨rfl, close⟩ |
      ⟨name, value, others, start, mid, rfl, key, read, following⟩ <;>
    rcases readMembers_ok whole with ⟨rfl, ends⟩ |
      ⟨again, document, later, place, last, rfl, same, part, remaining⟩
    · rfl
    · exact absurd close same.not_close
    · exact absurd ends key.not_close
    · obtain ⟨rfl, rfl⟩ := key.unique same
      obtain rfl := (extent_of_readTyped read).unique (extent_of_readDocument part)
      exact tableWithin_cons.mpr ⟨value, others, inStep.typed lenient positive read part,
        inStep.table lenient positive following remaining, rfl⟩

theorem field_succ (inStep : InStep fuel) (lenient : field.form.isLenient) (positive : 0 < depth)
    (found : readField (fuel + 1) field depth input = .ok (value, rest))
    (whole : readDocument more room input = .ok (document, after)) :
    field.take document (decodeWithin document depth field.form) = some value := by
  cases readField_ok found with
  | null takesNull read =>
    obtain ⟨rfl, next, start, scalar⟩ := readNull?_eq_some read
    cases scalar.symm.trans (readScalar_of_readDocument start (by decide) whole)
    rw [Field.take, if_pos ⟨takesNull, rfl⟩]
  | form less fuel_eq some_ read =>
    obtain rfl := Nat.succ.inj fuel_eq
    have decoded := inStep.typed lenient positive read whole
    rw [Field.take, if_neg, decoded]
    rintro ⟨takesNull, null⟩
    rw [eq_null_of_isNull null] at whole
    obtain ⟨next, start⟩ := start_of_readDocument_null whole
    exact readNull?_eq_none (some_ takesNull) next start

theorem record_succ (inStep : InStep fuel) (lenient : fields.isLenient) (positive : 0 < depth)
    (found : readFields (fuel + 1) layout fields depth first before input = .ok (.ok taken, rest))
    (whole : readMembers more room first input = .ok (members, after)) :
    ∃ got, membersWithin members depth layout fields = some got ∧ taken = before.followed got := by
  cases more with
  | zero => rw [readMembers] at whole; exact absurd whole stop_ne_ok
  | succ more =>
    rcases readMembers_ok whole with ⟨rfl, ends⟩ |
      ⟨again, document, later, place, last, rfl, same, part, remaining⟩
    · cases readFields_ok found with
      | done _ same => exact ⟨{}, rfl, by rw [same, Members.followed_empty]⟩
      | known _ _ _ _ _ key => exact absurd ends key.not_close
      | gathered _ _ _ _ _ _ key => exact absurd ends key.not_close
      | skipped _ _ _ key => exact absurd ends key.not_close
    · cases readFields_ok found with
      | done step _ =>
        obtain ⟨blank, close⟩ := nextMember_ended step
        exact absurd (blank.trans close) same.not_close
      | known name field value start next key known _ read literal following =>
        obtain ⟨rfl, rfl⟩ := key.unique same
        obtain rfl := (extent_of_readField read).unique (extent_of_readDocument part)
        obtain ⟨got, others, rfl⟩ := inStep.record lenient positive following remaining
        have taken := inStep.field (Fields.isLenient_form lenient known) positive read part
        refine ⟨_, membersWithin_cons.mpr ⟨{ read := [(name, value)] }, got, ?_, others, rfl⟩, ?_⟩
        · rw [takeMember_known known, taken, Option.bind_some, literal]
          rfl
        · rw [← Members.followed_assoc]
          rfl
      | gathered name kind surplus value start next key unknown layout_eq read following =>
        subst layout_eq
        obtain ⟨rfl, rfl⟩ := key.unique same
        cases readDocument_unique read part
        obtain ⟨got, others, rfl⟩ := inStep.record lenient positive following remaining
        refine ⟨_, membersWithin_cons.mpr ⟨{ gathered := [(name, document)] }, got, ?_, others, rfl⟩, ?_⟩
        · rw [takeMember_gathered unknown, if_pos (wellRead_of_readDocument positive read).2]
        · rw [← Members.followed_assoc]
          rfl
      | skipped name start next key unknown skips read following =>
        obtain ⟨rfl, rfl⟩ := key.unique same
        obtain rfl := (extent_of_skipValue read).unique (extent_of_readDocument part)
        obtain ⟨got, others, rfl⟩ := inStep.record lenient positive following remaining
        exact ⟨_, membersWithin_cons.mpr ⟨{}, got, takeMember_skipped unknown skips, others, rfl⟩,
          by rw [Members.empty_followed]⟩

end InStep

/-- The readers are in step; the induction is on the fuel of the typed ones, and each of them goes one step. -/
theorem inStep (fuel : Nat) : InStep fuel := by
  induction fuel with
  | zero => exact .zero
  | succ fuel ih => exact ⟨ih.typed_succ, ih.list_succ, ih.table_succ, ih.field_succ, ih.record_succ⟩

/-- Where both readers succeed, the typed value is the one that decoding makes of the document. -/
theorem decodeWithin_of_readTyped (lenient : schema.isLenient) (positive : 0 < depth)
    (found : readTyped fuel schema depth input = .ok (value, rest))
    (whole : readDocument more room input = .ok (document, after)) :
    decodeWithin document depth schema = some value :=
  (inStep fuel).typed lenient positive found whole

/-- Where both readers succeed on a record that gathers members, it is told by the members of the text. -/
theorem membersWithin_of_readTyped {kind : String} {surplus : Surplus} {record : Json} (lenient : fields.isLenient)
    (found : readTyped fuel (.record (.gathered kind surplus) fields) depth input = .ok (record, rest))
    (whole : readDocument more room input = .ok (.object members, after)) :
    1 < depth ∧ ∃ texts got normal, members = ofMembers texts ∧
      membersWithin texts (depth - 1) (.gathered kind surplus) fields = some got ∧
      (Layout.gathered kind surplus).complete fields got = .ok normal ∧ record = .object normal := by
  obtain ⟨next, brace⟩ := start_of_readDocument_object whole
  have noScalar : isBracket (ascii '\x7b') := by decide
  have noList : ascii '\x7b' ≠ ascii '[' := by decide
  cases fuel with
  | zero => rw [readTyped] at found; exact absurd found stop_ne_ok
  | succ fuel =>
    cases readTyped_ok found with
    | document same => cases same
    | choice _ same => cases same
    | scalar _ _ _ start noBracket =>
      cases brace.symm.trans start
      exact absurd noScalar (by rw [noBracket]; exact Bool.false_ne_true)
    | list _ _ _ same => cases same
    | table _ _ _ same => cases same
    | places _ _ _ _ _ same => cases same
    | record layout fields held normal next last same start deep read complete value_eq =>
      cases same
      cases brace.symm.trans start
      obtain ⟨less, texts, parts, same⟩ := readMembers_of_readDocument start whole
      cases same
      obtain ⟨got, within, rfl⟩ := (inStep fuel).record lenient (Nat.sub_pos_of_lt deep) read parts
      rw [Members.empty_followed] at complete
      exact ⟨deep, texts, got, normal, rfl, within, complete, value_eq⟩

end Tenancy.Json
