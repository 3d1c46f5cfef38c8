import Tenancy.Json.Typed
import Tenancy.Proofs.Json.Fields

/-! # What a typed reader gives

Each typed reader is taken apart once, by a lemma that tells the ways in which it succeeds. What
follows here is how deep a normal form can be: as deep as the text, unless a gap is filled with more.
-/

namespace Tenancy.Json

variable {fuel depth index : Nat} {schema item : Schema} {input rest : Input} {value : Json}
  {items : List Json} {members : List (String × Json)} {fields : Fields} {layout : Layout}

/-! ## Steps that succeed -/

/-- How the name of a choice was read: as a text, or as the only name in an object. -/
inductive ChoiceAs (names : List String) (depth : Nat) (input rest : Input) (value : Json) : Prop where
  | text (s : String) (next : Input) (start : skipSpace input = ascii '"' :: next)
    (read : readText next = .ok (s, rest)) (known : s ∈ names) (value_eq : value = .string s)
  | keyed (s : String) (v : Json) (next start after : Input) (opens : skipSpace input = ascii '\x7b' :: next)
    (room : 1 < depth) (key : MemberAt true next s start) (null : readNull? start = .ok (some (v, after)))
    (closes : skipSpace after = ascii '\x7d' :: rest) (known : s ∈ names) (value_eq : value = .string s)

private theorem refuse_ne_ok {α : Type} {expected : String} {v : α} (input : Input) :
    readChoice.refuse expected input ≠ .ok v := by
  intro found
  rw [readChoice.refuse.eq_def] at found
  split at found
  · exact stop_ne_ok found
  · split_ifs at found
    · exact stop_ne_ok found
    · exact stop_ne_ok found
    · obtain ⟨⟨w, after⟩, -, found⟩ := bind_eq_ok.mp found
      exact stop_ne_ok found

/-- A choice that reads is a known name, alone or as the one member of an object. -/
theorem readChoice_ok {names : List String} (found : readChoice names depth input = .ok (value, rest)) :
    ChoiceAs names depth input rest value := by
  rw [readChoice] at found
  have known_ok {s : String} {after : Input} {u : Unit} (allowed : (if s ∈ names then .ok ()
      else stop (.mismatch (.unknownVariant s names)) after : Attempt Unit) = .ok u) : s ∈ names := by
    by_contra other
    rw [if_neg other] at allowed
    exact absurd allowed stop_ne_ok
  split at found
  · exact absurd found stop_ne_ok
  · next b next start =>
    split_ifs at found with quote brace shallow
    · obtain ⟨⟨s, after⟩, read, found⟩ := bind_eq_ok.mp found
      obtain ⟨_, allowed, same⟩ := bind_eq_ok.mp found
      cases same
      subst quote
      exact .text s next start read (known_ok allowed) rfl
    · exact absurd found stopAt_ne_ok
    · -- only a quoted name can stand after the brace
      subst brace
      extract_lets afterName at found
      obtain ⟨text, s, colon, name, read, found⟩ : ∃ text s colon, skipSpace next = ascii '"' :: text ∧
          readText text = .ok (s, colon) ∧ afterName (s, colon) = .ok (value, rest) := by
        split at found
        · obtain ⟨_, never, -⟩ := bind_eq_ok.mp found
          exact absurd never stop_ne_ok
        · next c text name =>
          split_ifs at found with quoted
          · obtain ⟨⟨s, colon⟩, read, found⟩ := bind_eq_ok.mp found
            exact ⟨text, s, colon, quoted ▸ name, read, found⟩
          · obtain ⟨_, never, -⟩ := bind_eq_ok.mp found
            exact absurd never (refuse_ne_ok _)
      obtain ⟨_, allowed, found⟩ := bind_eq_ok.mp found
      obtain ⟨start', sign, found⟩ := bind_eq_ok.mp found
      obtain ⟨after, null, found⟩ := bind_eq_ok.mp found
      obtain ⟨taken, null, kept⟩ := bind_eq_ok.mp (within_eq_ok.mp null)
      have first : nextMember true next = .ok (true, text) := by
        have noBrace : ¬ ascii '"' = ascii '\x7d' := by decide
        simp only [nextMember, name, if_neg noBrace, if_true]
      have key : MemberAt true next s start' := ⟨text, colon, first, read, sign⟩
      cases taken with
      | none => exact absurd kept (refuse_ne_ok _)
      | some result =>
        obtain ⟨v, last⟩ := result
        cases kept
        split at found
        · exact absurd found stop_ne_ok
        · next c tail closes =>
          split_ifs at found with close
          · cases found
            exact .keyed s v next start' after start (by omega) key null (close ▸ closes) (known_ok allowed) rfl
          · exact absurd found stop_ne_ok
    · exact absurd found stopAt_ne_ok

theorem scalar_of_readChoice {names : List String}
    (found : readChoice names depth input = .ok (value, rest)) : value.isScalar := by
  cases readChoice_ok found with
  | text s _ _ _ _ value_eq => rw [value_eq]; rfl
  | keyed s _ _ _ _ _ _ _ _ _ _ value_eq => rw [value_eq]; rfl

/-- A record is not accepted from a value as it stands, it is read member by member. -/
theorem accept_record : (Schema.record layout fields).accept value =
    .error (.wrongType (found value) (Schema.record layout fields).expected) := by
  cases value <;> rfl

theorem scalar_of_accept {normal : Json} (scalar : value.isScalar)
    (found : schema.accept value = .ok normal) : normal.isScalar := by
  rw [Schema.accept.eq_def] at found
  split at found
  · cases found; exact scalar
  · cases found; rfl
  · cases found; rfl
  · cases found; rfl
  · cases found; rfl
  · rw [Schema.acceptInteger.eq_def] at found
    split at found
    · split_ifs at found
      cases found
      rfl
    · cases found
  · split at found
    · cases found; rfl
    · cases found
  · split at found
    · cases found; rfl
    · cases found
  · cases found

inductive ReadAs (fuel : Nat) (schema : Schema) (depth : Nat) (input rest : Input) (value : Json) : Prop where
  | document (schema_eq : schema = .document) (read : readDocument fuel depth input = .ok (value, rest))
  | choice (names : List String) (schema_eq : schema = .choice names)
    (read : readChoice names depth input = .ok (value, rest))
  | scalar (b : UInt8) (next : Input) (v : Json) (start : skipSpace input = b :: next)
    (noBracket : isBracket b = false) (read : readScalar b next = .ok (v, rest))
    (accepted : schema.accept v = .ok value)
  | list (item : Schema) (items : List Json) (next : Input) (schema_eq : schema = .list item)
    (start : skipSpace input = ascii '[' :: next) (room : 1 < depth)
    (read : readListOf fuel item (depth - 1) 0 next = .ok (items, rest)) (value_eq : value = .array items)
  | table (item : Schema) (members : List (String × Json)) (next : Input) (schema_eq : schema = .table item)
    (start : skipSpace input = ascii '\x7b' :: next) (room : 1 < depth)
    (read : readTableOf fuel item (depth - 1) true next = .ok (members, rest))
    (value_eq : value = .object (ofMembers members))
  | record (layout : Layout) (fields : Fields) (held : Members) (members : List (String × Json))
    (next last : Input) (schema_eq : schema = .record layout fields)
    (start : skipSpace input = ascii '\x7b' :: next) (room : 1 < depth)
    (read : readFields fuel layout fields (depth - 1) true {} next = .ok (.ok held, last))
    (complete : layout.complete fields held = .ok members) (value_eq : value = .object members)
    (rest_eq : rest = last.tail)
  | places (name : String) (fields : Fields) (members : List (String × Json)) (next last : Input)
    (schema_eq : schema = .record (.declared name) fields) (start : skipSpace input = ascii '[' :: next)
    (room : 1 < depth) (read : readPlaces fuel fields (depth - 1) 0 next = .ok (.ok members, last))
    (close : closeList last = .ok rest) (value_eq : value = .object members)

theorem complain_ne_ok {α : Type} {m : Mismatch} {v : α} :
    complainTable m input ≠ .ok v ∧ complainList m input ≠ .ok v := by
  constructor
  · rw [complainTable]
    split
    · split_ifs <;> exact stop_ne_ok
    · exact stop_ne_ok
  · rw [complainList]
    split
    · split_ifs <;> exact stop_ne_ok
    · exact stop_ne_ok

@[simp] theorem toOption_complainTable {α : Type} (m : Mismatch) :
    (complainTable m input : Attempt α).toOption = none :=
  toOption_eq_none fun _ => complain_ne_ok.1

@[simp] theorem toOption_complainList {α : Type} (m : Mismatch) :
    (complainList m input : Attempt α).toOption = none :=
  toOption_eq_none fun _ => complain_ne_ok.2

/-- A value that reads by its schema was read by the reader for that schema. -/
theorem readTyped_ok (found : readTyped (fuel + 1) schema depth input = .ok (value, rest)) :
    ReadAs fuel schema depth input rest value := by
  rw [readTyped.eq_def] at found
  split at found
  · next zero => cases zero
  · next same => cases same; exact .document rfl found
  · exact .choice _ rfl found
  · next same _ _ =>
    cases same
    split at found
    · exact absurd found stop_ne_ok
    · next b next start =>
      extract_lets deep at found
      by_cases list : b = ascii '['
      · rw [if_pos list] at found
        subst list
        split at found
        · split_ifs at found with shallow
          · exact absurd found stopAt_ne_ok
          · obtain ⟨⟨items, last⟩, read, same⟩ := bind_eq_ok.mp found
            cases same
            exact .list _ items next rfl start (by simpa [deep] using shallow) read rfl
        · split_ifs at found with shallow
          · exact absurd found stopAt_ne_ok
          · obtain ⟨⟨outcome, after⟩, read, found⟩ := bind_eq_ok.mp found
            cases outcome with
            | error place => exact absurd found complain_ne_ok.2
            | ok members =>
              obtain ⟨last, close, same⟩ := bind_eq_ok.mp found
              cases same
              exact .places _ _ members next after rfl start (by simpa [deep] using shallow) read close rfl
        · split_ifs at found
          · exact absurd found stopAt_ne_ok
          · exact absurd found complain_ne_ok.2
        · exact absurd found stop_ne_ok
      rw [if_neg list] at found
      by_cases table : b = ascii '\x7b'
      · rw [if_pos table] at found
        subst table
        split at found
        · split_ifs at found with shallow
          · exact absurd found stopAt_ne_ok
          · obtain ⟨⟨members, last⟩, read, same⟩ := bind_eq_ok.mp found
            cases same
            exact .table _ members next rfl start (by simpa [deep] using shallow) read rfl
        · split_ifs at found with shallow
          · exact absurd found stopAt_ne_ok
          · obtain ⟨⟨outcome, after⟩, read, found⟩ := bind_eq_ok.mp found
            cases outcome with
            | error place => exact absurd found complain_ne_ok.1
            | ok held =>
              simp only at found
              split at found
              · exact absurd found complain_ne_ok.1
              · next members complete =>
                cases found
                exact .record _ _ held members next after rfl start (by simpa [deep] using shallow) read
                  complete rfl rfl
        · exact absurd found stop_ne_ok
      rw [if_neg table] at found
      obtain ⟨⟨v, after⟩, read, found⟩ := bind_eq_ok.mp found
      simp only at found
      split at found
      · next accepted =>
        cases found
        have noBracket : isBracket b = false := by
          rw [isBracket, Bool.or_eq_false_iff, beq_eq_false_iff_ne, beq_eq_false_iff_ne]
          exact ⟨list, table⟩
        exact .scalar b next v start noBracket read accepted
      · exact absurd found stop_ne_ok

/-- Items of one schema are either none, before the closing bracket, or one followed by others that read. -/
theorem readListOf_ok (found : readListOf (fuel + 1) item depth index input = .ok (items, rest)) :
    (items = [] ∧ skipSpace input = ascii ']' :: rest) ∨
    ∃ value others next after, items = value :: others ∧ nextItem (index == 0) input = .ok (true, next) ∧
      readTyped fuel item depth next = .ok (value, after) ∧
      readListOf fuel item depth (index + 1) after = .ok (others, rest) := by
  rw [readListOf] at found
  obtain ⟨⟨more, next⟩, step, found⟩ := bind_eq_ok.mp found
  have step := within_eq_ok.mp step
  cases more with
  | false => cases found; exact .inl ⟨rfl, (nextItem_ended step).1.trans (nextItem_ended step).2⟩
  | true =>
    obtain ⟨⟨value, after⟩, first, found⟩ := bind_eq_ok.mp found
    obtain ⟨⟨others, last⟩, following, same⟩ := bind_eq_ok.mp found
    cases same
    exact .inr ⟨value, others, next, after, rfl, step, within_eq_ok.mp first, following⟩

/-- Members of one schema are either none, before the closing bracket, or one followed by others that read. -/
theorem readTableOf_ok {first : Bool}
    (found : readTableOf (fuel + 1) item depth first input = .ok (members, rest)) :
    (members = [] ∧ skipSpace input = ascii '\x7d' :: rest) ∨
    ∃ name value others start after, members = (name, value) :: others ∧ MemberAt first input name start ∧
      readTyped fuel item depth start = .ok (value, after) ∧
      readTableOf fuel item depth false after = .ok (others, rest) := by
  rw [readTableOf] at found
  obtain ⟨⟨more, next⟩, step, found⟩ := bind_eq_ok.mp found
  cases more with
  | false => cases found; exact .inl ⟨rfl, (nextMember_ended step).1.trans (nextMember_ended step).2⟩
  | true =>
    obtain ⟨⟨name, colon⟩, key, found⟩ := bind_eq_ok.mp found
    obtain ⟨⟨value, after⟩, member, found⟩ := bind_eq_ok.mp found
    obtain ⟨start, sign, member⟩ := bind_eq_ok.mp (within_eq_ok.mp member)
    obtain ⟨⟨others, last⟩, following, same⟩ := bind_eq_ok.mp found
    cases same
    exact .inr ⟨name, value, others, start, after, rfl, ⟨next, colon, step, key, sign⟩, member, following⟩

/-- Null is found only where it is written. -/
theorem readNull?_eq_some (found : readNull? input = .ok (some (value, rest))) :
    value = .null ∧ ∃ next, skipSpace input = ascii 'n' :: next ∧
      readScalar (ascii 'n') next = .ok (.null, rest) := by
  rw [readNull?] at found
  split at found
  · next b next start =>
    split_ifs at found with letter
    · obtain ⟨after, word, same⟩ := bind_eq_ok.mp found
      cases same
      refine ⟨rfl, next, letter ▸ start, ?_⟩
      rw [readScalar, if_pos rfl, word]
      rfl
    · cases found
  · cases found

theorem readNull?_eq_none (found : readNull? input = .ok none) (next : Input) :
    skipSpace input ≠ ascii 'n' :: next := by
  intro start
  rw [readNull?, start] at found
  obtain ⟨after, -, same⟩ := bind_eq_ok.mp found
  cases same

/-- How the value of a field was read: as null, or by its form. -/
inductive FieldAs (fuel : Nat) (field : Field) (depth : Nat) (input rest : Input) (value : Json) : Prop where
  | null (takesNull : field.takesNull) (read : readNull? input = .ok (some (value, rest)))
  | form (less : Nat) (fuel_eq : fuel = less + 1) (some_ : field.takesNull → readNull? input = .ok none)
    (read : readTyped less field.form depth input = .ok (value, rest))

/-- A field that reads is null, or is read by its form. -/
theorem readField_ok {field : Field} (found : readField fuel field depth input = .ok (value, rest)) :
    FieldAs fuel field depth input rest value := by
  cases fuel with
  | zero => rw [readField] at found; exact absurd found stop_ne_ok
  | succ fuel =>
    rw [readField] at found
    split_ifs at found with takesNull
    · obtain ⟨null, read, found⟩ := bind_eq_ok.mp found
      cases null with
      | none => exact .form fuel rfl (fun _ => read) found
      | some result =>
        cases found
        exact .null takesNull read
    · exact .form fuel rfl (fun takes => absurd takes takesNull) found

/-- How the members of a record were read: there is none left, or the next one is that of a field, gathered or
passed over. -/
inductive FieldsAs (fuel : Nat) (layout : Layout) (fields : Fields) (depth : Nat) (first : Bool)
    (before after : Members) (input rest : Input) : Prop where
  | done (step : nextMember first input = .ok (false, rest)) (same : after = before)
  | known (name : String) (field : Field) (value : Json) (start next : Input)
    (key : MemberAt first input name start) (known : fields.find? name = some field)
    (fresh : layout.refusesRepeats → lookup name before.read = none)
    (read : readField fuel field depth start = .ok (value, next))
    (literal : field.form.checkLiteral value = .ok ())
    (following : readFields fuel layout fields depth false
      { before with read := (name, value) :: before.read } next = .ok (.ok after, rest))
  | gathered (name kind : String) (surplus : Surplus) (value : Json) (start next : Input)
    (key : MemberAt first input name start) (unknown : fields.find? name = none)
    (layout_eq : layout = .gathered kind surplus) (read : readDocument fuel depth start = .ok (value, next))
    (following : readFields fuel layout fields depth false
      { before with gathered := (name, value) :: before.gathered } next = .ok (.ok after, rest))
  | skipped (name : String) (start next : Input) (key : MemberAt first input name start)
    (unknown : fields.find? name = none) (skips : ∀ kind surplus, layout ≠ .gathered kind surplus)
    (read : skipValue fuel [] start = .ok next)
    (following : readFields fuel layout fields depth false before next = .ok (.ok after, rest))

/-- Fields that read end at the closing bracket, or go on with a member that is known, kept as surplus or
passed over. -/
theorem readFields_ok {first : Bool} {before after : Members}
    (found : readFields (fuel + 1) layout fields depth first before input = .ok (.ok after, rest)) :
    FieldsAs fuel layout fields depth first before after input rest := by
  rw [readFields] at found
  obtain ⟨⟨more, next⟩, step, found⟩ := bind_eq_ok.mp found
  cases more with
  | false => cases found; exact .done step rfl
  | true =>
    simp only [Bool.not_true, Bool.false_eq_true, if_false] at found
    obtain ⟨⟨name, colon⟩, key, found⟩ := bind_eq_ok.mp found
    have at_ {start : Input} (sign : readColon colon = .ok start) : MemberAt first input name start :=
      ⟨next, colon, step, key, sign⟩
    simp only at found
    split at found
    · next field known =>
      split_ifs at found with repeated
      · cases found
      · obtain ⟨⟨value, after⟩, read, found⟩ := bind_eq_ok.mp found
        obtain ⟨start, sign, read⟩ := bind_eq_ok.mp (within_eq_ok.mp read)
        simp only at found
        split at found
        · cases found
        · next literal =>
          refine .known name field value start after (at_ sign) known (fun refuses => ?_) read literal found
          exact Option.not_isSome_iff_eq_none.mp fun present => repeated ⟨refuses, present⟩
    · next unknown =>
      cases layout with
      | gathered kind surplus =>
        obtain ⟨⟨value, after⟩, read, found⟩ := bind_eq_ok.mp found
        obtain ⟨start, sign, read⟩ := bind_eq_ok.mp (within_eq_ok.mp read)
        exact .gathered name kind surplus value start after (at_ sign) unknown rfl read found
      | _ =>
        obtain ⟨after, read, found⟩ := bind_eq_ok.mp found
        obtain ⟨start, sign, read⟩ := bind_eq_ok.mp (within_eq_ok.mp read)
        exact .skipped name start after (at_ sign) unknown (by simp) read found

/-- A place in the list form of a record: it is missing and its field may be absent, or holds the value of the
field. After it come the other places. -/
theorem readPlaces_ok {name : String} {absent void : Gap} {form : Schema}
    (found : readPlaces (fuel + 1) (.cons name absent void form fields) depth index input =
      .ok (.ok members, rest)) :
    ∃ here later next, readPlaces fuel fields depth (index + 1) next = .ok (.ok later, rest) ∧
      members = here ++ later ∧
      ((nextItem (index == 0) input = .ok (false, next) ∧ absent.members? name = some here) ∨
        ∃ start value, nextItem (index == 0) input = .ok (true, start) ∧
          readField fuel ⟨name, absent, void, form⟩ depth start = .ok (value, next) ∧
          (if value.isNull then void.members? name else some [(name, value)]) = some here) := by
  rw [readPlaces] at found
  obtain ⟨⟨more, next⟩, step, found⟩ := bind_eq_ok.mp found
  have step := within_eq_ok.mp step
  extract_lets place at found
  have place_ok : ∀ {here? : Option (List (String × Json))} {input : Input},
      place here? input = .ok (.ok members, rest) → ∃ here later, here? = some here ∧
        readPlaces fuel fields depth (index + 1) input = .ok (.ok later, rest) ∧
          members = here ++ later := by
    intro here? input found
    cases here? with
    | none => cases found
    | some here =>
      obtain ⟨⟨outcome, last⟩, read, found⟩ := bind_eq_ok.mp found
      cases outcome with
      | error place => cases found
      | ok later =>
        cases found
        exact ⟨here, later, rfl, read, rfl⟩
  cases more with
  | false =>
    simp only [Bool.false_eq_true, if_false] at found
    obtain ⟨here?, found, absence⟩ : ∃ here?, place here? next = .ok (.ok members, rest) ∧
        (here? = none ∨ here? = absent.members? name) := by
      cases absent with
      | omitPlaced => exact ⟨none, found, .inl rfl⟩
      | _ => exact ⟨_, found, .inr rfl⟩
    obtain ⟨here, later, rfl, read, joined⟩ := place_ok found
    have filled := absence.resolve_left (Option.some_ne_none here)
    exact ⟨here, later, next, read, joined, .inl ⟨step, filled.symm⟩⟩
  | true =>
    simp only [if_true] at found
    obtain ⟨⟨value, after⟩, taken, found⟩ := bind_eq_ok.mp found
    obtain ⟨here, later, filled, read, joined⟩ := place_ok found
    exact ⟨here, later, after, read, joined, .inr ⟨next, value, step, within_eq_ok.mp taken, filled⟩⟩

/-! ## What was read of the parts -/

/-- A value that was read with less fuel. -/
def Reads (fuel : Nat) (schema : Schema) (depth : Nat) (value : Json) : Prop :=
  ∃ less < fuel, ∃ input rest, readTyped less schema depth input = .ok (value, rest)

theorem Reads.mono {more : Nat} (le : fuel ≤ more) (reads : Reads fuel schema depth value) :
    Reads more schema depth value := by
  obtain ⟨less, lt, input, rest, read⟩ := reads
  exact ⟨less, lt_of_lt_of_le lt le, input, rest, read⟩

theorem reads_of_readListOf (fuel : Nat) : ∀ {index : Nat} {input : Input} {items : List Json},
    readListOf fuel item depth index input = .ok (items, rest) →
      ∀ value ∈ items, Reads fuel item depth value := by
  induction fuel with
  | zero =>
    intro index input items found
    rw [readListOf] at found
    exact absurd found stop_ne_ok
  | succ fuel ih =>
    intro index input items found
    rcases readListOf_ok found with ⟨rfl, -⟩ | ⟨value, others, next, after, rfl, -, first, following⟩
    · exact List.forall_mem_nil _
    · exact List.forall_mem_cons.mpr ⟨⟨fuel, Nat.lt_succ_self _, next, after, first⟩,
        fun value present => (ih following value present).mono (Nat.le_succ _)⟩

theorem reads_of_readTableOf (fuel : Nat) :
    ∀ {first : Bool} {input : Input} {members : List (String × Json)},
      readTableOf fuel item depth first input = .ok (members, rest) →
        ∀ m ∈ members, Reads fuel item depth m.2 := by
  induction fuel with
  | zero =>
    intro first input members found
    rw [readTableOf] at found
    exact absurd found stop_ne_ok
  | succ fuel ih =>
    intro first input members found
    rcases readTableOf_ok found with ⟨rfl, -⟩ | ⟨name, value, others, start, after, rfl, -, member, following⟩
    · exact List.forall_mem_nil _
    · exact List.forall_mem_cons.mpr ⟨⟨fuel, Nat.lt_succ_self _, start, after, member⟩,
        fun m present => (ih following m present).mono (Nat.le_succ _)⟩

/-- The value of a field is null, or was read by the form of the field. -/
theorem reads_of_readField {field : Field}
    (found : readField fuel field depth input = .ok (value, rest)) :
    value = .null ∨ Reads fuel field.form depth value := by
  cases readField_ok found with
  | null _ read => exact .inl (readNull?_eq_some read).1
  | form less fuel_eq _ read => exact .inr ⟨less, by omega, input, rest, read⟩

/-- What is held of a record: values of its fields, and other members if it gathers them. -/
structure Holds (fuel : Nat) (fields : Fields) (depth : Nat) (held : Members) : Prop where
  read : ∀ m ∈ held.read, ∃ field, fields.find? m.1 = some field ∧
    (m.2 = .null ∨ Reads fuel field.form depth m.2)
  gathered : ∀ m ∈ held.gathered, fields.find? m.1 = none ∧ WellRead depth m.2

/-- Reading members keeps what is held of a record. -/
theorem holds_of_readFields (limit : Nat) (room : 0 < depth) (fuel : Nat) (le : fuel ≤ limit) :
    ∀ {first : Bool} {before after : Members} {input : Input}, Holds limit fields depth before →
      readFields fuel layout fields depth first before input = .ok (.ok after, rest) →
        Holds limit fields depth after := by
  induction fuel with
  | zero =>
    intro first before after input _ found
    rw [readFields] at found
    exact absurd found stop_ne_ok
  | succ fuel ih =>
    intro first before after input holds found
    have le := Nat.le_of_succ_le le
    cases readFields_ok found with
    | done _ same => exact same ▸ holds
    | known name field value start next _ known _ read _ following =>
      have more : Holds limit fields depth { before with read := (name, value) :: before.read } := by
        refine ⟨List.forall_mem_cons.mpr ⟨⟨field, known, ?_⟩, holds.read⟩, holds.gathered⟩
        exact (reads_of_readField read).imp_right (Reads.mono le)
      exact ih le more following
    | gathered name kind surplus value start next _ unknown _ read following =>
      have more : Holds limit fields depth { before with gathered := (name, value) :: before.gathered } :=
        ⟨holds.read, List.forall_mem_cons.mpr ⟨⟨unknown, wellRead_of_readDocument room read⟩, holds.gathered⟩⟩
      exact ih le more following
    | skipped name start next _ _ _ _ following => exact ih le holds following

/-- A member of a record's normal form whose field was read or fills its own gap. -/
def IsKnown (fuel : Nat) (fields : Fields) (depth : Nat) (m : String × Json) : Prop :=
  (∃ field ∈ fields.toList, field.name = m.1 ∧ Reads fuel field.form depth m.2) ∨ m ∈ fields.fills

/-- A record read from an array has values of its own fields alone. -/
theorem known_of_readPlaces (limit : Nat) : ∀ (fuel : Nat) (fields : Fields) {index : Nat} {input : Input}
    {members : List (String × Json)}, fuel ≤ limit →
      readPlaces fuel fields depth index input = .ok (.ok members, rest) →
        ∀ m ∈ members, IsKnown limit fields depth m
  | 0, fields, index, input, members, le, found => by
    rw [readPlaces] at found
    exact absurd found stop_ne_ok
  | fuel + 1, .nil, index, input, members, le, found => by
    rw [readPlaces] at found
    cases found
    exact List.forall_mem_nil _
  | fuel + 1, .cons name absent void form fields, index, input, members, le, found => by
    obtain ⟨here, later, next, read, rfl, source⟩ := readPlaces_ok found
    refine List.forall_mem_append.mpr ?_
    constructor
    · intro m present
      rcases source with ⟨-, filled⟩ | ⟨start, value, -, taken, filled⟩
      · exact .inr (List.mem_append_left _ (List.mem_append_left _ (by rw [filled]; exact present)))
      · split_ifs at filled with null
        · exact .inr (List.mem_append_left _ (List.mem_append_right _ (by rw [filled]; exact present)))
        · cases filled
          obtain rfl := List.mem_singleton.mp present
          rcases reads_of_readField taken with rfl | reads
          · exact absurd rfl null
          · exact .inl ⟨⟨name, absent, void, form⟩, List.mem_cons_self .., rfl,
              reads.mono (Nat.le_of_succ_le le)⟩
    · intro m present
      rcases known_of_readPlaces limit fuel fields (Nat.le_of_succ_le le) read m present with
        ⟨field, among, named, reads⟩ | filled
      · exact .inl ⟨field, List.mem_cons_of_mem _ among, named, reads⟩
      · exact .inr (List.mem_append_right _ filled)

/-- The normal form of a record: type metadata if it has any, what is known, and surplus. -/
structure RecordOf (fuel : Nat) (fields : Fields) (depth : Nat) (value : Json) : Prop where
  room : 1 < depth
  parts : ∃ types : Option (String × String), ∃ known left : List (String × Json),
    value = .object ((types.map typeMembers).getD [] ++ known ++ left) ∧
    (∀ m ∈ known, IsKnown fuel fields (depth - 1) m) ∧
    Increasing left ∧ ∀ m ∈ left, fields.find? m.1 = none ∧ WellRead (depth - 1) m.2

/-- A value that reads as a record is an object: its type members, members of its fields, and others kept as
they were. -/
theorem recordOf_of_readTyped
    (found : readTyped (fuel + 1) (.record layout fields) depth input = .ok (value, rest)) :
    RecordOf fuel fields depth value := by
  cases readTyped_ok found with
  | document same => cases same
  | choice _ same => cases same
  | scalar _ _ _ _ _ _ accepted => rw [accept_record] at accepted; cases accepted
  | list _ _ _ same => cases same
  | table _ _ _ same => cases same
  | places name fields members next last same _ room read _ value_eq =>
    cases same
    refine ⟨room, none, members, [], ?_, ?_, increasing_nil, List.forall_mem_nil _⟩
    · rw [value_eq, List.append_nil]
      rfl
    · exact known_of_readPlaces fuel fuel fields (Nat.le_refl _) read
  | record layout fields held members next last same _ room read complete value_eq =>
    cases same
    have nothing : Holds fuel fields (depth - 1) {} := ⟨List.forall_mem_nil _, List.forall_mem_nil _⟩
    have holds := holds_of_readFields fuel (by omega) fuel (Nat.le_refl _) nothing read
    rw [Layout.complete] at complete
    obtain ⟨known, assembled, complete⟩ := bind_eq_ok.mp complete
    have knows : ∀ m ∈ known, IsKnown fuel fields (depth - 1) m := by
      intro m present
      rcases Fields.mem_assemble assembled present with ⟨read, some_⟩ | filled
      · obtain ⟨field, described, given⟩ := holds.read _ (mem_of_lookup read)
        obtain ⟨among, named⟩ := Fields.mem_of_find? described
        exact .inl ⟨field, among, named, given.resolve_left some_⟩
      · exact .inr filled
    cases layout with
    | declared name | lenient name =>
      refine ⟨room, none, known, [], ?_, knows, increasing_nil, List.forall_mem_nil _⟩
      rw [value_eq, List.append_nil, ← Except.ok.inj complete]
      rfl
    | gathered name surplus =>
      obtain ⟨types, left, completes, kept⟩ := complete_surplus complete
      obtain rfl := Except.ok.inj (complete.symm.trans (completes known))
      refine ⟨room, types, known, left, value_eq, knows, ?_⟩
      rcases kept with rfl | ⟨-, rfl⟩
      · refine ⟨increasing_ofMembers _, fun m present => ?_⟩
        exact holds.gathered m (List.mem_reverse.mp (mem_takeTypes (mem_of_mem_ofMembers present)))
      · exact ⟨increasing_nil, List.forall_mem_nil _⟩

/-- A member that is a field of its record, and that no gap is filled with, was read by its form. -/
theorem reads_of_get? (field : Field) {name : String} {member : Json}
    (found : readTyped (fuel + 1) (.record layout fields) depth input = .ok (value, rest))
    (present : value.get? name = some member) (described : fields.find? name = some field)
    (distinct : (fields.toList.map Field.name).Nodup) (unfilled : ∀ m ∈ fields.fills, m.1 ≠ name)
    (noType : name ≠ "apiVersion" ∧ name ≠ "kind") :
    1 < depth ∧ Reads fuel field.form (depth - 1) member := by
  obtain ⟨room, types, known, left, rfl, knows, -, surplus⟩ := recordOf_of_readTyped found
  refine ⟨room, ?_⟩
  rcases List.mem_append.mp (mem_of_lookup present) with front | behind
  · rcases List.mem_append.mp front with isType | among
    · rcases typeMembers_name types _ isType with same | same
      · exact absurd same noType.1
      · exact absurd same noType.2
    · rcases knows _ among with ⟨other, held, named, reads⟩ | filled
      · have same := Fields.find?_eq_some_of_mem distinct held
        rw [named, described] at same
        cases same
        exact reads
      · exact absurd rfl (unfilled _ filled)
  · have unknown := (surplus _ behind).1
    rw [described] at unknown
    cases unknown

/-! ## Depth -/

/-- No gap anywhere in the schema is filled with more than a flat value. -/
def Schema.isShallow : Schema → Bool := Schema.every (fun value => value.depth ≤ 1) fun _ => true

theorem depth_of_scalar (scalar : value.isScalar) : value.depth = 0 := by
  cases value with
  | null | bool b | number n | string s => rfl
  | array items => exact (Bool.false_ne_true scalar).elim
  | object members => exact (Bool.false_ne_true scalar).elim

/-- A normal form is no deeper than a reader allows its text to be, except for one flat value that fills
a gap at the bottom. -/
theorem depth_of_readTyped (fuel : Nat) : ∀ {schema : Schema} {depth : Nat} {input : Input} {value : Json},
    schema.isShallow → 0 < depth → readTyped fuel schema depth input = .ok (value, rest) →
      value.depth ≤ depth := by
  -- strong induction, as a list or a record spends fuel on its members before their forms are read
  induction fuel using Nat.strong_induction_on generalizing rest with
  | h fuel ih =>
    intro schema depth input value flat room found
    have inner : ∀ {more : Nat} {schema : Schema} {value : Json}, more < fuel → schema.isShallow →
        1 < depth → Reads more schema (depth - 1) value → value.depth ≤ depth - 1 := by
      rintro more schema value le flat deep ⟨less, lt, input, rest, read⟩
      exact ih less (lt.trans le) flat (by omega) read
    cases fuel with
    | zero => rw [readTyped] at found; exact absurd found stop_ne_ok
    | succ fuel =>
      cases readTyped_ok found with
      | document _ read => exact Nat.le_of_lt (wellRead_of_readDocument room read).2
      | choice names _ read => rw [depth_of_scalar (scalar_of_readChoice read)]; exact Nat.zero_le _
      | scalar b next v _ _ read accepted =>
        rw [depth_of_scalar (scalar_of_accept (scalar_of_readScalar read) accepted)]
        exact Nat.zero_le _
      | list item items next same _ deep read value_eq =>
        cases same
        have flat : item.isShallow := flat
        obtain ⟨depth, rfl⟩ : ∃ d, depth = d + 1 := ⟨depth - 1, by omega⟩
        rw [value_eq, depth_array_le_succ]
        intro item present
        exact inner (Nat.lt_succ_self _) flat deep (reads_of_readListOf fuel read item present)
      | table item members next same _ deep read value_eq =>
        cases same
        have flat : item.isShallow := flat
        obtain ⟨depth, rfl⟩ : ∃ d, depth = d + 1 := ⟨depth - 1, by omega⟩
        rw [value_eq, depth_object_le_succ]
        intro m present
        exact inner (Nat.lt_succ_self _) flat deep
          (reads_of_readTableOf fuel read m (mem_of_mem_ofMembers present))
      | record layout fields _ _ _ _ same | places name fields _ _ _ same =>
        cases same
        obtain ⟨deep, types, known, left, rfl, knows, -, surplus⟩ := recordOf_of_readTyped found
        obtain ⟨depth, rfl⟩ : ∃ d, depth = d + 1 := ⟨depth - 1, by omega⟩
        rw [depth_object_le_succ]
        have textual : ∀ m ∈ (types.map typeMembers).getD [], m.2.depth ≤ depth := by
          cases types with
          | none => exact List.forall_mem_nil _
          | some types =>
            exact List.forall_mem_cons.mpr ⟨Nat.zero_le _, List.forall_mem_singleton.mpr (Nat.zero_le _)⟩
        refine List.forall_mem_append.mpr ⟨List.forall_mem_append.mpr ⟨textual, ?_⟩, fun m present =>
          Nat.le_of_lt (surplus m present).2.2⟩
        intro m present
        rcases knows m present with ⟨field, among, -, reads⟩ | filled
        · exact inner (Nat.lt_succ_self _) (Fields.every_form flat field among) deep reads
        · have low := of_decide_eq_true (Fields.every_fills flat m filled)
          exact low.trans (by omega)

end Tenancy.Json
