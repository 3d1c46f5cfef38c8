import Tenancy.Proofs.Json.Extent
import Tenancy.Proofs.Json.Typing

/-! # Readers that end together

Every reader of a value stops where passing over it stops: the reader of documents, and the typed reader with
whatever schema. So the place at which a member of an object has its value does not depend on what is made of
the members before it.
-/

namespace Tenancy.Json

variable {input rest next after start : Input} {fuel depth index : Nat} {opened : List Bracket} {frame : Bracket}
  {started first : Bool} {value : Json} {items : List Json} {members : List (String × Json)} {name : String}
  {schema item : Schema} {fields : Fields} {layout : Layout}

/-! ## Open containers -/

/-- What is left of an open container, of which some value has been read or none yet, ends where the rest
begins. -/
def Closes (frame : Bracket) (started : Bool) (input rest : Input) : Prop :=
  ∃ steps, ∀ fuel opened,
    skipNext (fuel + steps) started (frame :: opened) input = skipNext fuel true opened rest

/-- Where the reader finds another item, the skipper goes on to that item. -/
theorem skipNext_nextItem (more : nextItem first input = .ok (true, next)) :
    skipNext (fuel + 1) (!first) (.list :: opened) input = skipValue fuel (.list :: opened) next := by
  rw [nextItem] at more
  split at more
  · exact absurd more stop_ne_ok
  · next b tail found =>
    split_ifs at more with close isFirst comma
    · cases more
    · cases more
      subst isFirst
      exact skipNext_first found close rfl
    · subst comma
      split at more
      · exact absurd more stop_ne_ok
      · next c left behind =>
        split_ifs at more
        · exact absurd more stopAt_ne_ok
        · cases more
          rw [Bool.eq_false_iff.mpr isFirst, Bool.not_false, skipNext_comma found rfl,
            ← skipValue_skipSpace, behind]
    · exact absurd more stopAt_ne_ok

theorem skipName_of_quote {text colon : Input} (quote : skipSpace input = ascii '"' :: text)
    (key : readText text = .ok (name, colon)) (sign : readColon colon = .ok start) :
    skipName input = .ok start := by
  simp only [skipName, quote, if_true, skipText_of_readText key]
  exact sign

/-- Where the reader finds another member, the skipper goes on to its value. -/
theorem skipNext_memberAt (key : MemberAt first input name start) :
    skipNext (fuel + 1) (!first) (.table :: opened) input = skipValue fuel (.table :: opened) start := by
  obtain ⟨text, colon, more, key, sign⟩ := key
  rw [nextMember] at more
  split at more
  · exact absurd more stop_ne_ok
  · next b tail found =>
    split_ifs at more with close isFirst quote comma
    · cases more
    · cases more
      subst isFirst quote
      have solid : skipSpace (ascii '"' :: text) = ascii '"' :: text := skipSpace_cons _ (by decide)
      exact skipNext_first found close (skipName_of_quote solid key sign)
    · exact absurd more stopAt_ne_ok
    · subst comma
      split at more
      · exact absurd more stop_ne_ok
      · next c left behind =>
        split_ifs at more with quote
        · cases more
          subst quote
          rw [Bool.eq_false_iff.mpr isFirst, Bool.not_false]
          exact skipNext_comma found (skipName_of_quote behind key sign)
        · exact absurd more stopAt_ne_ok
        · exact absurd more stopAt_ne_ok
    · exact absurd more stopAt_ne_ok

namespace Closes

theorem close (found : skipSpace input = frame.close :: rest) : Closes frame started input rest :=
  ⟨1, fun _ _ => skipNext_close found⟩

/-- One more item in front of a list that closes makes a list that closes. -/
theorem next_item (more : nextItem first input = .ok (true, next)) (value : Extent next after)
    (others : Closes .list true after rest) : Closes .list (!first) input rest := by
  obtain ⟨early, passes⟩ := value
  obtain ⟨late, ends⟩ := others
  refine ⟨late + early + 1, fun fuel opened => ?_⟩
  rw [← Nat.add_assoc, skipNext_nextItem more, ← Nat.add_assoc, passes, ends]

/-- One more member in front of a table that closes makes a table that closes. -/
theorem next_member (key : MemberAt first input name start) (value : Extent start after)
    (others : Closes .table true after rest) : Closes .table (!first) input rest := by
  obtain ⟨early, passes⟩ := value
  obtain ⟨late, ends⟩ := others
  refine ⟨late + early + 1, fun fuel opened => ?_⟩
  rw [← Nat.add_assoc, skipNext_memberAt key, ← Nat.add_assoc, passes, ends]

/-- Where the closing bracket comes next, the rest is what stands behind it. -/
theorem rest_eq (found : skipSpace input = frame.close :: next) (closes : Closes frame started input rest) :
    next = rest := by
  obtain ⟨steps, ends⟩ := closes
  have same := ends 2 []
  rw [show 2 + steps = steps + 1 + 1 by omega, skipNext_close found, skipNext, skipNext] at same
  exact Except.ok.inj same

end Closes

/-- A list ends with its closing bracket. -/
theorem Extent.list (found : skipSpace input = ascii '[' :: next) (closes : Closes .list false next rest) :
    Extent input rest := by
  obtain ⟨steps, ends⟩ := closes
  exact ⟨steps + 1, fun fuel opened => (skipValue_open found).trans (ends fuel opened)⟩

/-- An object ends with its closing brace. -/
theorem Extent.table (found : skipSpace input = ascii '\x7b' :: next) (closes : Closes .table false next rest) :
    Extent input rest := by
  obtain ⟨steps, ends⟩ := closes
  exact ⟨steps + 1, fun fuel opened => (skipValue_openTable found).trans (ends fuel opened)⟩

/-! ## Documents -/

/-- Where the three readers of documents stop; the induction is on the fuel that they share. -/
private theorem documents_follow (fuel : Nat) :
    (∀ depth input value rest, readDocument fuel depth input = .ok (value, rest) → Extent input rest) ∧
    (∀ depth index input items rest, readItems fuel depth index input = .ok (items, rest) →
      Closes .list (!(index == 0)) input rest) ∧
    (∀ depth first input members rest, readMembers fuel depth first input = .ok (members, rest) →
      Closes .table (!first) input rest) := by
  induction fuel with
  | zero =>
    refine ⟨?_, ?_, ?_⟩
    · intro depth input value rest found
      rw [readDocument] at found
      exact absurd found stop_ne_ok
    · intro depth index input items rest found
      rw [readItems] at found
      exact absurd found stop_ne_ok
    · intro depth first input members rest found
      rw [readMembers] at found
      exact absurd found stop_ne_ok
  | succ fuel ih =>
    obtain ⟨document, list, table⟩ := ih
    refine ⟨?_, ?_, ?_⟩
    · intro depth input value rest found
      cases readDocument_ok found with
      | scalar b next start noBracket read => exact extent_of_readScalar start noBracket read
      | list items next start _ read => exact .list start (list _ _ _ _ _ read)
      | table members next start _ read => exact .table start (table _ _ _ _ _ read)
    · intro depth index input items rest found
      rcases readItems_ok found with ⟨-, close⟩ | ⟨item, others, next, after, -, more, first, following⟩
      · exact .close close
      · exact .next_item more (document _ _ _ _ first) (list _ _ _ _ _ following)
    · intro depth first input members rest found
      rcases readMembers_ok found with ⟨-, close⟩ |
        ⟨name, value, others, start, after, -, key, member, following⟩
      · exact .close close
      · exact .next_member key (document _ _ _ _ member) (table _ _ _ _ _ following)

/-- A document that was read ends where the reader stopped. -/
theorem extent_of_readDocument (found : readDocument fuel depth input = .ok (value, rest)) :
    Extent input rest :=
  (documents_follow fuel).1 depth input value rest found

/-! ## Typed values -/

theorem extent_of_readNull? (found : readNull? input = .ok (some (value, rest))) : Extent input rest := by
  obtain ⟨-, next, start, read⟩ := readNull?_eq_some found
  exact extent_of_readScalar start (by decide) read

theorem extent_of_readChoice {names : List String} (found : readChoice names depth input = .ok (value, rest)) :
    Extent input rest := by
  cases readChoice_ok found with
  | text s next start read =>
    have scalar : readScalar (ascii '"') next = .ok (.string s, rest) := by
      simp only [readScalar, show ascii '"' ≠ ascii 'n' by decide, show ascii '"' ≠ ascii 't' by decide,
        show ascii '"' ≠ ascii 'f' by decide, if_false, if_true, read]
      rfl
    exact extent_of_readScalar start (by decide) scalar
  | keyed s v next start after opens _ key null closes =>
    exact .table opens (.next_member key (extent_of_readNull? null) (.close closes))

theorem skipSpace_of_closeList (found : closeList input = .ok rest) : skipSpace input = ascii ']' :: rest := by
  rw [closeList] at found
  split at found
  · exact absurd found stop_ne_ok
  · next b tail start =>
    split_ifs at found with close
    · cases found
      rw [start, close]
    · extract_lets after at found
      split_ifs at found <;> exact absurd found stopAt_ne_ok
    · exact absurd found stopAt_ne_ok

/-- With so much fuel, each typed reader stops where what it reads ends. -/
structure StopsAtEnd (fuel : Nat) : Prop where
  typed : ∀ {schema : Schema} {depth : Nat} {input rest : Input} {value : Json},
    readTyped fuel schema depth input = .ok (value, rest) → Extent input rest
  list : ∀ {item : Schema} {depth index : Nat} {input rest : Input} {items : List Json},
    readListOf fuel item depth index input = .ok (items, rest) → Closes .list (!(index == 0)) input rest
  table : ∀ {item : Schema} {depth : Nat} {first : Bool} {input rest : Input} {members : List (String × Json)},
    readTableOf fuel item depth first input = .ok (members, rest) → Closes .table (!first) input rest
  field : ∀ {field : Field} {depth : Nat} {input rest : Input} {value : Json},
    readField fuel field depth input = .ok (value, rest) → Extent input rest
  record : ∀ {layout : Layout} {fields : Fields} {depth : Nat} {first : Bool} {before held : Members}
      {input rest : Input},
    readFields fuel layout fields depth first before input = .ok (.ok held, rest) →
      Closes .table (!first) input rest.tail
  places : ∀ {fields : Fields} {depth index : Nat} {input last rest : Input} {members : List (String × Json)},
    readPlaces fuel fields depth index input = .ok (.ok members, last) → closeList last = .ok rest →
      Closes .list (!(index == 0)) input rest

namespace StopsAtEnd

variable {field : Field} {before held : Members} {last : Input}

theorem zero : StopsAtEnd 0 where
  typed found := by rw [readTyped] at found; exact absurd found stop_ne_ok
  list found := by rw [readListOf] at found; exact absurd found stop_ne_ok
  table found := by rw [readTableOf] at found; exact absurd found stop_ne_ok
  field found := by rw [readField] at found; exact absurd found stop_ne_ok
  record found := by rw [readFields] at found; exact absurd found stop_ne_ok
  places found := by rw [readPlaces] at found; exact absurd found stop_ne_ok

theorem typed_succ (stops : StopsAtEnd fuel)
    (found : readTyped (fuel + 1) schema depth input = .ok (value, rest)) : Extent input rest := by
  cases readTyped_ok found with
  | document _ read => exact extent_of_readDocument read
  | choice names _ read => exact extent_of_readChoice read
  | scalar b next v start noBracket read => exact extent_of_readScalar start noBracket read
  | list item items next _ start _ read => exact .list start (stops.list read)
  | table item members next _ start _ read => exact .table start (stops.table read)
  | record layout fields held members next last _ start _ read _ _ rest_eq =>
    exact .table start (rest_eq ▸ stops.record read)
  | places name fields members next last _ start _ read close => exact .list start (stops.places read close)

theorem list_succ (stops : StopsAtEnd fuel)
    (found : readListOf (fuel + 1) item depth index input = .ok (items, rest)) :
    Closes .list (!(index == 0)) input rest := by
  rcases readListOf_ok found with ⟨-, close⟩ | ⟨value, others, next, after, -, more, first, following⟩
  · exact .close close
  · exact .next_item more (stops.typed first) (stops.list following)

theorem table_succ (stops : StopsAtEnd fuel)
    (found : readTableOf (fuel + 1) item depth first input = .ok (members, rest)) :
    Closes .table (!first) input rest := by
  rcases readTableOf_ok found with ⟨-, close⟩ | ⟨name, value, others, start, after, -, key, member, following⟩
  · exact .close close
  · exact .next_member key (stops.typed member) (stops.table following)

theorem field_succ (stops : StopsAtEnd fuel)
    (found : readField (fuel + 1) field depth input = .ok (value, rest)) : Extent input rest := by
  cases readField_ok found with
  | null _ read => exact extent_of_readNull? read
  | form less fuel_eq _ read =>
    obtain rfl := Nat.succ.inj fuel_eq
    exact stops.typed read

theorem record_succ (stops : StopsAtEnd fuel)
    (found : readFields (fuel + 1) layout fields depth first before input = .ok (.ok held, rest)) :
    Closes .table (!first) input rest.tail := by
  cases readFields_ok found with
  | done step =>
    obtain ⟨skipped, close⟩ := nextMember_ended step
    exact .close (skipped.trans close)
  | known name member value start next key _ _ read _ following =>
    exact .next_member key (stops.field read) (stops.record following)
  | gathered name kind surplus value start next key _ _ read following =>
    exact .next_member key (extent_of_readDocument read) (stops.record following)
  | skipped name start next key _ _ read following =>
    exact .next_member key (extent_of_skipValue read) (stops.record following)

theorem places_succ (stops : StopsAtEnd fuel)
    (found : readPlaces (fuel + 1) fields depth index input = .ok (.ok members, last))
    (close : closeList last = .ok rest) : Closes .list (!(index == 0)) input rest := by
  cases fields with
  | nil =>
    rw [readPlaces] at found
    cases found
    exact .close (skipSpace_of_closeList close)
  | cons name absent void form fields =>
    obtain ⟨here, later, next, following, -, ⟨step, -⟩ | ⟨start, value, more, read, -⟩⟩ := readPlaces_ok found
    · -- the closing bracket is where the missing place would be
      obtain ⟨skipped, bracket⟩ := nextItem_ended step
      have here : skipSpace next = ascii ']' :: next.tail := by
        rw [bracket, skipSpace_cons _ (by decide), List.tail_cons]
      have ends := Closes.rest_eq here (stops.places following close)
      exact .close (ends ▸ skipped.trans bracket)
    · exact .next_item more (stops.field read) (stops.places following close)

end StopsAtEnd

/-- Typed readers stop where what they read ends; the induction is on the fuel, of which each takes some. -/
theorem stopsAtEnd (fuel : Nat) : StopsAtEnd fuel := by
  induction fuel with
  | zero => exact .zero
  | succ fuel ih =>
    exact ⟨ih.typed_succ, ih.list_succ, ih.table_succ, ih.field_succ, ih.record_succ, ih.places_succ⟩

/-- A typed value that was read ends where the reader stopped. -/
theorem extent_of_readTyped (found : readTyped fuel schema depth input = .ok (value, rest)) :
    Extent input rest :=
  (stopsAtEnd fuel).typed found

/-- A field ends where its value does, also when null is read in its place. -/
theorem extent_of_readField {field : Field} (found : readField fuel field depth input = .ok (value, rest)) :
    Extent input rest :=
  (stopsAtEnd fuel).field found

end Tenancy.Json
