import Tenancy.Json.Reader
import Tenancy.Proofs.Json.Scalar
import Tenancy.Proofs.Sequence

/-! # What a reader gives

Every document that was read has its members in order and no more containers open at once than the
reader allows. Each reader is taken apart once, by a lemma that tells the ways in which it succeeds;
`WellRead` then follows them through the recursion.
-/

namespace Tenancy.Json

/-! ## Steps that succeed -/

theorem within_eq_ok {α : Type} {step : Step} {r : Attempt α} {v : α} :
    within step r = .ok v ↔ r = .ok v := by
  cases r with
  | error e => exact ⟨fun found => (nomatch found), fun found => (nomatch found)⟩
  | ok a => exact Iff.rfl

theorem stop_ne_ok {α : Type} {cause : Cause} {rest : Input} {v : α} : stop cause rest ≠ .ok v :=
  fun found => nomatch found

theorem stopAt_ne_ok {α : Type} {flaw : Flaw} {rest : Input} {v : α} : stopAt flaw rest ≠ .ok v :=
  fun found => nomatch found

variable {fuel depth index : Nat} {input rest : Input} {value : Json} {items : List Json}
  {members : List (String × Json)}

/-! ## What is left of an attempt -/

@[simp] theorem toOption_ok {ε α : Type} (a : α) : (Except.ok a : Except ε α).toOption = some a := rfl

@[simp] theorem toOption_error {ε α : Type} (e : ε) : (Except.error e : Except ε α).toOption = none := rfl

@[simp] theorem toOption_bind {ε α β : Type} (x : Except ε α) (f : α → Except ε β) :
    (x >>= f).toOption = x.toOption.bind fun a => (f a).toOption := by
  cases x <;> rfl

@[simp] theorem toOption_pure {ε α : Type} (a : α) : (pure a : Except ε α).toOption = some a := rfl

@[simp] theorem toOption_within {α : Type} (step : Step) (r : Attempt α) :
    (within step r).toOption = r.toOption := by
  cases r <;> rfl

@[simp] theorem toOption_stop {α : Type} (cause : Cause) :
    (stop cause input : Attempt α).toOption = none :=
  rfl

@[simp] theorem toOption_stopAt {α : Type} (flaw : Flaw) :
    (stopAt flaw input : Attempt α).toOption = none :=
  rfl

theorem toOption_eq_some {ε α : Type} {x : Except ε α} {a : α} : x.toOption = some a ↔ x = .ok a := by
  cases x with
  | error e => exact ⟨fun found => (nomatch found), fun found => (nomatch found)⟩
  | ok b => simp

theorem toOption_eq_none {ε α : Type} {x : Except ε α} (never : ∀ a, x ≠ .ok a) : x.toOption = none := by
  cases x with
  | error e => rfl
  | ok a => exact absurd rfl (never a)

/-! ## Readers that succeed -/

theorem scalar_of_readScalar {b : UInt8} (found : readScalar b input = .ok (value, rest)) :
    value.isScalar := by
  rw [readScalar] at found
  split_ifs at found
  all_goals first
    | exact absurd found stopAt_ne_ok
    | obtain ⟨r, -, same⟩ := bind_eq_ok.mp found
      cases same
      rfl

/-- A list ends only at its closing bracket. -/
theorem nextItem_ended {first : Bool} (found : nextItem first input = .ok (false, rest)) :
    skipSpace input = rest ∧ rest = ascii ']' :: rest.tail := by
  rw [nextItem] at found
  split at found
  · exact absurd found stop_ne_ok
  · next b tail start =>
    split_ifs at found with close
    · cases found
      exact ⟨start, by rw [close, List.tail_cons]⟩
    · cases found
    · split at found
      · exact absurd found stop_ne_ok
      · split_ifs at found
        · exact absurd found stopAt_ne_ok
        · cases found
    · exact absurd found stopAt_ne_ok

/-- A table ends only at its closing bracket. -/
theorem nextMember_ended {first : Bool} (found : nextMember first input = .ok (false, rest)) :
    skipSpace input = rest ∧ rest = ascii '\x7d' :: rest.tail := by
  rw [nextMember] at found
  split at found
  · exact absurd found stop_ne_ok
  · next b tail start =>
    split_ifs at found with close
    · cases found
      exact ⟨start, by rw [close, List.tail_cons]⟩
    · cases found
    · exact absurd found stopAt_ne_ok
    · split at found
      · exact absurd found stop_ne_ok
      · split_ifs at found
        · cases found
        · exact absurd found stopAt_ne_ok
        · exact absurd found stopAt_ne_ok
    · exact absurd found stopAt_ne_ok

theorem nextItem_close (first : Bool) (close : skipSpace input = ascii ']' :: rest) :
    nextItem first input = .ok (false, ascii ']' :: rest) := by
  simp only [nextItem, close, if_true]

theorem nextMember_close (first : Bool) (close : skipSpace input = ascii '\x7d' :: rest) :
    nextMember first input = .ok (false, ascii '\x7d' :: rest) := by
  simp only [nextMember, close, if_true]

/-- The next member of an object has the name, and its value starts there. -/
def MemberAt (first : Bool) (input : Input) (name : String) (start : Input) : Prop :=
  ∃ text colon, nextMember first input = .ok (true, text) ∧ readText text = .ok (name, colon) ∧
    readColon colon = .ok start

/-- An object has one next member. -/
theorem MemberAt.unique {first : Bool} {name other : String} {start later : Input}
    (one : MemberAt first input name start) (two : MemberAt first input other later) :
    name = other ∧ start = later := by
  obtain ⟨text, colon, more, key, sign⟩ := one
  obtain ⟨_, _, again, sameKey, sameSign⟩ := two
  cases more.symm.trans again
  cases key.symm.trans sameKey
  exact ⟨rfl, Except.ok.inj (sign.symm.trans sameSign)⟩

/-- An object that ends has no next member. -/
theorem MemberAt.not_close {first : Bool} {name : String} {start : Input} (key : MemberAt first input name start) :
    skipSpace input ≠ ascii '\x7d' :: rest := by
  obtain ⟨text, colon, more, -⟩ := key
  intro close
  cases more.symm.trans (nextMember_close first close)

/-- How a value was read: it is a scalar, or a container within the depth allowed. -/
inductive DocumentAs (fuel depth : Nat) (input rest : Input) (value : Json) : Prop where
  | scalar (b : UInt8) (next : Input) (start : skipSpace input = b :: next) (noBracket : isBracket b = false)
    (read : readScalar b next = .ok (value, rest))
  | list (items : List Json) (next : Input) (start : skipSpace input = ascii '[' :: next) (room : 1 < depth)
    (read : readItems fuel (depth - 1) 0 next = .ok (items, rest)) (value_eq : value = .array items)
  | table (members : List (String × Json)) (next : Input) (start : skipSpace input = ascii '\x7b' :: next)
    (room : 1 < depth) (read : readMembers fuel (depth - 1) true next = .ok (members, rest))
    (value_eq : value = .object (ofMembers members))

/-- A document that reads is a scalar, a list or a table, read by the matching reader. -/
theorem readDocument_ok (found : readDocument (fuel + 1) depth input = .ok (value, rest)) :
    DocumentAs fuel depth input rest value := by
  rw [readDocument] at found
  cases start : skipSpace input with
  | nil => rw [start] at found; exact absurd found stop_ne_ok
  | cons b next =>
    simp only [start] at found
    split_ifs at found with list shallow table shallow
    · exact absurd found stopAt_ne_ok
    · obtain ⟨⟨items, last⟩, read, same⟩ := bind_eq_ok.mp found
      cases same
      subst list
      exact .list items next start (by omega) read rfl
    · exact absurd found stopAt_ne_ok
    · obtain ⟨⟨members, last⟩, read, same⟩ := bind_eq_ok.mp found
      cases same
      subst table
      exact .table members next start (by omega) read rfl
    · have noBracket : isBracket b = false := by
        rw [isBracket, Bool.or_eq_false_iff, beq_eq_false_iff_ne, beq_eq_false_iff_ne]
        exact ⟨list, table⟩
      exact .scalar b next start noBracket found

/-- Where no bracket opens, the document is a scalar. -/
theorem readScalar_of_readDocument {b : UInt8} {next : Input} (start : skipSpace input = b :: next)
    (noBracket : isBracket b = false) (found : readDocument fuel depth input = .ok (value, rest)) :
    readScalar b next = .ok (value, rest) := by
  cases fuel with
  | zero => rw [readDocument] at found; exact absurd found stop_ne_ok
  | succ fuel =>
    cases readDocument_ok found with
    | scalar c other again _ read => cases start.symm.trans again; exact read
    | list _ _ again => cases start.symm.trans again; exact absurd noBracket (by decide)
    | table _ _ again => cases start.symm.trans again; exact absurd noBracket (by decide)

/-- Where a square bracket opens, the document is a list. -/
theorem readItems_of_readDocument {next : Input} (start : skipSpace input = ascii '[' :: next)
    (found : readDocument fuel depth input = .ok (value, rest)) :
    ∃ less items, readItems less (depth - 1) 0 next = .ok (items, rest) ∧ value = .array items := by
  cases fuel with
  | zero => rw [readDocument] at found; exact absurd found stop_ne_ok
  | succ fuel =>
    cases readDocument_ok found with
    | scalar b _ again noBracket => cases start.symm.trans again; exact absurd noBracket (by decide)
    | list items next again _ read value_eq => cases start.symm.trans again; exact ⟨fuel, items, read, value_eq⟩
    | table _ _ again =>
      have other : ascii '[' ≠ ascii '\x7b' := by decide
      exact absurd (List.cons.inj (start.symm.trans again)).1 other

/-- Where a brace opens, the document is a table. -/
theorem readMembers_of_readDocument {next : Input} (start : skipSpace input = ascii '\x7b' :: next)
    (found : readDocument fuel depth input = .ok (value, rest)) :
    ∃ less members, readMembers less (depth - 1) true next = .ok (members, rest) ∧
      value = .object (ofMembers members) := by
  cases fuel with
  | zero => rw [readDocument] at found; exact absurd found stop_ne_ok
  | succ fuel =>
    cases readDocument_ok found with
    | scalar b _ again noBracket => cases start.symm.trans again; exact absurd noBracket (by decide)
    | list _ _ again =>
      have other : ascii '\x7b' ≠ ascii '[' := by decide
      exact absurd (List.cons.inj (start.symm.trans again)).1 other
    | table members next again _ read value_eq =>
      cases start.symm.trans again
      exact ⟨fuel, members, read, value_eq⟩

/-- Only an object is read from an opening brace. -/
theorem start_of_readDocument_object {members : List (String × Json)}
    (found : readDocument fuel depth input = .ok (.object members, rest)) :
    ∃ next, skipSpace input = ascii '\x7b' :: next := by
  cases fuel with
  | zero => rw [readDocument] at found; exact absurd found stop_ne_ok
  | succ fuel =>
    cases readDocument_ok found with
    | scalar _ _ _ _ read => exact absurd (scalar_of_readScalar read) Bool.false_ne_true
    | list _ _ _ _ _ value_eq => cases value_eq
    | table _ next start => exact ⟨next, start⟩

/-- Only a null is read from its first letter. -/
theorem start_of_readDocument_null (found : readDocument fuel depth input = .ok (.null, rest)) :
    ∃ next, skipSpace input = ascii 'n' :: next := by
  cases fuel with
  | zero => rw [readDocument] at found; exact absurd found stop_ne_ok
  | succ fuel =>
    cases readDocument_ok found with
    | scalar b next start _ read =>
      rw [readScalar] at read
      split_ifs at read with letter
      · exact ⟨next, letter ▸ start⟩
      all_goals first
        | exact absurd read stopAt_ne_ok
        | obtain ⟨r, -, same⟩ := bind_eq_ok.mp read
          cases same
    | list _ _ _ _ _ value_eq => cases value_eq
    | table _ _ _ _ _ value_eq => cases value_eq

/-- Items that read are either none, before the closing bracket, or one followed by others that read. -/
theorem readItems_ok (found : readItems (fuel + 1) depth index input = .ok (items, rest)) :
    (items = [] ∧ skipSpace input = ascii ']' :: rest) ∨
    ∃ item others next after, items = item :: others ∧ nextItem (index == 0) input = .ok (true, next) ∧
      readDocument fuel depth next = .ok (item, after) ∧
      readItems fuel depth (index + 1) after = .ok (others, rest) := by
  rw [readItems] at found
  obtain ⟨⟨more, next⟩, step, found⟩ := bind_eq_ok.mp found
  have step := within_eq_ok.mp step
  cases more with
  | false => cases found; exact .inl ⟨rfl, (nextItem_ended step).1.trans (nextItem_ended step).2⟩
  | true =>
    obtain ⟨⟨item, after⟩, first, found⟩ := bind_eq_ok.mp found
    obtain ⟨⟨others, last⟩, following, same⟩ := bind_eq_ok.mp found
    cases same
    exact .inr ⟨item, others, next, after, rfl, step, within_eq_ok.mp first, following⟩

/-- Members that read are either none, before the closing bracket, or one followed by others that read. -/
theorem readMembers_ok {first : Bool}
    (found : readMembers (fuel + 1) depth first input = .ok (members, rest)) :
    (members = [] ∧ skipSpace input = ascii '\x7d' :: rest) ∨
    ∃ name value others start after, members = (name, value) :: others ∧
      MemberAt first input name start ∧ readDocument fuel depth start = .ok (value, after) ∧
      readMembers fuel depth false after = .ok (others, rest) := by
  rw [readMembers] at found
  obtain ⟨⟨more, next⟩, step, found⟩ := bind_eq_ok.mp found
  cases more with
  | false => cases found; exact .inl ⟨rfl, (nextMember_ended step).1.trans (nextMember_ended step).2⟩
  | true =>
    obtain ⟨⟨name, colon⟩, key, found⟩ := bind_eq_ok.mp found
    obtain ⟨⟨value, after⟩, member, found⟩ := bind_eq_ok.mp found
    obtain ⟨start, sign, member⟩ := bind_eq_ok.mp (within_eq_ok.mp member)
    obtain ⟨⟨others, last⟩, following, same⟩ := bind_eq_ok.mp found
    cases same
    exact .inr ⟨name, value, others, start, after, rfl, ⟨next, colon, step, key, sign⟩, member, following⟩

/-! ## More room -/

/-- What is read with some fuel and within some depth is read with more fuel and within every greater depth;
the induction is on the fuel that the three readers share. -/
private theorem readers_mono (fuel : Nat) :
    (∀ enough depth more input found, fuel ≤ enough → depth ≤ more →
      readDocument fuel depth input = .ok found → readDocument enough more input = .ok found) ∧
    (∀ enough depth more index input found, fuel ≤ enough → depth ≤ more →
      readItems fuel depth index input = .ok found → readItems enough more index input = .ok found) ∧
    (∀ enough depth more first input found, fuel ≤ enough → depth ≤ more →
      readMembers fuel depth first input = .ok found → readMembers enough more first input = .ok found) := by
  induction fuel with
  | zero =>
    refine ⟨?_, ?_, ?_⟩
    · intro enough depth more input found _ _ read
      rw [readDocument] at read
      exact absurd read stop_ne_ok
    · intro enough depth more index input found _ _ read
      rw [readItems] at read
      exact absurd read stop_ne_ok
    · intro enough depth more first input found _ _ read
      rw [readMembers] at read
      exact absurd read stop_ne_ok
  | succ fuel ih =>
    obtain ⟨document, list, table⟩ := ih
    refine ⟨?_, ?_, ?_⟩
    · intro enough depth more input found fuelled le read
      obtain ⟨enough, rfl⟩ := Nat.exists_eq_succ_of_ne_zero (by omega : enough ≠ 0)
      have fuelled := Nat.le_of_succ_le_succ fuelled
      rw [readDocument] at read ⊢
      cases start : skipSpace input with
      | nil => rw [start] at read; exact absurd read stop_ne_ok
      | cons b next =>
        simp only [start] at read ⊢
        by_cases bracket : b = ascii '['
        · rw [if_pos bracket] at read ⊢
          split_ifs at read with shallow
          · exact absurd read stopAt_ne_ok
          · obtain ⟨items, inner, read⟩ := bind_eq_ok.mp read
            rw [if_neg (by omega), list _ _ _ _ _ _ fuelled (by omega) inner]
            exact read
        rw [if_neg bracket] at read ⊢
        by_cases brace : b = ascii '\x7b'
        · rw [if_pos brace] at read ⊢
          split_ifs at read with shallow
          · exact absurd read stopAt_ne_ok
          · obtain ⟨members, inner, read⟩ := bind_eq_ok.mp read
            rw [if_neg (by omega), table _ _ _ _ _ _ fuelled (by omega) inner]
            exact read
        rw [if_neg brace] at read ⊢
        exact read
    · intro enough depth more index input found fuelled le read
      obtain ⟨enough, rfl⟩ := Nat.exists_eq_succ_of_ne_zero (by omega : enough ≠ 0)
      have fuelled := Nat.le_of_succ_le_succ fuelled
      rw [readItems] at read ⊢
      obtain ⟨⟨isMore, next⟩, step, read⟩ := bind_eq_ok.mp read
      refine bind_eq_ok.mpr ⟨_, step, ?_⟩
      cases isMore with
      | false => exact read
      | true =>
        obtain ⟨⟨item, after⟩, first, read⟩ := bind_eq_ok.mp read
        obtain ⟨others, following, read⟩ := bind_eq_ok.mp read
        refine bind_eq_ok.mpr ⟨_, within_eq_ok.mpr (document _ _ _ _ _ fuelled le (within_eq_ok.mp first)), ?_⟩
        exact bind_eq_ok.mpr ⟨_, list _ _ _ _ _ _ fuelled le following, read⟩
    · intro enough depth more first input found fuelled le read
      obtain ⟨enough, rfl⟩ := Nat.exists_eq_succ_of_ne_zero (by omega : enough ≠ 0)
      have fuelled := Nat.le_of_succ_le_succ fuelled
      rw [readMembers] at read ⊢
      obtain ⟨⟨isMore, next⟩, step, read⟩ := bind_eq_ok.mp read
      refine bind_eq_ok.mpr ⟨_, step, ?_⟩
      cases isMore with
      | false => exact read
      | true =>
        obtain ⟨⟨name, colon⟩, key, read⟩ := bind_eq_ok.mp read
        obtain ⟨⟨value, after⟩, member, read⟩ := bind_eq_ok.mp read
        obtain ⟨start, sign, member⟩ := bind_eq_ok.mp (within_eq_ok.mp member)
        obtain ⟨others, following, read⟩ := bind_eq_ok.mp read
        refine bind_eq_ok.mpr ⟨_, key, bind_eq_ok.mpr ⟨_, within_eq_ok.mpr
          (bind_eq_ok.mpr ⟨_, sign, document _ _ _ _ _ fuelled le member⟩), ?_⟩⟩
        exact bind_eq_ok.mpr ⟨_, table _ _ _ _ _ _ fuelled le following, read⟩

/-- A reader that may go deeper reads the same document. -/
theorem readDocument_mono {more : Nat} {found : Json × Input} (le : depth ≤ more)
    (read : readDocument fuel depth input = .ok found) : readDocument fuel more input = .ok found :=
  (readers_mono fuel).1 fuel depth more input found (Nat.le_refl _) le read

/-- A text is read as one document, however much fuel and depth there is. -/
theorem readDocument_unique {more deeper : Nat} {found other : Json × Input}
    (one : readDocument fuel depth input = .ok found) (two : readDocument more deeper input = .ok other) :
    found = other := by
  have early := (readers_mono fuel).1 (max fuel more) depth (max depth deeper) input found
    (Nat.le_max_left ..) (Nat.le_max_left ..) one
  have late := (readers_mono more).1 (max fuel more) deeper (max depth deeper) input other
    (Nat.le_max_right ..) (Nat.le_max_right ..) two
  exact Except.ok.inj (early.symm.trans late)

/-! ## Documents that were read -/

/-- The value is in order, and fewer containers than `depth` are open at once within it. -/
def WellRead (depth : Nat) (value : Json) : Prop := value.isOrdered ∧ value.depth < depth

private theorem wellRead_scalar (room : 0 < depth) (scalar : value.isScalar) : WellRead depth value := by
  cases value with
  | null | bool b | number n | string s => exact ⟨rfl, room⟩
  | array items => exact (Bool.false_ne_true scalar).elim
  | object members => exact (Bool.false_ne_true scalar).elim

private theorem wellRead_array (room : 1 < depth) (each : ∀ item ∈ items, WellRead (depth - 1) item) :
    WellRead depth (.array items) := by
  refine ⟨isOrdered_array.mpr fun item present => (each item present).1, ?_⟩
  obtain ⟨depth, rfl⟩ : ∃ d, depth = d + 2 := ⟨depth - 2, by omega⟩
  exact Nat.lt_succ_of_le (depth_array_le_succ.mpr fun item present =>
    Nat.le_of_lt_succ (each item present).2)

private theorem wellRead_object (room : 1 < depth) (each : ∀ m ∈ members, WellRead (depth - 1) m.2) :
    WellRead depth (.object (ofMembers members)) := by
  have kept : ∀ m ∈ ofMembers members, WellRead (depth - 1) m.2 :=
    fun m present => each m (mem_of_mem_ofMembers present)
  refine ⟨isOrdered_object.mpr ⟨increasing_ofMembers members, fun m present => (kept m present).1⟩, ?_⟩
  obtain ⟨depth, rfl⟩ : ∃ d, depth = d + 2 := ⟨depth - 2, by omega⟩
  exact Nat.lt_succ_of_le (depth_object_le_succ.mpr fun m present =>
    Nat.le_of_lt_succ (kept m present).2)

/-- What the three readers give with some fuel; the induction is on the fuel they share. -/
private theorem wellRead_all (fuel : Nat) :
    (∀ depth input value rest, 0 < depth → readDocument fuel depth input = .ok (value, rest) →
      WellRead depth value) ∧
    (∀ depth index input items rest, 0 < depth →
      readItems fuel depth index input = .ok (items, rest) → ∀ item ∈ items, WellRead depth item) ∧
    (∀ depth first input members rest, 0 < depth →
      readMembers fuel depth first input = .ok (members, rest) → ∀ m ∈ members, WellRead depth m.2) := by
  induction fuel with
  | zero =>
    refine ⟨?_, ?_, ?_⟩
    · intro depth input value rest _ found
      rw [readDocument] at found
      exact absurd found stop_ne_ok
    · intro depth index input items rest _ found
      rw [readItems] at found
      exact absurd found stop_ne_ok
    · intro depth first input members rest _ found
      rw [readMembers] at found
      exact absurd found stop_ne_ok
  | succ fuel ih =>
    obtain ⟨document, list, table⟩ := ih
    refine ⟨?_, ?_, ?_⟩
    · intro depth input value rest room found
      cases readDocument_ok found with
      | scalar b next _ _ read => exact wellRead_scalar room (scalar_of_readScalar read)
      | list items next _ deep read value_eq =>
        rw [value_eq]
        exact wellRead_array deep (list _ _ _ _ _ (by omega) read)
      | table members next _ deep read value_eq =>
        rw [value_eq]
        exact wellRead_object deep (table _ _ _ _ _ (by omega) read)
    · intro depth index input items rest room found
      rcases readItems_ok found with ⟨rfl, -⟩ | ⟨item, others, next, after, rfl, -, first, following⟩
      · exact List.forall_mem_nil _
      · exact List.forall_mem_cons.mpr
          ⟨document _ _ _ _ room first, list _ _ _ _ _ room following⟩
    · intro depth first input members rest room found
      rcases readMembers_ok found with ⟨rfl, -⟩ | ⟨name, value, others, next, after, rfl, -, member, following⟩
      · exact List.forall_mem_nil _
      · exact List.forall_mem_cons.mpr
          ⟨document _ _ _ _ room member, table _ _ _ _ _ room following⟩

/-- Whatever is read is in order and shallow enough to be read again. -/
theorem wellRead_of_readDocument (room : 0 < depth)
    (found : readDocument fuel depth input = .ok (value, rest)) : WellRead depth value :=
  (wellRead_all fuel).1 depth input value rest room found

/-- A document that was read is in order and not too deep. -/
theorem wellRead_of_read {text : Input} (found : read text = .ok value) :
    WellRead depthLimit value := by
  rw [read] at found
  obtain ⟨⟨value, rest⟩, document, found⟩ := bind_eq_ok.mp found
  obtain ⟨-, -, same⟩ := bind_eq_ok.mp found
  cases same
  exact wellRead_of_readDocument (by decide) document

end Tenancy.Json
