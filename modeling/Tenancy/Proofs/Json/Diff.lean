import Tenancy.Json.Patch
import Tenancy.Proofs.Json.Document

/-! # Patches that compare documents, and patches carried out

For documents in order, `diff` finds nothing to do between equal ones, adds exactly the members by
which one object extends another, and tells a change of one member by the change of its value. A patch is
carried out operation by operation, and where it stops, its error names the first that is refused.
-/

namespace Tenancy.Json

variable {path : Pointer} {old new members : List (String × Json)} {name : String} {value document : Json}
  {op : Operation} {patch : Patch} {e : PatchError} {index : Nat}

/-! ## Comparing -/

/-- The operations for one member of the new document. -/
def changes (path : Pointer) (old : List (String × Json)) (m : String × Json) : Patch :=
  match lookup m.1 old with
  | some before => diffAt (path.push m.1) before m.2
  | none => [.add (path.push m.1) m.2]

/-- What a new object adds or changes, member by member. -/
theorem diffMembers_eq_flatMap : diffMembers path old new = new.flatMap (changes path old) := by
  induction new with
  | nil => rfl
  | cons m new ih => rw [diffMembers, ih, List.flatMap_cons]; rfl

/-- Where no member goes away, two objects are compared by the members of the new one. -/
theorem diffAt_of_kept (kept : ∀ m ∈ old, (lookup m.1 new).isSome) :
    diffAt path (.object old) (.object new) = new.flatMap (changes path old) := by
  have none : removals path old new = [] := by
    rw [removals, List.map_eq_nil_iff, List.filter_eq_nil_iff]
    intro m present
    simp only [Option.isNone_iff_eq_none, Option.isSome_iff_ne_none.mp (kept m present),
      not_false_eq_true]
  rw [diffAt, diffMembers_eq_flatMap, none, List.append_nil]

/-- Between a list and itself nothing has to be done, if that holds between each item and itself. -/
theorem diffItems_self {items : List Json} (each : ∀ item ∈ items, ∀ path, diffAt path item item = [])
    (index : Nat) : diffItems path index items items = [] := by
  induction items generalizing index with
  | nil => rfl
  | cons item items ih =>
    obtain ⟨first, others⟩ := List.forall_mem_cons.mp each
    rw [diffItems, first, List.nil_append]
    exact ih others (index + 1)

/-- From a document to itself there is nothing to do, at any place and for arrays item by item. -/
theorem diffAt_self (j : Json) (ordered : j.isOrdered) : ∀ path, diffAt path j j = [] := by
  induction j using parts_induction with
  | null | bool b | number n | string s =>
    intro path
    rw [diffAt, if_pos rfl] <;> exact fun _ same => nomatch same
  | array items ih =>
    intro path
    rw [isOrdered_array] at ordered
    exact diffItems_self (fun item present => ih item present (ordered item present)) 0
  | object members ih =>
    intro path
    rw [isOrdered_object] at ordered
    have found : ∀ m ∈ members, lookup m.1 members = some m.2 := fun m present =>
      ordered.1.lookup_eq_some_iff.mpr present
    rw [diffAt_of_kept fun m present => by rw [found m present]; rfl, List.flatMap_eq_nil_iff]
    intro m present
    simp only [changes, found m present]
    exact ih m present (ordered.2 m present) _

/-- The patch from a document to itself is empty. -/
theorem diff_self {j : Json} (ordered : j.isOrdered) : diff j j = [] := diffAt_self j ordered .root

/-- A member that both objects hold alike contributes no operation. -/
theorem changes_of_same (ordered : (object old).isOrdered) {m : String × Json}
    (same : lookup m.1 old = some m.2) : changes path old m = [] := by
  simp only [changes, same]
  exact diffAt_self m.2 ((isOrdered_object.mp ordered).2 m (mem_of_lookup same)) _

private theorem flatMap_eq_map_filter {α β : Type} {l : List α} {f : α → List β} {p : α → Bool}
    {g : α → β} (each : ∀ a ∈ l, f a = if p a then [g a] else []) : l.flatMap f = (l.filter p).map g := by
  induction l with
  | nil => rfl
  | cons a l ih =>
    rw [List.forall_mem_cons] at each
    rw [List.flatMap_cons, each.1, ih each.2, List.filter_cons]
    split_ifs <;> rfl

/-- To an object that keeps every member of another, only the new members have to be added. -/
theorem diffAt_extension (ordered : (object old).isOrdered) (increasing : Increasing new)
    (kept : ∀ name before, lookup name old = some before → lookup name new = some before) :
    diffAt path (.object old) (.object new) =
      (new.filter fun m => (lookup m.1 old).isNone).map fun m => .add (path.push m.1) m.2 := by
  have still : ∀ m ∈ old, (lookup m.1 new).isSome := fun m present => by
    rw [kept m.1 m.2 ((isOrdered_object.mp ordered).1.lookup_eq_some_iff.mpr present)]
    rfl
  rw [diffAt_of_kept still]
  apply flatMap_eq_map_filter
  intro m present
  cases found : lookup m.1 old with
  | none => simp [changes, found]
  | some before =>
    have now := (kept m.1 before found).symm.trans (increasing.lookup_eq_some_iff.mpr present)
    rw [Option.some.inj now] at found
    simp [changes_of_same ordered found]

/-- In a list in order, one member decides when all others contribute nothing. -/
private theorem flatMap_of_only {α : Type} {f : String × Json → List α} (increasing : Increasing members)
    (present : (name, value) ∈ members) (others : ∀ m ∈ members, m.1 ≠ name → f m = []) :
    members.flatMap f = f (name, value) := by
  obtain ⟨before, after, rfl⟩ := List.append_of_mem present
  have apart := List.pairwise_append.mp increasing
  have head : before.flatMap f = [] := List.flatMap_eq_nil_iff.mpr fun m earlier =>
    others m (List.mem_append_left _ earlier)
      (ne_of_lt (apart.2.2 m earlier _ (List.mem_cons_self ..)))
  have tail : after.flatMap f = [] := List.flatMap_eq_nil_iff.mpr fun m later =>
    others m (List.mem_append_right _ (List.mem_cons_of_mem _ later))
      (ne_of_gt ((List.pairwise_cons.mp apart.2.1).1 m later))
  rw [List.flatMap_append, List.flatMap_cons, head, tail, List.nil_append, List.append_nil]

/-- Between an object and itself with one member put in, that member makes the difference. -/
theorem diffAt_insert (ordered : (object members).isOrdered) :
    diffAt path (.object members) (.object (insert name value members)) =
      changes path members (name, value) := by
  have increasing := (isOrdered_object.mp ordered).1
  have kept : ∀ m ∈ members, (lookup m.1 (insert name value members)).isSome := fun m present => by
    rw [lookup_insert, increasing.lookup_eq_some_iff.mpr present]
    split_ifs <;> rfl
  rw [diffAt_of_kept kept]
  apply flatMap_of_only increasing.insert (mem_of_lookup lookup_insert_self)
  intro m present other
  refine changes_of_same ordered (increasing.lookup_eq_some_iff.mpr ?_)
  rcases mem_insert present with rfl | present
  · exact absurd rfl other
  · exact present

/-! ## Carrying out -/

@[simp] theorem toOption_unless (refusal : Operation.Refusal) (found : Option Json) :
    (refusal.unless found).toOption = found := by
  cases found <;> rfl

private theorem toOption_carryOutFrom (index other : Nat) (document : Json) (patch : Patch) :
    (patch.carryOutFrom index document).toOption = (patch.carryOutFrom other document).toOption := by
  induction patch generalizing index other document with
  | nil => rfl
  | cons op patch ih =>
    rw [Patch.carryOutFrom, Patch.carryOutFrom]
    cases op.carryOut document with
    | ok next => exact ih _ _ next
    | error refusal => rfl

/-- A patch is carried out operation by operation, each on what the one before it gave. -/
theorem carryOut?_cons : Patch.carryOut? document (op :: patch) =
    (op.carryOut? document).bind fun next => patch.carryOut? next := by
  rw [Patch.carryOut?, Patch.carryOut, Patch.carryOutFrom, Operation.carryOut?]
  cases op.carryOut document with
  | ok next => exact toOption_carryOutFrom 1 0 next patch
  | error refusal => rfl

private theorem carryOutFrom_eq_error : patch.carryOutFrom index document = .error e ↔
    ∃ before op after next, patch = before ++ op :: after ∧ Patch.carryOut? document before = some next ∧
      op.carryOut next = .error e.refusal ∧ e.path = op.path ∧ e.index = index + before.length := by
  induction patch generalizing index document with
  | nil =>
    constructor
    · exact fun failed => nomatch failed
    · rintro ⟨before, op, after, next, split, -⟩
      exact absurd split (by simp)
  | cons op patch ih =>
    rw [Patch.carryOutFrom]
    -- the operation that fails is the first one, or it is among the others, one place later
    cases done : op.carryOut document with
    | ok left =>
      have step : op.carryOut? document = some left := by
        rw [Operation.carryOut?, done]
        rfl
      refine ih.trans ⟨?_, ?_⟩
      · rintro ⟨before, last, after, next, rfl, carried, refused, place, count⟩
        refine ⟨op :: before, last, after, next, rfl, ?_, refused, place, ?_⟩
        · rw [carryOut?_cons, step, Option.bind_some, carried]
        · rw [count, List.length_cons]
          omega
      · rintro ⟨before, last, after, next, split, carried, refused, place, count⟩
        cases before with
        | nil =>
          obtain ⟨rfl, rfl⟩ := List.cons.inj split
          obtain rfl : document = next := Option.some.inj carried
          exact absurd (done.symm.trans refused) (by simp)
        | cons first before =>
          obtain ⟨rfl, rfl⟩ := List.cons.inj split
          rw [carryOut?_cons, step, Option.bind_some] at carried
          refine ⟨before, last, after, next, rfl, carried, refused, place, ?_⟩
          rw [count, List.length_cons]
          omega
    | error refusal =>
      constructor
      · rintro ⟨⟩
        exact ⟨[], op, patch, document, rfl, rfl, done, rfl, rfl⟩
      · rintro ⟨before, last, after, next, split, carried, refused, place, count⟩
        cases before with
        | nil =>
          obtain ⟨rfl, rfl⟩ := List.cons.inj split
          obtain rfl : document = next := Option.some.inj carried
          obtain ⟨_, _, _⟩ := e
          cases done.symm.trans refused
          cases place
          cases count
          rfl
        | cons first before =>
          obtain ⟨rfl, rfl⟩ := List.cons.inj split
          rw [carryOut?_cons, Operation.carryOut?, done] at carried
          cases carried

/-- A patch stops at the first operation that is refused. Its error has the number and the place of that
operation, and says why it was refused. -/
theorem carryOut_eq_error : patch.carryOut document = .error e ↔
    ∃ before op after next, patch = before ++ op :: after ∧ Patch.carryOut? document before = some next ∧
      op.carryOut next = .error e.refusal ∧ e.path = op.path ∧ e.index = before.length := by
  rw [Patch.carryOut, carryOutFrom_eq_error]
  simp only [Nat.zero_add]

end Tenancy.Json
