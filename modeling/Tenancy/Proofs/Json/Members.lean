import Mathlib.Data.List.Sort
import Mathlib.Data.String.Basic
import Tenancy.Json.Basic

/-! # Members in order

A list of members in increasing order of name is determined by what `lookup` finds in it. `insert`
keeps the order, so `ofMembers` always gives such a list: the one in which every name has the value of
its last occurrence.
-/

namespace Tenancy.Json

variable {name key : String} {value old : Json} {members rest : List (String × Json)}

/-- The members are in increasing order of name, each name once. -/
def Increasing (members : List (String × Json)) : Prop := members.Pairwise fun a b => a.1 < b.1

instance (members : List (String × Json)) : Decidable (Increasing members) :=
  inferInstanceAs (Decidable (members.Pairwise fun a b => a.1 < b.1))

theorem increasing_nil : Increasing [] := List.Pairwise.nil

theorem increasing_cons : Increasing ((key, value) :: rest) ↔
    (∀ m ∈ rest, key < m.1) ∧ Increasing rest := List.pairwise_cons

/-! ## Looking up -/

theorem lookup_cons_self : lookup name ((name, value) :: rest) = some value := if_pos rfl

theorem lookup_cons_of_ne (other : key ≠ name) :
    lookup name ((key, value) :: rest) = lookup name rest := if_neg other

theorem mem_of_lookup (found : lookup name members = some value) : (name, value) ∈ members := by
  induction members with
  | nil => simp [lookup] at found
  | cons m rest ih =>
    obtain ⟨key, old⟩ := m
    by_cases same : key = name
    · subst same
      rw [lookup_cons_self] at found
      rw [Option.some.inj found]
      exact List.mem_cons_self ..
    · rw [lookup_cons_of_ne same] at found
      exact List.mem_cons_of_mem _ (ih found)

theorem lookup_eq_none_iff : lookup name members = none ↔ ∀ m ∈ members, m.1 ≠ name := by
  induction members with
  | nil => simp [lookup]
  | cons m rest ih =>
    obtain ⟨key, old⟩ := m
    by_cases same : key = name
    · simp [same, lookup_cons_self]
    · simp [lookup_cons_of_ne same, ih, same]

theorem lookup_eq_none_iff_not_mem : lookup name members = none ↔ name ∉ members.map Prod.fst := by
  rw [lookup_eq_none_iff, List.mem_map, not_exists]
  exact forall_congr' fun m => not_and.symm

theorem lookup_append : lookup name (members ++ rest) =
    (lookup name members).or (lookup name rest) := by
  induction members with
  | nil => rfl
  | cons m members ih =>
    obtain ⟨key, old⟩ := m
    by_cases same : key = name
    · simp [same, lookup_cons_self]
    · simp [lookup_cons_of_ne same, ih]

/-- Where every name stands once, looking up finds each member. -/
theorem lookup_of_mem (distinct : (members.map Prod.fst).Nodup) (present : (name, value) ∈ members) :
    lookup name members = some value := by
  induction members with
  | nil => simp at present
  | cons m rest ih =>
    obtain ⟨key, old⟩ := m
    obtain ⟨fresh, distinct⟩ := List.nodup_cons.mp distinct
    rcases List.mem_cons.mp present with same | later
    · cases same
      exact lookup_cons_self
    · have other : key ≠ name := by
        rintro rfl
        exact fresh (List.mem_map.mpr ⟨(key, value), later, rfl⟩)
      rw [lookup_cons_of_ne other]
      exact ih distinct later

theorem Increasing.nodup (ordered : Increasing members) : (members.map Prod.fst).Nodup := by
  rw [List.nodup_iff_pairwise_ne, List.pairwise_map]
  exact ordered.imp fun less => ne_of_lt less

/-- In a list of increasing names looking up and membership are the same. -/
theorem Increasing.lookup_eq_some_iff (ordered : Increasing members) :
    lookup name members = some value ↔ (name, value) ∈ members :=
  ⟨mem_of_lookup, lookup_of_mem ordered.nodup⟩

theorem lookup_filter (p : String → Bool) : lookup name (members.filter fun m => p m.1) =
    if p name then lookup name members else none := by
  induction members with
  | nil => simp [lookup]
  | cons m rest ih =>
    obtain ⟨key, old⟩ := m
    rw [List.filter_cons]
    by_cases same : key = name
    · subst same
      split_ifs with kept
      · rw [lookup_cons_self, lookup_cons_self]
      · rw [ih, if_neg kept]
    · rw [lookup_cons_of_ne same, ← ih]
      split_ifs
      · exact lookup_cons_of_ne same
      · rfl

theorem lookup_filter_name : lookup name (members.filter fun m => m.1 == name) = lookup name members := by
  rw [lookup_filter (· == name), if_pos (beq_self_eq_true name)]

theorem lookup_map (f : Json → Json) :
    lookup name (members.map fun m => (m.1, f m.2)) = (lookup name members).map f := by
  induction members with
  | nil => rfl
  | cons m rest ih =>
    obtain ⟨key, old⟩ := m
    rw [List.map_cons]
    by_cases same : key = name
    · subst same
      rw [lookup_cons_self, lookup_cons_self, Option.map_some]
    · rw [lookup_cons_of_ne same, lookup_cons_of_ne same, ih]

theorem lookup_append_of_ne (others : ∀ m ∈ members, m.1 ≠ name) :
    lookup name (members ++ rest) = lookup name rest := by
  rw [lookup_append, lookup_eq_none_iff.mpr others, Option.none_or]

/-- Entries in order of their keys are told by which there are. -/
theorem eq_of_increasing_keys {α : Type} {a b : List (String × α)} (ha : a.Pairwise fun m n => m.1 < n.1)
    (hb : b.Pairwise fun m n => m.1 < n.1) (same : ∀ m, m ∈ a ↔ m ∈ b) : a = b := by
  have irrefl : Std.Irrefl fun m n : String × α => m.1 < n.1 := ⟨fun m => lt_irrefl m.1⟩
  have antisymm : Std.Antisymm fun m n : String × α => m.1 < n.1 :=
    ⟨fun m n less more => absurd (less.trans more) (lt_irrefl m.1)⟩
  exact ha.eq_of_mem_iff hb same

/-- Members in order are told by what is found in them. -/
theorem Increasing.ext {a b : List (String × Json)} (ha : Increasing a) (hb : Increasing b)
    (same : ∀ name, lookup name a = lookup name b) : a = b := by
  apply eq_of_increasing_keys ha hb
  intro m
  obtain ⟨name, value⟩ := m
  rw [← ha.lookup_eq_some_iff, ← hb.lookup_eq_some_iff, same]

/-- In order, a filter may look at the values too. -/
theorem Increasing.lookup_filter (ordered : Increasing members) (p : String × Json → Bool) :
    lookup name (members.filter p) = (lookup name members).filter fun value => p (name, value) := by
  have kept : Increasing (members.filter p) := ordered.sublist List.filter_sublist
  apply Option.ext
  intro value
  rw [kept.lookup_eq_some_iff, List.mem_filter, Option.filter_eq_some_iff, ordered.lookup_eq_some_iff]

/-! ## Inserting -/

@[simp] theorem lookup_insert_self : lookup name (insert name value members) = some value := by
  induction members with
  | nil => exact lookup_cons_self
  | cons m rest ih =>
    obtain ⟨key, old⟩ := m
    simp only [insert]
    split_ifs with same less
    · exact lookup_cons_self
    · exact lookup_cons_self
    · rw [lookup_cons_of_ne (Ne.symm same), ih]

theorem lookup_insert_of_ne {other : String} (different : other ≠ name) :
    lookup other (insert name value members) = lookup other members := by
  induction members with
  | nil => exact lookup_cons_of_ne different.symm
  | cons m rest ih =>
    obtain ⟨key, old⟩ := m
    simp only [insert]
    split_ifs with same less
    · subst same
      rw [lookup_cons_of_ne different.symm, lookup_cons_of_ne different.symm]
    · exact lookup_cons_of_ne different.symm
    · simp only [lookup, ih]

theorem lookup_insert {other : String} : lookup other (insert name value members) =
    if other = name then some value else lookup other members := by
  split_ifs with same
  · rw [same, lookup_insert_self]
  · exact lookup_insert_of_ne same

theorem mem_insert {m : String × Json} (present : m ∈ insert name value members) :
    m = (name, value) ∨ m ∈ members := by
  induction members with
  | nil => exact .inl (List.mem_singleton.mp present)
  | cons head rest ih =>
    obtain ⟨key, old⟩ := head
    simp only [insert] at present
    split_ifs at present with same less
    · rcases List.mem_cons.mp present with new | later
      · exact .inl new
      · exact .inr (List.mem_cons_of_mem _ later)
    · exact List.mem_cons.mp present
    · rcases List.mem_cons.mp present with first | later
      · exact .inr (first ▸ List.mem_cons_self ..)
      · exact (ih later).imp_right (List.mem_cons_of_mem _)

theorem Increasing.insert (ordered : Increasing members) :
    Increasing (insert name value members) := by
  induction members with
  | nil => exact List.pairwise_singleton ..
  | cons m rest ih =>
    obtain ⟨key, old⟩ := m
    obtain ⟨least, ordered⟩ := increasing_cons.mp ordered
    simp only [Json.insert]
    split_ifs with same less
    · exact increasing_cons.mpr ⟨same ▸ least, ordered⟩
    · refine increasing_cons.mpr ⟨?_, increasing_cons.mpr ⟨least, ordered⟩⟩
      intro m present
      rcases List.mem_cons.mp present with rfl | later
      · exact less
      · exact less.trans (least m later)
    · refine increasing_cons.mpr ⟨?_, ih ordered⟩
      intro m present
      rcases mem_insert present with rfl | later
      · exact lt_of_le_of_ne (not_lt.mp less) (Ne.symm same)
      · exact least m later

/-- Putting back what is there changes nothing. -/
theorem Increasing.insert_eq_self (ordered : Increasing members)
    (found : lookup name members = some value) : Json.insert name value members = members := by
  apply ordered.insert.ext ordered
  intro other
  rw [lookup_insert]
  split_ifs with same
  · rw [same, found]
  · rfl

/-- Of two values put at one name the later one counts. -/
theorem insert_insert_self : insert name value (insert name old members) =
    insert name value members := by
  induction members with
  | nil => simp [insert]
  | cons m rest ih =>
    obtain ⟨key, first⟩ := m
    simp only [insert]
    split_ifs with same less
    · simp [insert]
    · simp [insert]
    · simp only [insert, if_neg same, if_neg less, ih]

/-! ## Exchanging -/

/-- The members with another value for those called `name`. -/
def exchange (name : String) (value : Json) (members : List (String × Json)) : List (String × Json) :=
  members.map fun m => if m.1 = name then (name, value) else m

theorem exchange_append {others : List (String × Json)} :
    exchange name value (members ++ others) = exchange name value members ++ exchange name value others :=
  List.map_append

theorem exchange_of_ne (others : ∀ m ∈ members, m.1 ≠ name) : exchange name value members = members := by
  rw [exchange, List.map_congr_left fun m present => if_neg (others m present), List.map_id']

/-- Exchanging a value shows under its name only where the name was present. -/
theorem lookup_exchange {other : String} : lookup other (exchange name value members) =
    if other = name then (lookup name members).map fun _ => value else lookup other members := by
  induction members with
  | nil =>
    split_ifs <;> rfl
  | cons m members ih =>
    obtain ⟨key, old⟩ := m
    simp only [exchange, List.map_cons] at ih ⊢
    by_cases named : key = name
    · subst named
      rw [if_pos rfl, lookup_cons_self, Option.map_some]
      split_ifs with same
      · rw [same, lookup_cons_self]
      · rw [lookup_cons_of_ne (Ne.symm same), lookup_cons_of_ne (Ne.symm same), ih, if_neg same]
    · rw [if_neg named, lookup_cons_of_ne named]
      by_cases found : key = other
      · subst found
        rw [lookup_cons_self, lookup_cons_self, if_neg named]
      · rw [lookup_cons_of_ne found, lookup_cons_of_ne found, ih]

/-- Putting a member in the place of one that is there exchanges it. -/
theorem Increasing.insert_eq_exchange (ordered : Increasing members)
    (present : lookup name members = some old) :
    Json.insert name value members = exchange name value members := by
  induction members with
  | nil => cases present
  | cons m members ih =>
    obtain ⟨key, first⟩ := m
    obtain ⟨least, ordered⟩ := increasing_cons.mp ordered
    rw [Json.insert, exchange, List.map_cons]
    by_cases same : key = name
    · subst same
      have others : ∀ m ∈ members, m.1 ≠ key := fun m present => ne_of_gt (least m present)
      rw [if_pos rfl, if_pos rfl]
      exact congrArg _ (exchange_of_ne others).symm
    · rw [lookup_cons_of_ne same] at present
      have less : key < name := least _ (mem_of_lookup present)
      rw [if_neg (Ne.symm same), if_neg (not_lt_of_gt less), if_neg same, ih ordered present]
      rfl

/-! ## Ordering -/

theorem Increasing.foldl_insert (ordered : Increasing rest) :
    Increasing (members.foldl (fun sorted m => Json.insert m.1 m.2 sorted) rest) := by
  induction members generalizing rest with
  | nil => exact ordered
  | cons m members ih => exact ih ordered.insert

theorem mem_foldl_insert {m : String × Json}
    (present : m ∈ members.foldl (fun sorted m => Json.insert m.1 m.2 sorted) rest) :
    m ∈ members ∨ m ∈ rest := by
  induction members generalizing rest with
  | nil => exact .inr present
  | cons head members ih =>
    rcases ih present with later | present
    · exact .inl (List.mem_cons_of_mem _ later)
    · rcases mem_insert present with rfl | present
      · exact .inl (List.mem_cons_self ..)
      · exact .inr present

/-- A table lists its names in increasing order, whatever the order they came in. -/
theorem increasing_ofMembers (members : List (String × Json)) : Increasing (ofMembers members) :=
  increasing_nil.foldl_insert

theorem lookup_foldl_insert :
    lookup name (members.foldl (fun sorted m => insert m.1 m.2 sorted) rest) =
      (lookup name members.reverse).or (lookup name rest) := by
  induction members generalizing rest with
  | nil => rfl
  | cons m members ih =>
    obtain ⟨key, old⟩ := m
    rw [List.foldl_cons, ih, List.reverse_cons, lookup_append, Option.or_assoc]
    congr 1
    by_cases same : key = name
    · rw [same, lookup_insert_self, lookup_cons_self, Option.some_or]
    · rw [lookup_insert_of_ne (Ne.symm same), lookup_cons_of_ne same]
      rfl

/-- Of several members with one name the last counts. -/
theorem lookup_ofMembers : lookup name (ofMembers members) = lookup name members.reverse := by
  rw [ofMembers, lookup_foldl_insert]
  exact Option.or_none

theorem mem_names_ofMembers : name ∈ (ofMembers members).map Prod.fst ↔ name ∈ members.map Prod.fst := by
  rw [← not_iff_not, ← lookup_eq_none_iff_not_mem, lookup_ofMembers, lookup_eq_none_iff_not_mem,
    List.map_reverse, List.mem_reverse]

theorem lookup_reverse (distinct : (members.map Prod.fst).Nodup) :
    lookup name members.reverse = lookup name members := by
  have backwards : (members.reverse.map Prod.fst).Nodup := by
    rw [List.map_reverse, List.nodup_reverse]
    exact distinct
  cases found : lookup name members with
  | some value => exact lookup_of_mem backwards (List.mem_reverse.mpr (mem_of_lookup found))
  | none =>
    rw [lookup_eq_none_iff] at found ⊢
    exact fun m present => found m (List.mem_reverse.mp present)

/-- With distinct names a table holds what the list held. -/
theorem lookup_ofMembers_of_nodup (distinct : (members.map Prod.fst).Nodup) :
    lookup name (ofMembers members) = lookup name members := by
  rw [lookup_ofMembers, lookup_reverse distinct]

/-- Members already in order are a table as they stand. -/
theorem Increasing.ofMembers_eq_self (ordered : Increasing members) : ofMembers members = members :=
  (increasing_ofMembers members).ext ordered fun _ => lookup_ofMembers_of_nodup ordered.nodup

theorem mem_of_mem_ofMembers {m : String × Json} (present : m ∈ ofMembers members) : m ∈ members := by
  obtain ⟨name, value⟩ := m
  have found := (increasing_ofMembers members).lookup_eq_some_iff.mpr present
  rw [lookup_ofMembers] at found
  exact List.mem_reverse.mp (mem_of_lookup found)

end Tenancy.Json
