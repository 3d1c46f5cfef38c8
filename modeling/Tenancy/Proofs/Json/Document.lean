import Tenancy.Proofs.Json.Members

/-! # What makes a value a document

Three properties tell the documents that a text can spell without loss: the members of every object
are in order, every number is an integer of 64 bits, and no more containers are open at once than a
reader allows. Each can be evaluated; for the proofs `all_array` and `all_object` say what it asks of
the parts of a container.
-/

namespace Tenancy.Json

/-- What holds of a container whenever it holds of its parts holds of every value. -/
theorem parts_induction {motive : Json → Prop} (null : motive .null) (bool : ∀ b, motive (.bool b))
    (number : ∀ n, motive (.number n)) (string : ∀ s, motive (.string s))
    (array : ∀ items, (∀ item ∈ items, motive item) → motive (.array items))
    (object : ∀ members, (∀ m ∈ members, motive m.2) → motive (.object members)) :
    ∀ j, motive j :=
  Json.rec null bool number string (fun items all => array items all)
    (fun members all => object members all)
    (motive_2 := fun items => ∀ item ∈ items, motive item)
    (motive_3 := fun members => ∀ m ∈ members, motive m.2) (motive_4 := fun m => motive m.2)
    (fun _ present => absurd present List.not_mem_nil)
    (fun _ _ first rest => List.forall_mem_cons.mpr ⟨first, rest⟩)
    (fun _ present => absurd present List.not_mem_nil)
    (fun _ _ first rest => List.forall_mem_cons.mpr ⟨first, rest⟩)
    (fun _ _ value => value)

/-! ## Properties of every part -/

mutual

/-- Whether a value and every part of it have a property. -/
def all (p : Json → Bool) : Json → Bool
  | .array items => p (.array items) && allItems p items
  | .object members => p (.object members) && allMembers p members
  | j => p j

def allItems (p : Json → Bool) : List Json → Bool
  | [] => true
  | item :: items => all p item && allItems p items

def allMembers (p : Json → Bool) : List (String × Json) → Bool
  | [] => true
  | (_, value) :: members => all p value && allMembers p members

end

variable {p : Json → Bool} {items : List Json} {members : List (String × Json)}

private theorem allItems_iff : allItems p items ↔ ∀ item ∈ items, item.all p := by
  induction items with
  | nil => simp [allItems]
  | cons item items ih => simp [allItems, ih]

private theorem allMembers_iff : allMembers p members ↔ ∀ m ∈ members, m.2.all p := by
  induction members with
  | nil => simp [allMembers]
  | cons m members ih => simp [allMembers, ih]

theorem all_array : (array items).all p ↔ p (array items) ∧ ∀ item ∈ items, item.all p := by
  rw [all, Bool.and_eq_true, allItems_iff]

theorem all_object : (object members).all p ↔ p (object members) ∧ ∀ m ∈ members, m.2.all p := by
  rw [all, Bool.and_eq_true, allMembers_iff]

/-- A number that is an integer of 64 bits, with or without a sign. -/
def Number.isWord : Number → Bool
  | .integer i => -0x8000000000000000 ≤ i && i ≤ 0xFFFFFFFFFFFFFFFF
  | .double _ => false

/-- Every number in the value is an integer of 64 bits. -/
def isIntegral : Json → Bool := all fun
  | .number n => n.isWord
  | _ => true

/-- The members of every object in the value are in order. -/
def isOrdered : Json → Bool := all fun
  | .object members => Increasing members
  | _ => true

theorem isIntegral_array : (array items).isIntegral ↔ ∀ item ∈ items, item.isIntegral := by
  simp only [isIntegral, all_array, true_and]

theorem isIntegral_object : (object members).isIntegral ↔ ∀ m ∈ members, m.2.isIntegral := by
  simp only [isIntegral, all_object, true_and]

theorem isOrdered_array : (array items).isOrdered ↔ ∀ item ∈ items, item.isOrdered := by
  simp only [isOrdered, all_array, true_and]

/-- An object is in order when its own names increase and so do those below. -/
theorem isOrdered_object : (object members).isOrdered ↔
    Increasing members ∧ ∀ m ∈ members, m.2.isOrdered := by
  simp only [isOrdered, all_object, decide_eq_true_eq]

theorem isIntegral_of_get? {j value : Json} {name : String} (integral : j.isIntegral)
    (found : j.get? name = some value) : value.isIntegral := by
  cases j with
  | object members => exact isIntegral_object.mp integral _ (mem_of_lookup found)
  | _ => cases found

theorem isOrdered_of_get? {j value : Json} {name : String} (ordered : j.isOrdered)
    (found : j.get? name = some value) : value.isOrdered := by
  cases j with
  | object members => exact (isOrdered_object.mp ordered).2 _ (mem_of_lookup found)
  | _ => cases found

/-! ## Depth -/

mutual

/-- The most containers that are open at once within a value. -/
def depth : Json → Nat
  | .array items => depthItems items + 1
  | .object members => depthMembers members + 1
  | _ => 0

def depthItems : List Json → Nat
  | [] => 0
  | item :: items => max (depth item) (depthItems items)

/-- The most containers that are open at once within any of the members. -/
def depthMembers : List (String × Json) → Nat
  | [] => 0
  | (_, value) :: members => max (depth value) (depthMembers members)

end

variable {limit : Nat}

private theorem depthItems_le_iff : depthItems items ≤ limit ↔ ∀ item ∈ items, item.depth ≤ limit := by
  induction items with
  | nil => simp [depthItems]
  | cons item items ih => simp [depthItems, ih]

private theorem depthMembers_le_iff :
    depthMembers members ≤ limit ↔ ∀ m ∈ members, m.2.depth ≤ limit := by
  induction members with
  | nil => simp [depthMembers]
  | cons m members ih => simp [depthMembers, ih]

theorem depth_array_le_succ : (array items).depth ≤ limit + 1 ↔ ∀ item ∈ items, item.depth ≤ limit := by
  rw [depth, Nat.add_le_add_iff_right, depthItems_le_iff]

theorem depth_object_le_succ :
    (object members).depth ≤ limit + 1 ↔ ∀ m ∈ members, m.2.depth ≤ limit := by
  rw [depth, Nat.add_le_add_iff_right, depthMembers_le_iff]

/-- Arrays in one another, with nothing in the innermost. -/
def nested : Nat → Json
  | 0 => .array []
  | n + 1 => .array [nested n]

theorem isIntegral_nested (n : Nat) : (nested n).isIntegral := by
  induction n with
  | zero => rfl
  | succ n ih => exact isIntegral_array.mpr (List.forall_mem_singleton.mpr ih)

theorem isOrdered_nested (n : Nat) : (nested n).isOrdered := by
  induction n with
  | zero => rfl
  | succ n ih => exact isOrdered_array.mpr (List.forall_mem_singleton.mpr ih)

/-! ## Sorting -/

theorem sortedItems_eq_map (items : List Json) : sortedItems items = items.map sorted := by
  induction items with
  | nil => rfl
  | cons item items ih => rw [sortedItems, ih, List.map_cons]

theorem sortedMembers_eq_map (members : List (String × Json)) :
    sortedMembers members = members.map fun m => (m.1, m.2.sorted) := by
  induction members with
  | nil => rfl
  | cons m members ih => rw [sortedMembers, ih, List.map_cons]

theorem sorted_array (items : List Json) : (array items).sorted = array (items.map sorted) := by
  rw [sorted, sortedItems_eq_map]

theorem sorted_object (members : List (String × Json)) :
    (object members).sorted = object (ofMembers (members.map fun m => (m.1, m.2.sorted))) := by
  rw [sorted, sortedMembers_eq_map]

/-- Sorting leaves a value in order as it is. -/
theorem sorted_eq_self (j : Json) (ordered : j.isOrdered) : j.sorted = j := by
  induction j using parts_induction with
  | null | bool b | number n | string s => rfl
  | array items ih =>
    rw [isOrdered_array] at ordered
    rw [sorted_array, List.map_congr_left fun item present => ih item present (ordered item present),
      List.map_id']
  | object members ih =>
    rw [isOrdered_object] at ordered
    have same : (members.map fun m => (m.1, m.2.sorted)) = members.map id :=
      List.map_congr_left fun m present => by rw [ih m present (ordered.2 m present)]; rfl
    rw [sorted_object, same, List.map_id, ordered.1.ofMembers_eq_self]

/-- Sorting puts the members in order at every level. -/
theorem isOrdered_sorted (j : Json) : j.sorted.isOrdered := by
  induction j using parts_induction with
  | null | bool b | number n | string s => rfl
  | array items ih =>
    rw [sorted_array, isOrdered_array]
    exact List.forall_mem_map.mpr ih
  | object members ih =>
    rw [sorted_object, isOrdered_object]
    refine ⟨increasing_ofMembers _, fun m present => ?_⟩
    obtain ⟨entry, there, rfl⟩ := List.mem_map.mp (mem_of_mem_ofMembers present)
    exact ih entry there

theorem isIntegral_sorted (j : Json) (integral : j.isIntegral) : j.sorted.isIntegral := by
  induction j using parts_induction with
  | null | bool b | number n | string s => exact integral
  | array items ih =>
    rw [isIntegral_array] at integral
    rw [sorted_array, isIntegral_array]
    exact List.forall_mem_map.mpr fun item present => ih item present (integral item present)
  | object members ih =>
    rw [isIntegral_object] at integral
    rw [sorted_object, isIntegral_object]
    intro m present
    obtain ⟨entry, there, rfl⟩ := List.mem_map.mp (mem_of_mem_ofMembers present)
    exact ih entry there (integral entry there)

end Tenancy.Json
