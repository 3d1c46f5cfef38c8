import Tenancy.Cluster.Memory
import Tenancy.Proofs.Json.Members

/-! # The state of a cluster in memory

Names and tenants are kept in increasing order, so that a state is told by the names in it and by
the tenant under each key. Adding a name twice is adding it once, and a tenant that is put under its
key leaves the tenants under the other keys as they are.
-/

namespace Tenancy

variable {name key : String} {names : NameSet} {tenant : Tenant} {c : Cluster}

/-! ## Sets of names -/

namespace NameSet

/-- The names are in increasing order, each once. -/
def Sorted (names : NameSet) : Prop := names.Pairwise (· < ·)

instance (names : NameSet) : Decidable names.Sorted :=
  inferInstanceAs (Decidable (names.Pairwise (· < ·)))

@[simp] theorem mem_add {other : String} : other ∈ add name names ↔ other = name ∨ other ∈ names := by
  induction names with
  | nil => simp [add]
  | cons first rest ih =>
    rw [add]
    split_ifs with same less
    · rw [same, List.mem_cons, or_iff_right_of_imp Or.inl]
    · exact List.mem_cons
    · rw [List.mem_cons, ih, List.mem_cons, or_left_comm]

theorem Sorted.add (sorted : Sorted names) : Sorted (add name names) := by
  induction names with
  | nil => exact List.pairwise_singleton ..
  | cons first rest ih =>
    obtain ⟨above, sorted⟩ := List.pairwise_cons.mp sorted
    rw [NameSet.add]
    split_ifs with same less
    · exact List.pairwise_cons.mpr ⟨above, sorted⟩
    · refine List.pairwise_cons.mpr ⟨?_, List.pairwise_cons.mpr ⟨above, sorted⟩⟩
      exact List.forall_mem_cons.mpr ⟨less, fun other later => less.trans (above other later)⟩
    · refine List.pairwise_cons.mpr ⟨fun other present => ?_, ih sorted⟩
      rcases mem_add.mp present with rfl | later
      · exact lt_of_le_of_ne (not_lt.mp less) (Ne.symm same)
      · exact above other later

/-- Sets of names are told by their members. -/
theorem Sorted.ext {a b : NameSet} (ha : Sorted a) (hb : Sorted b) (same : ∀ name, name ∈ a ↔ name ∈ b) :
    a = b :=
  List.Pairwise.eq_of_mem_iff ha hb same

end NameSet

namespace Cluster

theorem isNew_create : (create name names).1.isNew = decide (name ∉ names) := by
  rw [create]
  split_ifs with present
  · exact (decide_eq_false (not_not_intro present)).symm
  · exact (decide_eq_true present).symm

theorem create_of_mem (present : name ∈ names) : create name names = (.alreadyExists, names) :=
  if_pos present

theorem mem_create {other : String} : other ∈ (create name names).2 ↔ other = name ∨ other ∈ names := by
  rw [create]
  split_ifs with present
  · exact (or_iff_right_of_imp fun same => same ▸ present).symm
  · exact NameSet.mem_add

/-- Creating a name a second time does nothing. -/
theorem create_create : create name (create name names).2 = (.alreadyExists, (create name names).2) :=
  create_of_mem (mem_create.mpr (.inl rfl))

theorem sorted_create (sorted : names.Sorted) : (create name names).2.Sorted := by
  rw [create]
  split_ifs
  · exact sorted
  · exact sorted.add

/-! ## Tenants by key -/

/-- The keys of the tenants are in increasing order, each once. -/
def KeysSorted (tenants : List (String × Tenant)) : Prop := tenants.Pairwise fun a b => a.1 < b.1

instance (tenants : List (String × Tenant)) : Decidable (KeysSorted tenants) :=
  inferInstanceAs (Decidable (tenants.Pairwise fun a b => a.1 < b.1))

private def under (key : String) (tenants : List (String × Tenant)) : Option Tenant :=
  (tenants.find? fun entry => entry.1 = key).map (·.2)

variable {tenants : List (String × Tenant)}

private theorem under_cons_self : under key ((key, tenant) :: tenants) = some tenant := by
  simp [under]

private theorem under_cons_of_ne {other : String} (different : key ≠ other) :
    under other ((key, tenant) :: tenants) = under other tenants := by
  simp [under, different]

private theorem under_putEntry {other : String} : under other (putEntry key tenant tenants) =
    if other = key then some tenant else under other tenants := by
  induction tenants with
  | nil =>
    split_ifs with same
    · rw [same]; exact under_cons_self
    · exact under_cons_of_ne (Ne.symm same)
  | cons entry rest ih =>
    obtain ⟨k, old⟩ := entry
    rw [putEntry]
    by_cases same : other = key
    · subst same
      rw [if_pos rfl]
      split_ifs with here
      · exact under_cons_self
      · exact under_cons_self
      · rw [under_cons_of_ne (Ne.symm here), ih, if_pos rfl]
    · rw [if_neg same] at ih ⊢
      split_ifs with here
      · rw [under_cons_of_ne (Ne.symm same), under_cons_of_ne (here ▸ Ne.symm same)]
      · exact under_cons_of_ne (Ne.symm same)
      · by_cases found : k = other
        · subst found
          rw [under_cons_self, under_cons_self]
        · rw [under_cons_of_ne found, under_cons_of_ne found, ih]

/-- Storing a tenant shows under its own key and no other. -/
theorem tenant?_put {other : String} : (c.put key tenant).tenant? other =
    if other = key then some tenant else c.tenant? other :=
  under_putEntry

private theorem under_filter {other : String} :
    under other (tenants.filter fun entry => entry.1 ≠ key) =
      if other = key then none else under other tenants := by
  induction tenants with
  | nil => exact (ite_self _).symm
  | cons entry rest ih =>
    obtain ⟨k, old⟩ := entry
    by_cases removed : k = key
    · rw [List.filter_cons_of_neg (by simpa using removed), ih]
      split_ifs with same
      · rfl
      · rw [under_cons_of_ne (removed ▸ Ne.symm same)]
    · rw [List.filter_cons_of_pos (by simpa using removed)]
      by_cases found : k = other
      · subst found
        rw [under_cons_self, under_cons_self, if_neg removed]
      · rw [under_cons_of_ne found, under_cons_of_ne found, ih]

theorem tenant?_remove {other : String} :
    (c.remove key).tenant? other = if other = key then none else c.tenant? other :=
  under_filter

/-- Every tenant is stored under its own name. -/
def Own (c : Cluster) : Prop := ∀ name tenant, c.tenant? name = some tenant → tenant.name = name

theorem Own.put (own : c.Own) (named : tenant.name = key) : (c.put key tenant).Own := by
  intro name stored found
  rw [tenant?_put] at found
  split_ifs at found with same
  · cases found
    rw [named, same]
  · exact own name stored found

theorem Own.remove (own : c.Own) (key : String) : (c.remove key).Own := by
  intro name stored found
  rw [tenant?_remove] at found
  split_ifs at found
  exact own name stored found

private theorem mem_putEntry {entry : String × Tenant} (present : entry ∈ putEntry key tenant tenants) :
    entry.1 = key ∨ entry ∈ tenants := by
  induction tenants with
  | nil => exact .inl (List.mem_singleton.mp present ▸ rfl)
  | cons first rest ih =>
    rw [putEntry] at present
    split_ifs at present with same less
    · rcases List.mem_cons.mp present with rfl | later
      · exact .inl rfl
      · exact .inr (List.mem_cons_of_mem _ later)
    · rcases List.mem_cons.mp present with rfl | later
      · exact .inl rfl
      · exact .inr later
    · rcases List.mem_cons.mp present with rfl | later
      · exact .inr (List.mem_cons_self ..)
      · exact (ih later).imp_right (List.mem_cons_of_mem _)

theorem KeysSorted.put (sorted : KeysSorted c.tenants) : KeysSorted (c.put key tenant).tenants := by
  suffices ∀ tenants, KeysSorted tenants → KeysSorted (putEntry key tenant tenants) from this _ sorted
  intro tenants sorted
  induction tenants with
  | nil => exact List.pairwise_singleton ..
  | cons entry rest ih =>
    obtain ⟨k, old⟩ := entry
    obtain ⟨above, sorted⟩ := List.pairwise_cons.mp sorted
    rw [putEntry]
    split_ifs with same less
    · exact List.pairwise_cons.mpr ⟨fun later present => same ▸ above later present, sorted⟩
    · refine List.pairwise_cons.mpr ⟨?_, List.pairwise_cons.mpr ⟨above, sorted⟩⟩
      exact List.forall_mem_cons.mpr ⟨less, fun later present => less.trans (above later present)⟩
    · refine List.pairwise_cons.mpr ⟨fun later present => ?_, ih sorted⟩
      rcases mem_putEntry present with at_ | later
      · exact at_ ▸ lt_of_le_of_ne (not_lt.mp less) (Ne.symm same)
      · exact above _ later

private theorem under_eq_some_iff (sorted : KeysSorted tenants) :
    under key tenants = some tenant ↔ (key, tenant) ∈ tenants := by
  induction tenants with
  | nil => simp [under]
  | cons entry rest ih =>
    obtain ⟨k, old⟩ := entry
    obtain ⟨above, sorted⟩ := List.pairwise_cons.mp sorted
    by_cases found : k = key
    · subst found
      rw [under_cons_self, List.mem_cons]
      constructor
      · rintro ⟨⟩
        exact .inl rfl
      · rintro (same | later)
        · rw [(Prod.mk.inj same).2]
        · exact absurd (above _ later) (lt_irrefl _)
    · rw [under_cons_of_ne found, ih sorted, List.mem_cons]
      exact (or_iff_right fun same => found (Prod.mk.inj same).1.symm).symm

/-- Tenants in order are told by what is under each key. -/
theorem KeysSorted.ext {a b : Cluster} (ha : KeysSorted a.tenants) (hb : KeysSorted b.tenants)
    (same : ∀ key, a.tenant? key = b.tenant? key) : a.tenants = b.tenants := by
  apply Json.eq_of_increasing_keys ha hb
  intro entry
  rw [← under_eq_some_iff ha, ← under_eq_some_iff hb]
  exact Eq.congr_left (same entry.1)

/-! ## Recording a namespace -/

@[simp] theorem recordNamespace_recordNamespace (before recorded : Option String) :
    recordNamespace recorded (recordNamespace before tenant) = recordNamespace recorded tenant := rfl

@[simp] theorem recordNamespace_recordedNamespace (recorded : Option String) :
    (recordNamespace recorded tenant).recordedNamespace = recorded := rfl

/-- A tenant that records the namespace already stays as it is. -/
theorem recordNamespace_of_recorded {recorded : String}
    (already : tenant.recordedNamespace = some recorded) :
    recordNamespace (some recorded) tenant = tenant := by
  obtain ⟨metadata, spec, status⟩ := tenant
  cases status with
  | none => cases already
  | some status =>
    simp only [Tenant.recordedNamespace, Option.bind_some] at already
    simp only [recordNamespace, Option.getD_some, ← already]

end Cluster

end Tenancy
