import Tenancy.Proofs.Reconcile.Steps

/-! # Where reconciles take a cluster

A cluster is settled for some tenants when their namespaces and bindings are there, their statuses
record the namespaces, and everything else is as it was before. There is one such cluster, whatever
the order in which it was reached. On the way there a cluster has some of this and nothing else.
-/

namespace Tenancy.Cluster

variable {name : String} {names more : List String} {c₀ c c' : Cluster} {tenant : Tenant}

/-- Names and keys are in order, and every tenant is stored under its own name. -/
structure Sound (c : Cluster) : Prop where
  keys : KeysSorted c.tenants
  own : ∀ key tenant, c.tenant? key = some tenant → tenant.name = key
  namespaces : c.namespaces.Sorted
  bindings : c.bindings.Sorted

/-- There is a tenant of that name, and it is not being deleted. -/
def Live (c : Cluster) (name : String) : Prop :=
  ∃ tenant, c.tenant? name = some tenant ∧ tenant.isDeleting = false

/-- The status of the tenant of that name says where its namespace is. -/
def Records (c : Cluster) (name : String) : Prop :=
  (c.tenant? name).bind Tenant.recordedNamespace = some (namespaceOf name)

/-- The tenant under a key, if any, with its namespace recorded. -/
def recorded? (c : Cluster) (key : String) : Option Tenant :=
  (c.tenant? key).map (recordNamespace (some (namespaceOf key)))

/-- Recording changes nothing where the namespace is recorded already. -/
theorem recorded?_of_records (records : c.Records name) : c.recorded? name = c.tenant? name := by
  rw [recorded?]
  rw [Records] at records
  cases found : c.tenant? name with
  | none => rfl
  | some tenant =>
    rw [found, Option.bind_some] at records
    rw [Option.map_some, recordNamespace_of_recorded records]

/-! ## On the way -/

/-- From `c₀`, reconciles of the tenants called `names` may have led to `c`. -/
structure Between (names : List String) (c₀ c : Cluster) : Prop where
  faults : c.faults = c₀.faults
  keys : KeysSorted c.tenants
  namespacesSorted : c.namespaces.Sorted
  bindingsSorted : c.bindings.Sorted
  namespacesKept : ∀ x ∈ c₀.namespaces, x ∈ c.namespaces
  namespacesOf : ∀ x ∈ c.namespaces, x ∈ c₀.namespaces ∨ ∃ name ∈ names, x = namespaceOf name
  bindingsKept : ∀ x ∈ c₀.bindings, x ∈ c.bindings
  bindingsOf : ∀ x ∈ c.bindings, x ∈ c₀.bindings ∨ ∃ name ∈ names, x = adminKeyOf name
  tenants : ∀ key, c.tenant? key = c₀.tenant? key ∨ key ∈ names ∧ c.tenant? key = c₀.recorded? key

theorem Between.refl (sound : c.Sound) : Between names c c where
  faults := rfl
  keys := sound.keys
  namespacesSorted := sound.namespaces
  bindingsSorted := sound.bindings
  namespacesKept _ present := present
  namespacesOf _ present := .inl present
  bindingsKept _ present := present
  bindingsOf _ present := .inl present
  tenants _ := .inl rfl

/-- Adding the namespace of a name asked for stays on the way. -/
theorem Between.addNamespace (between : Between names c₀ c) (asked : name ∈ names) :
    Between names c₀ { c with namespaces := (create (namespaceOf name) c.namespaces).2 } where
  __ := between
  namespacesSorted := sorted_create between.namespacesSorted
  namespacesKept x present := mem_create.mpr (.inr (between.namespacesKept x present))
  namespacesOf x present := by
    rcases mem_create.mp present with rfl | before
    · exact .inr ⟨name, asked, rfl⟩
    · exact between.namespacesOf x before

theorem Between.addBinding (between : Between names c₀ c) (asked : name ∈ names) :
    Between names c₀ { c with bindings := (create (adminKeyOf name) c.bindings).2 } where
  __ := between
  bindingsSorted := sorted_create between.bindingsSorted
  bindingsKept x present := mem_create.mpr (.inr (between.bindingsKept x present))
  bindingsOf x present := by
    rcases mem_create.mp present with rfl | before
    · exact .inr ⟨name, asked, rfl⟩
    · exact between.bindingsOf x before

theorem Between.record (between : Between names c₀ c) (asked : name ∈ names)
    (found : c.tenant? name = some tenant) : Between names c₀ (c.record name tenant) where
  __ := between
  keys := between.keys.put
  tenants key := by
    rw [Cluster.record, tenant?_put]
    split_ifs with same
    · subst same
      refine .inr ⟨asked, ?_⟩
      rcases between.tenants key with unchanged | ⟨-, recorded⟩
      · rw [recorded?, ← unchanged, found, Option.map_some]
      · -- recording the namespace a second time changes nothing
        rw [found, recorded?] at recorded
        obtain ⟨before, held, rfl⟩ := Option.map_eq_some_iff.mp recorded.symm
        rw [recorded?, held, Option.map_some, recordNamespace_recordNamespace]
    · exact between.tenants key

/-- Tenants neither go away nor change who they are. -/
theorem Between.live (between : Between names c₀ c) (sound : c₀.Sound) (live : c₀.Live name) :
    ∃ tenant, c.tenant? name = some tenant ∧ tenant.name = name ∧ tenant.isDeleting = false := by
  obtain ⟨tenant, found, alive⟩ := live
  have own := sound.own name tenant found
  rcases between.tenants name with unchanged | ⟨-, recorded⟩
  · exact ⟨tenant, unchanged.trans found, own, alive⟩
  · refine ⟨recordNamespace (some (namespaceOf name)) tenant, ?_, own, alive⟩
    rw [recorded, recorded?, found, Option.map_some]

/-! ## At the end -/

/-- `c` is `c₀` with everything in place that belongs to the tenants called `names`. -/
structure Settled (names : List String) (c₀ c : Cluster) : Prop where
  faults : c.faults = c₀.faults
  keys : KeysSorted c.tenants
  namespacesSorted : c.namespaces.Sorted
  bindingsSorted : c.bindings.Sorted
  namespaces : ∀ x, x ∈ c.namespaces ↔ x ∈ c₀.namespaces ∨ ∃ name ∈ names, x = namespaceOf name
  bindings : ∀ x, x ∈ c.bindings ↔ x ∈ c₀.bindings ∨ ∃ name ∈ names, x = adminKeyOf name
  tenants : ∀ key, c.tenant? key = if key ∈ names then c₀.recorded? key else c₀.tenant? key

/-- A cluster on the way is settled when nothing is missing for any of the tenants. -/
theorem Between.settled (between : Between names c₀ c)
    (namespaced : ∀ name ∈ names, namespaceOf name ∈ c.namespaces)
    (bound : ∀ name ∈ names, adminKeyOf name ∈ c.bindings) (records : ∀ name ∈ names, c.Records name) :
    Settled names c₀ c where
  faults := between.faults
  keys := between.keys
  namespacesSorted := between.namespacesSorted
  bindingsSorted := between.bindingsSorted
  namespaces x := by
    refine ⟨between.namespacesOf x, ?_⟩
    rintro (before | ⟨name, asked, rfl⟩)
    · exact between.namespacesKept x before
    · exact namespaced name asked
  bindings x := by
    refine ⟨between.bindingsOf x, ?_⟩
    rintro (before | ⟨name, asked, rfl⟩)
    · exact between.bindingsKept x before
    · exact bound name asked
  tenants key := by
    rcases between.tenants key with unchanged | ⟨asked, recorded⟩
    · split_ifs with asked
      · have records := records key asked
        rw [← recorded?_of_records records, recorded?, recorded?, unchanged]
      · exact unchanged
    · rw [if_pos asked, recorded]

/-- Whoever settles the same tenants comes to the same cluster. -/
theorem Settled.unique (first : Settled names c₀ c) (second : Settled more c₀ c')
    (same : ∀ name, name ∈ names ↔ name ∈ more) : c = c' := by
  have tenants : c.tenants = c'.tenants := first.keys.ext second.keys fun key => by
    simp only [first.tenants, second.tenants, same]
  have namespaces : c.namespaces = c'.namespaces :=
    first.namespacesSorted.ext second.namespacesSorted fun x => by
      simp only [first.namespaces, second.namespaces, same]
  have bindings : c.bindings = c'.bindings :=
    first.bindingsSorted.ext second.bindingsSorted fun x => by
      simp only [first.bindings, second.bindings, same]
  have faults : c.faults = c'.faults := first.faults.trans second.faults.symm
  cases c
  cases c'
  simp only at tenants namespaces bindings faults
  rw [tenants, namespaces, bindings, faults]

theorem Settled.refl (sound : c.Sound) : Settled [] c c :=
  (Between.refl sound).settled (List.forall_mem_nil _) (List.forall_mem_nil _) (List.forall_mem_nil _)

/-- What is settled in two goes is settled. -/
theorem Settled.trans (first : Settled names c₀ c) (second : Settled more c c') :
    Settled (names ++ more) c₀ c' where
  faults := second.faults.trans first.faults
  keys := second.keys
  namespacesSorted := second.namespacesSorted
  bindingsSorted := second.bindingsSorted
  namespaces x := by
    rw [second.namespaces, first.namespaces, or_assoc]
    simp only [List.mem_append, or_and_right, exists_or]
  bindings x := by
    rw [second.bindings, first.bindings, or_assoc]
    simp only [List.mem_append, or_and_right, exists_or]
  tenants key := by
    rw [second.tenants, recorded?, first.tenants]
    by_cases before : key ∈ names
    · rw [if_pos before, if_pos (List.mem_append_left _ before), recorded?, Option.map_map]
      exact ite_self _
    · by_cases after : key ∈ more
      · rw [if_pos after, if_neg before, if_pos (List.mem_append_right _ after), recorded?]
      · rw [if_neg after, if_neg before, if_neg fun asked => (List.mem_append.mp asked).elim before after]

theorem Settled.sound (settled : Settled names c₀ c) (sound : c₀.Sound) : c.Sound where
  keys := settled.keys
  own key tenant found := by
    rw [settled.tenants] at found
    split_ifs at found
    · obtain ⟨before, held, rfl⟩ := Option.map_eq_some_iff.mp found
      exact sound.own key before held
    · exact sound.own key tenant found
  namespaces := settled.namespacesSorted
  bindings := settled.bindingsSorted

/-- Settling a name removes no tenant. -/
theorem Settled.live (settled : Settled names c₀ c) (live : c₀.Live name) : c.Live name := by
  obtain ⟨tenant, found, alive⟩ := live
  rw [Live, settled.tenants]
  split_ifs
  · exact ⟨recordNamespace (some (namespaceOf name)) tenant,
      by rw [recorded?, found, Option.map_some], alive⟩
  · exact ⟨tenant, found, alive⟩

end Tenancy.Cluster
