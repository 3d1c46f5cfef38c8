import Tenancy.Proofs.Reconcile.Settling

/-! # One run among others

A run may act on a tenant that others have changed since it was read. What it relies on all the same
is never undone: `Stands` says where a run may stand in a cluster, and a call of any run has one of a
few effects, which leave every other run where it may stand.
-/

namespace Tenancy

open Cluster (Between client)

namespace Run

def madeNamespace : Run → Bool
  | binding _ _ made => made
  | recording _ _ made _ => made
  | finished (.ok (.converged _ made _ _)) => made
  | _ => false

def madeBinding : Run → Bool
  | recording _ _ _ made => made
  | finished (.ok (.converged _ _ made _)) => made
  | _ => false

/-! ## Where a run may stand -/

/-- What a run may know of its tenant: who it is, and nothing of the status that is no longer so. -/
structure Knows (c : Cluster) (name : String) (tenant : Tenant) : Prop where
  own : tenant.name = name
  recorded : tenant.recordedNamespace = some (namespaceOf name) → c.Records name

/-- Where a run for the tenant called `name` may stand while the cluster is `c`. -/
inductive Stands (c : Cluster) (name : String) : Run → Prop where
  | reading : Stands c name (reading name)
  | settling {tenant : Tenant} (knows : Knows c name tenant) : Stands c name (settling name tenant)
  | binding {tenant : Tenant} (knows : Knows c name tenant) (namespaced : namespaceOf name ∈ c.namespaces)
    (made : Bool) : Stands c name (binding name tenant made)
  | recording {tenant : Tenant} (knows : Knows c name tenant)
    (namespaced : namespaceOf name ∈ c.namespaces) (bound : adminKeyOf name ∈ c.bindings)
    (madeNamespace madeBinding : Bool) :
    Stands c name (recording name tenant madeNamespace madeBinding)
  | finished (namespaced : namespaceOf name ∈ c.namespaces) (bound : adminKeyOf name ∈ c.bindings)
    (records : c.Records name) (madeNamespace madeBinding updated : Bool) :
    Stands c name
      (finished (.ok (.converged (namespaceOf name) madeNamespace madeBinding updated)))

/-- Nothing that runs rely on goes away. -/
structure Grows (c c' : Cluster) : Prop where
  namespaces : ∀ x ∈ c.namespaces, x ∈ c'.namespaces
  bindings : ∀ x ∈ c.bindings, x ∈ c'.bindings
  records : ∀ name, c.Records name → c'.Records name

variable {c c' : Cluster} {name : String} {run run' : Run} {tenant : Tenant}

theorem Grows.refl : Grows c c := ⟨fun _ => id, fun _ => id, fun _ => id⟩

/-- What a run knows stays true while the cluster grows. -/
theorem Knows.mono (knows : Knows c name tenant) (grows : Grows c c') : Knows c' name tenant :=
  ⟨knows.own, fun recorded => grows.records name (knows.recorded recorded)⟩

/-- So a run may stand where it stands while others go on. -/
theorem Stands.mono (stands : Stands c name run) (grows : Grows c c') : Stands c' name run := by
  cases stands with
  | reading => exact .reading
  | settling knows => exact .settling (knows.mono grows)
  | binding knows namespaced made =>
    exact .binding (knows.mono grows) (grows.namespaces _ namespaced) made
  | recording knows namespaced bound a b =>
    exact .recording (knows.mono grows) (grows.namespaces _ namespaced) (grows.bindings _ bound) a b
  | finished namespaced bound records a b updated =>
    exact .finished (grows.namespaces _ namespaced) (grows.bindings _ bound)
      (grows.records _ records) a b updated

/-- A run that has ended has converged, and everything is in place that it is for. -/
theorem Stands.converged {result : Except Failure Outcome} (stands : Stands c name run)
    (ended : run.result? = some result) :
    (∃ madeNamespace madeBinding updated, result =
      .ok (.converged (namespaceOf name) madeNamespace madeBinding updated)) ∧
    namespaceOf name ∈ c.namespaces ∧ adminKeyOf name ∈ c.bindings ∧ c.Records name := by
  cases stands with
  | finished namespaced bound records a b updated =>
    cases ended
    exact ⟨⟨a, b, updated, rfl⟩, namespaced, bound, records⟩
  | _ => cases ended

/-! ## What a call does -/

/-- What one call of a run does: nothing to the cluster, or one of the three things that a run is for.
Only the creations tell which run made the object. -/
inductive Effect (name : String) (c : Cluster) (run : Run) : Run → Cluster → Prop where
  | quiet {run' : Run} (namespaces : run'.madeNamespace = run.madeNamespace)
    (bindings : run'.madeBinding = run.madeBinding) : Effect name c run run' c
  | namespaced {run' : Run} (before : run.madeNamespace = false)
    (after : run'.madeNamespace = decide (namespaceOf name ∉ c.namespaces))
    (bindings : run'.madeBinding = run.madeBinding) :
    Effect name c run run' { c with namespaces := (Cluster.create (namespaceOf name) c.namespaces).2 }
  | bound {run' : Run} (namespaces : run'.madeNamespace = run.madeNamespace)
    (before : run.madeBinding = false)
    (after : run'.madeBinding = decide (adminKeyOf name ∉ c.bindings)) :
    Effect name c run run' { c with bindings := (Cluster.create (adminKeyOf name) c.bindings).2 }
  | recorded {run' : Run} {tenant : Tenant} (found : c.tenant? name = some tenant)
    (namespaces : run'.madeNamespace = run.madeNamespace)
    (bindings : run'.madeBinding = run.madeBinding) : Effect name c run run' (c.record name tenant)

theorem records_record : (c.record name tenant).Records name := by
  rw [Cluster.Records, Cluster.record, Cluster.tenant?_put, if_pos rfl]
  rfl

theorem Grows.addNamespace (x : String) :
    Grows c { c with namespaces := (Cluster.create x c.namespaces).2 } :=
  { Grows.refl with namespaces := fun _ present => Cluster.mem_create.mpr (.inr present) }

theorem Grows.addBinding (x : String) :
    Grows c { c with bindings := (Cluster.create x c.bindings).2 } :=
  { Grows.refl with bindings := fun _ present => Cluster.mem_create.mpr (.inr present) }

theorem Grows.record : Grows c (c.record name tenant) :=
  { Grows.refl with
    records := fun other records => by
      by_cases same : other = name
      · subst same
        exact records_record
      · rw [Cluster.Records, Cluster.record, Cluster.tenant?_put, if_neg same]
        exact records }

/-- No call takes anything away. -/
theorem Effect.grows (effect : Effect name c run run' c') : Grows c c' := by
  cases effect with
  | quiet => exact .refl
  | namespaced => exact .addNamespace _
  | bound => exact .addBinding _
  | recorded => exact .record

variable {c₀ : Cluster} {names : List String}

/-- Each call of a run for a name asked for stays on the way. -/
theorem Effect.between (effect : Effect name c run run' c') (between : Between names c₀ c)
    (asked : name ∈ names) : Between names c₀ c' := by
  cases effect with
  | quiet => exact between
  | namespaced => exact between.addNamespace asked
  | bound => exact between.addBinding asked
  | recorded found => exact between.record asked found

/-- A run that stands where it may makes a call with one of the effects, and stands where it may. -/
theorem Stands.step (stands : Stands c name run) (faultless : c.Faultless)
    (found : c.tenant? name = some tenant) (own : tenant.name = name) (alive : tenant.isDeleting = false) :
    Effect name c run (run.step client c).1 (run.step client c).2 ∧
      Stands (run.step client c).2 name (run.step client c).1 := by
  cases stands with
  | reading =>
    rw [step_reading (faultless _), found, afterReading, alive, if_neg Bool.false_ne_true]
    refine ⟨.quiet rfl rfl, .settling ⟨own, fun recorded => ?_⟩⟩
    rw [Cluster.Records, found]
    exact recorded
  | settling knows =>
    rw [step_settling (faultless _), Tenant.namespaceName, knows.own]
    exact ⟨.namespaced rfl rfl rfl,
      .binding (knows.mono (.addNamespace _)) (Cluster.mem_create.mpr (.inl rfl)) _⟩
  | binding knows namespaced made =>
    rw [step_binding (faultless _), afterBinding, Tenant.namespaceName, knows.own]
    have grows : Grows c { c with bindings := (Cluster.create (adminKeyOf name) c.bindings).2 } :=
      .addBinding _
    have namespaced := grows.namespaces _ namespaced
    split_ifs with recorded
    · exact ⟨.bound rfl rfl rfl, .finished namespaced (Cluster.mem_create.mpr (.inl rfl))
        (grows.records _ (knows.recorded recorded)) ..⟩
    · exact ⟨.bound rfl rfl rfl,
        .recording (knows.mono grows) namespaced (Cluster.mem_create.mpr (.inl rfl)) ..⟩
  | recording knows namespaced bound a b =>
    rw [step_recording (faultless _) found, Tenant.namespaceName, knows.own]
    have grows : Grows c (c.record name tenant) := .record
    exact ⟨.recorded found rfl rfl, .finished (grows.namespaces _ namespaced) (grows.bindings _ bound)
      records_record ..⟩
  | finished namespaced bound records a b updated =>
    exact ⟨.quiet rfl rfl, .finished namespaced bound records a b updated⟩

end Run

end Tenancy
