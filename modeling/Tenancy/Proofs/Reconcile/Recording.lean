import Tenancy.Proofs.Reconcile.Interleaving

/-! # What a status records is there

Tenants come and go while reconciles are under way, calls fail, and reconciles are given up between two
calls. A run may then write the status of a tenant that is not the one it has read. Whenever a status
records a namespace, it is the tenant's own all the same, and that namespace and the binding in it are
there: a run writes a status only after both have been created (`Relies`), and neither goes away.
-/

namespace Tenancy

open Cluster (client create)

/-! ## What happens to a cluster -/

/-- Something that happens while reconciles are under way. -/
inductive Happening where
  /-- A tenant is stored under its own name, in exchange for one that is there. -/
  | store (tenant : Tenant)
  /-- A tenant is removed. -/
  | remove (name : String)
  /-- A namespace is added from outside. -/
  | addNamespace (name : String)
  /-- The coming calls of a kind will fail that many times. -/
  | fault (kind : CallKind) (error : Failure) (times : Nat)
  /-- A reconcile starts. -/
  | start (name : String)
  /-- The run with that index makes its next call. -/
  | turn (index : Nat)
  /-- The run with that index is given up where it stands. -/
  | abandon (index : Nat)

namespace Flight

/-- The runs and the cluster after a happening. -/
def meet (f : Flight) : Happening → Flight
  | .store tenant => { f with cluster := f.cluster.put tenant.name tenant }
  | .remove name => { f with cluster := f.cluster.remove name }
  | .addNamespace name => { f with cluster := f.cluster.addNamespace name }
  | .fault kind error times => { f with cluster := f.cluster.addFault kind error times }
  | .start name => { f with runs := f.runs ++ [(name, .start name)] }
  | .turn index => f.turn index
  | .abandon index => { f with runs := f.runs.eraseIdx index }

/-- The runs and the cluster after all that has happened, from an empty cluster on. -/
def after (happenings : List Happening) : Flight := happenings.foldl meet ⟨[], {}⟩

end Flight

/-! ## What holds all along -/

namespace Cluster

/-- Tenants are stored under their own names, a binding is in a namespace that is there, and what a status
records is the tenant's own namespace, with the binding in it. -/
structure Backed (c : Cluster) : Prop where
  own : c.Own
  bindings : ∀ x, x ++ "/" ++ adminBindingName ∈ c.bindings → x ∈ c.namespaces
  recorded : ∀ name tenant x, c.tenant? name = some tenant → tenant.recordedNamespace = some x →
    x = namespaceOf name ∧ adminKeyOf name ∈ c.bindings

variable {c : Cluster} {key : String} {tenant : Tenant}

/-- A tenant may be stored if what it records is in place. -/
theorem Backed.put (backed : c.Backed) (own : tenant.name = key)
    (recorded : ∀ x, tenant.recordedNamespace = some x →
      x = namespaceOf key ∧ adminKeyOf key ∈ c.bindings) :
    (c.put key tenant).Backed := by
  refine ⟨backed.own.put own, backed.bindings, fun name stored x found records => ?_⟩
  rw [tenant?_put] at found
  split_ifs at found with same
  · cases found
    rw [same]
    exact recorded x records
  · exact backed.recorded name stored x found records

/-- Nothing that another tenant records goes away with a removed one. -/
theorem Backed.remove (backed : c.Backed) (key : String) : (c.remove key).Backed := by
  refine ⟨backed.own.remove key, backed.bindings, fun name stored x found => ?_⟩
  rw [tenant?_remove] at found
  split_ifs at found
  exact backed.recorded name stored x found

theorem Backed.addNamespace (backed : c.Backed) (added : String) : (c.addNamespace added).Backed :=
  ⟨backed.own, fun x there => NameSet.mem_add.mpr (.inr (backed.bindings x there)), backed.recorded⟩

end Cluster

namespace Run

/-- What a run for the tenant called `name` relies on where it stands, whatever has become of the tenant
that it has read. -/
inductive Relies (c : Cluster) (name : String) : Run → Prop where
  | reading : Relies c name (reading name)
  | settling {tenant : Tenant} (own : tenant.name = name) : Relies c name (settling name tenant)
  | binding {tenant : Tenant} (own : tenant.name = name) (namespaced : namespaceOf name ∈ c.namespaces)
    (createdNamespace : Bool) : Relies c name (binding name tenant createdNamespace)
  | recording {tenant : Tenant} (own : tenant.name = name) (bound : adminKeyOf name ∈ c.bindings)
    (createdNamespace createdBinding : Bool) :
    Relies c name (recording name tenant createdNamespace createdBinding)
  | finished (result : Except Failure Outcome) : Relies c name (finished result)

variable {c c' : Cluster} {name : String} {run run' : Run}

/-- A run may still rely on what it needs when the cluster only gains. -/
theorem Relies.mono (relies : run.Relies c name) (namespaces : c.namespaces ⊆ c'.namespaces)
    (bindings : c.bindings ⊆ c'.bindings) : run.Relies c' name := by
  cases relies with
  | reading => exact .reading
  | settling own => exact .settling own
  | binding own namespaced => exact .binding own (namespaces namespaced) _
  | recording own bound => exact .recording own (bindings bound) ..
  | finished result => exact .finished result

/-- After its call a run again stands where it may rely on what it needs. -/
theorem Relies.called (relies : run.Relies c name) (backed : c.Backed) (called : Called c run run' c') :
    run'.Relies c' name := by
  cases called with
  | failed going fault e => exact .finished _
  | lost absent e => exact .finished _
  | read quiet =>
    cases relies with
    | reading =>
      cases found : c.tenant? name with
      | none => exact .finished _
      | some tenant =>
        rw [afterReading]
        split_ifs with leaving
        · exact .finished _
        · exact .settling (backed.own name tenant found)
  | namespaced quiet =>
    cases relies with
    | settling own =>
      rw [Tenant.namespaceName, own]
      exact .binding own (Cluster.mem_create.mpr (.inl rfl)) _
  | bound quiet =>
    cases relies with
    | binding own namespaced =>
      rw [own, afterBinding]
      split_ifs with recorded
      · exact .finished _
      · exact .recording own (Cluster.mem_create.mpr (.inl rfl)) ..
  | recorded found => exact .finished _
  | ended result => exact .finished result

/-- A call of a run that relies on what is there leaves everything backed that is recorded. -/
theorem Relies.backed (relies : run.Relies c name) (backed : c.Backed) (called : Called c run run' c') :
    c'.Backed := by
  have grows := called.grows
  cases called with
  | failed going fault e => exact ⟨backed.own, backed.bindings, backed.recorded⟩
  | lost absent e => exact backed
  | read quiet => exact backed
  | namespaced quiet =>
    exact ⟨backed.own, fun x there => grows.1 (backed.bindings x there), backed.recorded⟩
  | bound quiet =>
    cases relies with
    | binding own namespaced =>
      refine ⟨backed.own, fun x there => ?_, fun other stored x found recorded => ?_⟩
      · rcases Cluster.mem_create.mp there with new | before
        · rw [own] at new
          rw [eq_namespaceOf new]
          exact namespaced
        · exact backed.bindings x before
      · obtain ⟨same, there⟩ := backed.recorded other stored x found recorded
        exact ⟨same, grows.2 there⟩
  | @recorded _ _ stored _ _ found =>
    cases relies with
    | recording own bound =>
      -- the tenant under the key may be another one than the run has read, but of the same name
      have stays : stored.name = name := backed.own name stored found
      refine backed.put stays fun x recorded => ⟨?_, bound⟩
      rw [Cluster.recordNamespace_recordedNamespace, Tenant.namespaceName, own] at recorded
      exact (Option.some.inj recorded).symm
  | ended result => exact backed

end Run

/-! ## Every course of events -/

namespace Flight

/-- What is recorded is there, and every run stands where it relies on what is there. -/
structure Reliable (f : Flight) : Prop where
  backed : f.cluster.Backed
  relies : ∀ entry ∈ f.runs, entry.2.Relies f.cluster entry.1

variable {f : Flight}

theorem Reliable.empty : Reliable ⟨[], {}⟩ := by
  refine ⟨⟨?_, ?_, ?_⟩, ?_⟩
  · intro name tenant found
    cases found
  · intro x there
    exact absurd there List.not_mem_nil
  · intro name tenant x found
    cases found
  · intro entry among
    exact absurd among List.not_mem_nil

/-- A turn keeps what the runs rely on, whatever status they have read before. -/
theorem Reliable.turn (reliable : f.Reliable) (index : Nat) : (f.turn index).Reliable := by
  cases present : f.runs[index]? with
  | none => rwa [turn_none present]
  | some entry =>
    obtain ⟨name, run⟩ := entry
    have relies := reliable.relies _ (List.mem_of_getElem? present)
    have called := run.called_step f.cluster
    rw [turn_some present]
    refine ⟨relies.backed reliable.backed called, fun entry among => ?_⟩
    rcases List.mem_or_eq_of_mem_set among with kept | rfl
    · exact (reliable.relies entry kept).mono called.grows.1 called.grows.2
    · exact relies.called reliable.backed called

/-- A cluster that has lost no name serves the runs as before. -/
theorem Reliable.grow (reliable : f.Reliable) {c : Cluster} (backed : c.Backed)
    (namespaces : f.cluster.namespaces ⊆ c.namespaces) (bindings : f.cluster.bindings ⊆ c.bindings) :
    Reliable { f with cluster := c } where
  backed := backed
  relies entry among := (reliable.relies entry among).mono namespaces bindings

/-- Whatever happens, what is recorded stays there, as long as a tenant that is stored records nothing. -/
theorem Reliable.meet (reliable : f.Reliable) (happening : Happening)
    (unrecorded : ∀ tenant, happening = .store tenant → tenant.recordedNamespace = none) :
    (f.meet happening).Reliable := by
  have backed := reliable.backed
  have same (names : NameSet) : names ⊆ names := List.Subset.refl names
  cases happening with
  | store tenant =>
    refine reliable.grow (backed.put rfl fun x recorded => ?_) (same _) (same _)
    rw [unrecorded tenant rfl] at recorded
    cases recorded
  | remove name => exact reliable.grow (backed.remove name) (same _) (same _)
  | addNamespace name =>
    refine reliable.grow (backed.addNamespace name) ?_ (same _)
    intro x there
    exact NameSet.mem_add.mpr (.inr there)
  | fault kind error times =>
    exact reliable.grow ⟨backed.own, backed.bindings, backed.recorded⟩ (same _) (same _)
  | start name =>
    refine ⟨backed, fun entry among => ?_⟩
    rcases List.mem_append.mp among with before | new
    · exact reliable.relies entry before
    · rw [List.mem_singleton.mp new]
      exact .reading
  | turn index => exact reliable.turn index
  | abandon index =>
    exact ⟨backed, fun entry among => reliable.relies entry (List.mem_of_mem_eraseIdx among)⟩

/-- Recorded namespaces are in place after any happenings, if none is stored with one. -/
theorem reliable_after (happenings : List Happening)
    (unrecorded : ∀ tenant, .store tenant ∈ happenings → tenant.recordedNamespace = none) :
    (after happenings).Reliable := by
  suffices ∀ f : Flight, f.Reliable → (happenings.foldl meet f).Reliable from this _ .empty
  induction happenings with
  | nil => exact fun f reliable => reliable
  | cons first rest ih =>
    intro f reliable
    refine ih (fun tenant later => unrecorded tenant (List.mem_cons_of_mem _ later)) (f.meet first) ?_
    exact reliable.meet first fun tenant here => unrecorded tenant (here ▸ List.mem_cons_self ..)

end Flight

/-- A status never runs ahead of the cluster. Whatever has happened, as long as no tenant was stored with
a namespace recorded: a namespace with a tenant's binding in it is there, and a namespace that a status
records is the tenant's own, and is there with the binding in it. -/
theorem recorded_namespace_backed (happenings : List Happening)
    (unrecorded : ∀ tenant, .store tenant ∈ happenings → tenant.recordedNamespace = none) :
    let last := (Flight.after happenings).cluster
    (∀ x, x ++ "/" ++ adminBindingName ∈ last.bindings → x ∈ last.namespaces) ∧
    ∀ name tenant, last.tenant? name = some tenant → ∀ x, tenant.recordedNamespace = some x →
      x = namespaceOf name ∧ x ∈ last.namespaces ∧ x ++ "/" ++ adminBindingName ∈ last.bindings := by
  intro last
  have backed : last.Backed := (Flight.reliable_after happenings unrecorded).backed
  refine ⟨backed.bindings, fun name tenant found x recorded => ?_⟩
  obtain ⟨rfl, bound⟩ := backed.recorded name tenant x found recorded
  exact ⟨rfl, backed.bindings _ bound, bound⟩

def freshTenant (name displayName : String) : Tenant :=
  ⟨⟨[("name", .string name)]⟩, ⟨displayName, none, none, .namespaced, none, none⟩, none⟩

/-- A tenant is removed and stored anew after the first of two reconciles has read it. The second one fails
at the binding and is given up, and the first one writes the status of the new tenant. -/
def reborn : List Happening :=
  [.store (freshTenant "acme" "Acme"), .start "acme", .turn 0, .remove "acme", .turn 0, .start "acme",
    .store (freshTenant "acme" "Acme again"), .turn 1, .turn 1,
    .fault .createBinding (.internal "binding" "timeout") 1, .turn 1, .abandon 1,
    .addNamespace "tenant-globex", .turn 0, .turn 0]

theorem recorded_namespace_backed_reborn :
    let last := (Flight.after reborn).cluster
    (∀ tenant, .store tenant ∈ reborn → tenant.recordedNamespace = none) ∧
    (last.tenant? "acme").bind Tenant.recordedNamespace = some "tenant-acme" ∧
    "tenant-acme" ∈ last.namespaces ∧ "tenant-acme/tenant-admin" ∈ last.bindings := by
  intro last
  have unrecorded : ∀ tenant, .store tenant ∈ reborn → tenant.recordedNamespace = none := by
    intro tenant stored
    simp only [reborn, List.mem_cons, Happening.store.injEq, reduceCtorEq, false_or, List.not_mem_nil,
      or_false] at stored
    rcases stored with rfl | rfl
    · rfl
    · rfl
  have recorded : (last.tenant? "acme").bind Tenant.recordedNamespace = some "tenant-acme" := by
    decide +kernel
  obtain ⟨tenant, found, records⟩ := Option.bind_eq_some_iff.mp recorded
  obtain ⟨-, namespaced, bound⟩ :=
    (recorded_namespace_backed reborn unrecorded).2 "acme" tenant found "tenant-acme" records
  exact ⟨unrecorded, recorded, namespaced, bound⟩

end Tenancy
