import Tenancy.Proofs.Cluster.Memory
import Tenancy.Proofs.Tenant.Ownership
import Tenancy.Reconcile.Run

/-! # One step of a reconcile

A call that meets no error does one thing: the look-up gives the tenant, a creation adds a name and says
whether it was new, and the last call records the namespace. `Called` lists all that a call can do, errors
included, and `reconcileTenant_keeps` carries what every call keeps to the end of a reconcile.
-/

namespace Tenancy

variable {name other : String} {tenant : Tenant} {c : Cluster}

/-! ## Names -/

/-- The binding of a tenant among all bindings. -/
def adminKeyOf (name : String) : String := namespaceOf name ++ "/" ++ adminBindingName

/-- A tenant's binding is in the tenant's namespace alone. -/
theorem eq_namespaceOf {x : String} (same : x ++ "/" ++ adminBindingName = adminKeyOf name) :
    x = namespaceOf name := by
  rw [adminKeyOf, String.ext_iff, String.toList_append, String.toList_append,
    String.toList_append, String.toList_append] at same
  exact String.ext (List.append_cancel_right (List.append_cancel_right same))

theorem adminKeyOf_injective : Function.Injective adminKeyOf := fun _ _ same =>
  namespaceOf_injective (eq_namespaceOf same)

theorem bindingKey_adminBinding : Cluster.bindingKey tenant.adminBinding = adminKeyOf tenant.name := by
  simp [Tenant.adminBinding, Cluster.bindingKey, adminKeyOf, Metadata.name?, Metadata.namespace?,
    Metadata.text?, Json.lookup, Json.text?, Tenant.namespaceName]

def Call.kind : Call → CallKind
  | .getTenant _ => .getTenant
  | .createNamespace _ _ => .createNamespace
  | .createBinding _ _ => .createBinding
  | .patchStatus _ _ => .patchStatus

namespace Cluster

/-- No call meets an error. -/
def Faultless (c : Cluster) : Prop := ∀ kind, c.faults kind = []

/-- The tenant under its key with its namespace recorded. -/
def record (name : String) (tenant : Tenant) (c : Cluster) : Cluster :=
  c.put name (recordNamespace (some (namespaceOf name)) tenant)

/-- A call that is to meet no failure has its effect. -/
theorem attempt_of_quiet {α : Type} {kind : CallKind} (quiet : c.faults kind = [])
    (effect : Cluster → Except Failure α × Cluster) : attempt kind effect c = effect c := by
  rw [attempt, fault?, quiet]

private theorem attempt_of_fault {α : Type} {kind : CallKind} {e : Failure} {rest : List Failure}
    (fault : c.faults kind = e :: rest) (effect : Cluster → Except Failure α × Cluster) :
    attempt kind effect c =
      (.error e, { c with faults := fun k => if k = kind then rest else c.faults k }) := by
  rw [attempt, fault?, fault]

end Cluster

namespace Run

open Cluster (client create)

/-! ## Steps -/

/-- Reading finds the tenant as it is stored and changes nothing. -/
theorem step_reading (quiet : c.faults .getTenant = []) :
    (reading name).step client c = (afterReading name (c.tenant? name), c) := by
  simp only [step, client, Cluster.attempt_of_quiet quiet, proceed]

/-- Then the namespace is put in place, and the run remembers whether it was new. -/
theorem step_settling (quiet : c.faults .createNamespace = []) :
    (settling name tenant).step client c =
      (binding name tenant (decide (tenant.namespaceName ∉ c.namespaces)),
        { c with namespaces := (create tenant.namespaceName c.namespaces).2 }) := by
  simp only [step, client, Cluster.attempt_of_quiet quiet, proceed, namespaceResource_name,
    Option.getD_some, Cluster.isNew_create]

/-- Then the binding, in the same way. -/
theorem step_binding (quiet : c.faults .createBinding = []) (createdNamespace : Bool) :
    (binding name tenant createdNamespace).step client c =
      (afterBinding name tenant createdNamespace (decide (adminKeyOf tenant.name ∉ c.bindings)),
        { c with bindings := (create (adminKeyOf tenant.name) c.bindings).2 }) := by
  simp only [step, client, Cluster.attempt_of_quiet quiet, proceed, bindingKey_adminBinding,
    Cluster.isNew_create]

/-- Last the namespace is recorded with the tenant, as it is stored by then. -/
theorem step_recording (quiet : c.faults .patchStatus = []) {stored : Tenant}
    (found : c.tenant? name = some stored) (createdNamespace createdBinding : Bool) :
    (recording name tenant createdNamespace createdBinding).step client c =
      (finished (.ok (.converged tenant.namespaceName createdNamespace createdBinding true)),
        c.put name (Cluster.recordNamespace (some tenant.namespaceName) stored)) := by
  simp only [step, client, Cluster.attempt_of_quiet quiet, proceed, Cluster.patch, found,
    TenantStatus.withNamespace]

/-- A call that meets an error ends the run, and does nothing else to the cluster. -/
theorem step_of_fault {run : Run} {call : Call} {e : Failure} {rest : List Failure}
    (calling : run.call? = some call) (fault : c.faults call.kind = e :: rest) :
    run.step client c =
      (finished (.error e), { c with faults := fun k => if k = call.kind then rest else c.faults k }) := by
  cases run <;> cases calling <;> simp only [Call.kind] at fault <;>
    simp only [step, client, Cluster.attempt_of_fault fault, proceed] <;> rfl

theorem step_finished {σ : Type} (client : Client σ) (result : Except Failure Outcome) (s : σ) :
    (finished result).step client s = (finished result, s) := rfl

/-- All that one call of a run can do: where the run stands afterwards, and the cluster. A call that
meets an error changes nothing but the errors ahead, and so does a status write that finds no tenant. -/
inductive Called (c : Cluster) : Run → Run → Cluster → Prop where
  | failed {run : Run} {kind : CallKind} (going : run.result? = none) (fault : c.faults kind ≠ [])
    (e : Failure) (left : CallKind → List Failure) :
    Called c run (finished (.error e)) { c with faults := left }
  | lost {name : String} {tenant : Tenant} {createdNamespace createdBinding : Bool}
    (absent : c.tenant? name = none) (e : Failure) :
    Called c (recording name tenant createdNamespace createdBinding) (finished (.error e)) c
  | read {name : String} (quiet : c.faults .getTenant = []) :
    Called c (reading name) (afterReading name (c.tenant? name)) c
  | namespaced {name : String} {tenant : Tenant} (quiet : c.faults .createNamespace = []) :
    Called c (settling name tenant) (binding name tenant (decide (tenant.namespaceName ∉ c.namespaces)))
      { c with namespaces := (create tenant.namespaceName c.namespaces).2 }
  | bound {name : String} {tenant : Tenant} {createdNamespace : Bool}
    (quiet : c.faults .createBinding = []) :
    Called c (binding name tenant createdNamespace)
      (afterBinding name tenant createdNamespace (decide (adminKeyOf tenant.name ∉ c.bindings)))
      { c with bindings := (create (adminKeyOf tenant.name) c.bindings).2 }
  | recorded {name : String} {tenant stored : Tenant} {createdNamespace createdBinding : Bool}
    (found : c.tenant? name = some stored) :
    Called c (recording name tenant createdNamespace createdBinding)
      (finished (.ok (.converged tenant.namespaceName createdNamespace createdBinding true)))
      (c.put name (Cluster.recordNamespace (some tenant.namespaceName) stored))
  | ended (result : Except Failure Outcome) : Called c (finished result) (finished result) c

variable {run run' : Run} {c' : Cluster}

/-- A call leaves every tenant under its own name. -/
theorem Called.own (called : Called c run run' c') (own : c.Own) : c'.Own := by
  cases called with
  | @recorded name _ stored _ _ found =>
    have named : stored.name = name := own name stored found
    exact own.put named
  | failed => exact own
  | lost => exact own
  | read => exact own
  | namespaced => exact own
  | bound => exact own
  | ended => exact own

/-- A call neither adds nor removes a tenant. -/
theorem Called.tenant?_eq_none (called : Called c run run' c') (other : String) :
    c'.tenant? other = none ↔ c.tenant? other = none := by
  cases called with
  | recorded found =>
    rw [Cluster.tenant?_put]
    split_ifs with same
    · rw [same, found]
      exact ⟨nofun, nofun⟩
    · rfl
  | failed => rfl
  | lost => rfl
  | read => rfl
  | namespaced => rfl
  | bound => rfl
  | ended => rfl

/-- Calls add names and take none away. -/
theorem Called.grows (called : Called c run run' c') :
    c.namespaces ⊆ c'.namespaces ∧ c.bindings ⊆ c'.bindings := by
  cases called with
  | namespaced => exact ⟨fun x there => Cluster.mem_create.mpr (.inr there), List.Subset.refl _⟩
  | bound => exact ⟨List.Subset.refl _, fun x there => Cluster.mem_create.mpr (.inr there)⟩
  | failed => exact ⟨List.Subset.refl _, List.Subset.refl _⟩
  | lost => exact ⟨List.Subset.refl _, List.Subset.refl _⟩
  | read => exact ⟨List.Subset.refl _, List.Subset.refl _⟩
  | recorded => exact ⟨List.Subset.refl _, List.Subset.refl _⟩
  | ended => exact ⟨List.Subset.refl _, List.Subset.refl _⟩

/-- Every step of a run does what its call says, or fails and leaves the objects alone. -/
theorem called_step (run : Run) (c : Cluster) :
    Called c run (run.step client c).1 (run.step client c).2 := by
  cases calling : run.call? with
  | none =>
    cases run with
    | finished result => exact .ended result
    | _ => cases calling
  | some call =>
    cases fault : c.faults call.kind with
    | cons e rest =>
      have going : run.result? = none := by cases run <;> first | rfl | cases calling
      rw [step_of_fault calling fault]
      exact .failed going (fault ▸ List.cons_ne_nil e rest) e _
    | nil =>
      cases run with
      | reading name => cases calling; rw [step_reading fault]; exact .read fault
      | settling name tenant => cases calling; rw [step_settling fault]; exact .namespaced fault
      | binding name tenant createdNamespace => cases calling; rw [step_binding fault]; exact .bound fault
      | recording name tenant createdNamespace createdBinding =>
        cases calling
        cases found : c.tenant? name with
        | some stored => rw [step_recording fault found]; exact .recorded found
        | none =>
          simp only [Call.kind] at fault
          simp only [step, client, Cluster.attempt_of_quiet fault, Cluster.patch, found, proceed]
          exact .lost found _
      | finished result => cases calling

/-! ## Runs to the end -/

variable {σ : Type} {client : Client σ}

theorem finish_finished (result : Except Failure Outcome) (s : σ) :
    (finished result).finish client s = (result, s) := by
  rw [finish]
  rfl

/-- Finishing a run that goes on is taking one step and finishing what is left. -/
theorem finish_step {run : Run} (s : σ) (going : run.result? = none) :
    run.finish client s = (run.step client s).1.finish client (run.step client s).2 := by
  rw [finish]
  split
  · next result ended => rw [going] at ended; cases ended
  · rfl

/-- What every call of a run keeps holds at its end. -/
theorem finish_keeps (client : Client σ) (Holds : Run → σ → Prop)
    (keeps : ∀ run s, Holds run s → Holds (run.step client s).1 (run.step client s).2)
    (run : Run) (s : σ) (holds : Holds run s) :
    Holds (finished (run.finish client s).1) (run.finish client s).2 := by
  fun_induction finish client run s with
  | case1 run s result ended =>
    cases run with
    | finished r => cases ended; exact holds
    | _ => cases ended
  | case2 run s going ih => exact ih (keeps run s holds)

/-- A run has no result as long as steps remain. -/
theorem result?_eq_none_iff {run : Run} : run.result? = none ↔ 0 < run.remaining := by
  cases run <;> simp [result?, remaining]

end Run

/-- What every call keeps holds at the end of a reconcile. -/
theorem reconcileTenant_keeps {σ : Type} (client : Client σ) (Holds : Run → σ → Prop)
    (keeps : ∀ run s, Holds run s → Holds (run.step client s).1 (run.step client s).2)
    {name : String} {s : σ} (holds : Holds (.start name) s) :
    Holds (.finished (reconcileTenant client name s).1) (reconcileTenant client name s).2 :=
  Run.finish_keeps client Holds keeps (.start name) s holds

/-- A client that answers as another one does, and keeps something besides, changes neither the result of a
reconcile nor the state it leaves. -/
theorem reconcileTenant_observed {σ τ : Type} {client : Client σ} {observer : Client (σ × τ)}
    (observes : ∀ run s kept, (Run.step observer run (s, kept)).1 = (Run.step client run s).1 ∧
      (Run.step observer run (s, kept)).2.1 = (Run.step client run s).2)
    (name : String) (s : σ) (kept : τ) :
    (reconcileTenant observer name (s, kept)).1 = (reconcileTenant client name s).1 ∧
    (reconcileTenant observer name (s, kept)).2.1 = (reconcileTenant client name s).2 := by
  -- what is still to be done from where the observed run stands comes to the same end
  have same := reconcileTenant_keeps observer
    (fun run observed => run.finish client observed.1 = reconcileTenant client name s)
    (fun run observed holds => by
      rw [(observes run observed.1 observed.2).1, (observes run observed.1 observed.2).2]
      cases going : run.result? with
      | none => rwa [Run.finish_step _ going] at holds
      | some result =>
        cases run with
        | finished result => exact holds
        | _ => cases going)
    (show (Run.start name).finish client (s, kept).1 = _ from rfl)
  rw [Run.finish_finished] at same
  exact Prod.mk.inj same

end Tenancy
