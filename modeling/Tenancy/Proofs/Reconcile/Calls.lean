import Tenancy.Proofs.Reconcile.Steps

/-! # The calls that a reconcile makes

The calls are kept by a client that answers as another one does. On a cluster in memory a call that meets no
error does what it is for, told by the call alone; and a call that meets an error is the last one.
-/

namespace Tenancy

variable {σ : Type} {key : String} {tenant : Tenant} {c : Cluster} {run : Run} {call : Call}

/-! ## Keeping the calls -/

/-- Logging a client adds the call that a step makes and changes nothing else. -/
theorem Run.step_logged (client : Client σ) (run : Run) (s : σ) (log : List Call) :
    run.step client.logged (s, log) =
      ((run.step client s).1, (run.step client s).2, run.call?.toList ++ log) := by
  cases run <;> rfl

/-- The calls that a reconcile makes, in order. -/
def callsMade (client : Client σ) (name : String) (s : σ) : List Call :=
  (reconcileTenant client.logged name (s, [])).2.2.reverse

/-- Nor does it change what a whole reconcile does. -/
theorem reconcileTenant_logged (client : Client σ) (name : String) (s : σ) (log : List Call) :
    (reconcileTenant client.logged name (s, log)).1 = (reconcileTenant client name s).1 ∧
    (reconcileTenant client.logged name (s, log)).2.1 = (reconcileTenant client name s).2 :=
  reconcileTenant_observed (fun run s log => by simp only [Run.step_logged, and_self]) name s log

/-- What every call keeps, of a state and the calls that led there, holds at the end of a reconcile. -/
theorem reconcileTenant_keeps_calls (client : Client σ) (Holds : Run → σ → List Call → Prop)
    (keeps : ∀ run s calls, Holds run s calls →
      Holds (run.step client s).1 (run.step client s).2 (calls ++ run.call?.toList))
    {name : String} {s : σ} (holds : Holds (.start name) s []) :
    Holds (.finished (reconcileTenant client name s).1) (reconcileTenant client name s).2
      (callsMade client name s) := by
  have kept := reconcileTenant_keeps client.logged (fun run s => Holds run s.1 s.2.reverse)
    (fun run s holds => by
      have single : run.call?.toList.reverse = run.call?.toList := by
        cases run.call? <;> rfl
      rw [Run.step_logged, List.reverse_append, single]
      exact keeps run s.1 s.2.reverse holds)
    (show Holds (.start name) (s, []).1 (s, []).2.reverse from holds)
  obtain ⟨result, last⟩ := reconcileTenant_logged client name s []
  rw [result, last] at kept
  exact kept

/-! ## What calls do to a cluster in memory -/

/-- What a call does that meets no error. -/
def Call.perform : Call → Cluster → Cluster
  | .getTenant _, c => c
  | .createNamespace _ object, c =>
    { c with namespaces := (Cluster.create (object.metadata.name?.getD "") c.namespaces).2 }
  | .createBinding _ object, c =>
    { c with bindings := (Cluster.create (Cluster.bindingKey object) c.bindings).2 }
  | .patchStatus key status, c => (Cluster.patch key status c).2

theorem perform_createNamespace : (Call.createNamespace key tenant.namespaceResource).perform c =
    { c with namespaces := (Cluster.create tenant.namespaceName c.namespaces).2 } := by
  rw [Call.perform, namespaceResource_name]
  rfl

theorem perform_createBinding : (Call.createBinding key tenant.adminBinding).perform c =
    { c with bindings := (Cluster.create (adminKeyOf tenant.name) c.bindings).2 } := by
  rw [Call.perform, bindingKey_adminBinding]

/-- Patching the status of a stored tenant records its namespace. -/
theorem perform_patchStatus {stored : Tenant} (found : c.tenant? key = some stored) (ns : String) :
    (Call.patchStatus key (.withNamespace ns)).perform c =
      c.put key (Cluster.recordNamespace (some ns) stored) := by
  simp only [Call.perform, Cluster.patch, found, TenantStatus.withNamespace]

theorem faults_perform (call : Call) (c : Cluster) : (call.perform c).faults = c.faults := by
  cases call with
  | patchStatus key status =>
    rw [Call.perform, Cluster.patch]
    split <;> rfl
  | _ => rfl

/-- What calls do, one after the other, that meet no error. -/
def performAll (calls : List Call) (c : Cluster) : Cluster := calls.foldl (fun c call => call.perform c) c

theorem performAll_concat (calls : List Call) (call : Call) (c : Cluster) :
    performAll (calls ++ [call]) c = call.perform (performAll calls c) := by
  rw [performAll, List.foldl_concat, ← performAll]

theorem faults_performAll (calls : List Call) (c : Cluster) : (performAll calls c).faults = c.faults := by
  induction calls generalizing c with
  | nil => rfl
  | cons call calls ih => exact (ih (call.perform c)).trans (faults_perform call c)

/-- A call that meets no error does what it is for. -/
theorem Run.step_of_quiet (calling : run.call? = some call) (quiet : c.faults call.kind = []) :
    (run.step Cluster.client c).2 = call.perform c := by
  cases run <;> cases calling <;> simp only [Call.kind] at quiet <;>
    simp only [step, Cluster.client, Cluster.attempt_of_quiet quiet] <;> rfl

end Tenancy
