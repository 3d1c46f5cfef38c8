import Tenancy.Reconcile.Client

/-! # Reconciling one tenant

A run reads the tenant, creates its namespace, creates the binding in it and, unless the status
already says so, records the namespace. It stands before one of these calls or has ended; `step`
makes the call it stands before, and `finish` makes them all. A run holds the tenant as it was read,
so that others may change the cluster between two of its steps.
-/

namespace Tenancy

inductive Outcome where
  /-- Everything that belongs to the tenant is in place. -/
  | converged (namespaceName : String) (createdNamespace createdBinding statusUpdated : Bool)
  /-- There is no such tenant. -/
  | notFound
  /-- The tenant is being deleted. -/
  | deleting
  deriving Repr, DecidableEq

inductive Run where
  /-- Before the tenant is read. -/
  | reading (name : String)
  /-- Before the namespace is created. -/
  | settling (name : String) (tenant : Tenant)
  /-- Before the binding is created. -/
  | binding (name : String) (tenant : Tenant) (createdNamespace : Bool)
  /-- Before the status is written. -/
  | recording (name : String) (tenant : Tenant) (createdNamespace createdBinding : Bool)
  /-- At its end. -/
  | finished (result : Except Failure Outcome)

namespace Run

/-- The run that reconciles the tenant called `name`. -/
def start (name : String) : Run := reading name

def result? : Run → Option (Except Failure Outcome)
  | finished result => some result
  | _ => none

/-- The call that a run stands before. -/
def call? : Run → Option Call
  | reading name => some (.getTenant name)
  | settling name tenant => some (.createNamespace name tenant.namespaceResource)
  | binding name tenant _ => some (.createBinding name tenant.adminBinding)
  | recording name tenant _ _ => some (.patchStatus name (.withNamespace tenant.namespaceName))
  | finished _ => none

/-- Where a run goes on with the tenant it read. -/
def afterReading (name : String) : Option Tenant → Run
  | none => finished (.ok .notFound)
  | some tenant => if tenant.isDeleting then finished (.ok .deleting) else settling name tenant

/-- Where a run goes on when namespace and binding are there. -/
def afterBinding (name : String) (tenant : Tenant) (createdNamespace createdBinding : Bool) : Run :=
  if tenant.recordedNamespace = some tenant.namespaceName then
    finished (.ok (.converged tenant.namespaceName createdNamespace createdBinding false))
  else recording name tenant createdNamespace createdBinding

/-- Where a run goes on with the result of its call; an error ends it. -/
def proceed {α : Type} (result : Except Failure α) (next : α → Run) : Run :=
  match result with
  | .ok v => next v
  | .error e => finished (.error e)

/-- Makes the call that a run stands before. -/
def step {σ : Type} (client : Client σ) : Run → σ → Run × σ
  | reading name, s =>
    let (result, s) := client.getTenant name s
    (proceed result (afterReading name), s)
  | settling name tenant, s =>
    let (result, s) := client.createNamespace name tenant.namespaceResource s
    (proceed result fun creation => binding name tenant creation.isNew, s)
  | binding name tenant createdNamespace, s =>
    let (result, s) := client.createBinding name tenant.adminBinding s
    (proceed result fun creation => afterBinding name tenant createdNamespace creation.isNew, s)
  | recording name tenant createdNamespace createdBinding, s =>
    let (result, s) := client.patchStatus name (.withNamespace tenant.namespaceName) s
    (proceed result fun _ =>
      finished (.ok (.converged tenant.namespaceName createdNamespace createdBinding true)), s)
  | finished result, s => (finished result, s)

/-- The most calls that a run still makes. -/
def remaining : Run → Nat
  | reading _ => 4
  | settling _ _ => 3
  | binding _ _ _ => 2
  | recording _ _ _ _ => 1
  | finished _ => 0

/-- Every step of a run that has not ended brings it closer to its end. -/
theorem remaining_step_lt {σ : Type} (client : Client σ) (run : Run) (s : σ)
    (open_ : run.result? = none) : (run.step client s).1.remaining < run.remaining := by
  have proceed_le {α : Type} (r : Except Failure α) (next : α → Run) (n : Nat)
      (h : ∀ v, (next v).remaining ≤ n) : (proceed r next).remaining ≤ n := by
    cases r with
    | error e => exact Nat.zero_le n
    | ok v => exact h v
  cases run with
  | reading name =>
    refine Nat.lt_succ_of_le (proceed_le _ _ 3 fun tenant => ?_)
    cases tenant with
    | none => exact Nat.zero_le 3
    | some t => by_cases h : t.isDeleting <;> simp [afterReading, h, remaining]
  | settling name tenant => exact Nat.lt_succ_of_le (proceed_le _ _ 2 fun _ => Nat.le_refl 2)
  | binding name tenant created =>
    refine Nat.lt_succ_of_le (proceed_le _ _ 1 fun creation => ?_)
    by_cases h : tenant.recordedNamespace = some tenant.namespaceName <;>
      simp [afterBinding, h, remaining]
  | recording name tenant a b => exact Nat.lt_succ_of_le (proceed_le _ _ 0 fun _ => Nat.le_refl 0)
  | finished result => simp [result?] at open_

/-- Makes the calls of a run until it ends. -/
def finish {σ : Type} (client : Client σ) (run : Run) (s : σ) : Except Failure Outcome × σ :=
  match _ended : run.result? with
  | some result => (result, s)
  | none => (run.step client s).1.finish client (run.step client s).2
termination_by run.remaining
decreasing_by exact remaining_step_lt client run s _ended

end Run

def reconcileTenant {σ : Type} (client : Client σ) (name : String) (s : σ) :
    Except Failure Outcome × σ :=
  (Run.start name).finish client s

end Tenancy
