import Tenancy.Reconcile.Run
import Tenancy.Backoff.Curve

/-! # The controller's memory

The controller counts the failures in a row of every tenant, for the delay before the next attempt.
A success, or the news that the tenant is gone, forgets them.
-/

namespace Tenancy

/-- Failures in a row by the tenant's name; a tenant that is not listed has none. -/
structure FailureCounts where
  entries : List (String × Nat) := []
  deriving Repr, DecidableEq

namespace FailureCounts

/-- A count stops here. -/
def greatest : Nat := 0xFFFFFFFF

def count (f : FailureCounts) (name : String) : Nat :=
  match f.entries.find? fun entry => entry.1 = name with
  | some entry => entry.2
  | none => 0

def forget (f : FailureCounts) (name : String) : FailureCounts :=
  ⟨f.entries.filter fun entry => entry.1 ≠ name⟩

/-- Counts one more failure of a tenant. -/
def record (f : FailureCounts) (name : String) : FailureCounts :=
  ⟨(name, min (f.count name + 1) greatest) :: (f.forget name).entries⟩

end FailureCounts

/-- What the controller does next about a tenant. -/
inductive Action where
  /-- Waits until the tenant changes. -/
  | awaitChange
  /-- Looks again after a span, in nanoseconds. -/
  | requeue (after : Nat)
  deriving Repr, DecidableEq

structure ControllerSettings where
  /-- The span after which a tenant in place is looked at again, in nanoseconds. -/
  resync : Nat := 300 * nanosPerSecond
  /-- The delays after failures. -/
  backoff : Backoff := {}

def ControllerSettings.actionAfter (c : ControllerSettings) : Outcome → Action
  | .converged _ _ _ _ => .requeue c.resync
  | .notFound | .deleting => .awaitChange

/-- Reconciles the tenant that `trigger` names; nothing else of the trigger counts. -/
def reconcile {σ : Type} (c : ControllerSettings) (client : Client σ) (trigger : Tenant)
    (failures : FailureCounts) (s : σ) : Except Failure Action × FailureCounts × σ :=
  let (result, s) := reconcileTenant client trigger.name s
  match result with
  | .ok outcome => (.ok (c.actionAfter outcome), failures.forget trigger.name, s)
  | .error e => (.error e, failures, s)

/-- What the controller decides after a failure. -/
structure Policy where
  /-- The number of failures in a row, with this one. -/
  attempt : Nat
  /-- The delay before the next attempt, in nanoseconds, before it is blurred. -/
  delay : Except SpanError Nat

/-- Counts a failure of the tenant that `trigger` names, and gives the delay after it. -/
def errorPolicy (c : ControllerSettings) (trigger : Tenant) (failures : FailureCounts) :
    Policy × FailureCounts :=
  let failures := failures.record trigger.name
  let attempt := failures.count trigger.name
  (⟨attempt, c.backoff.delay attempt⟩, failures)

/-- News of tenants from the cluster. -/
inductive WatchEvent where
  /-- A tenant is new or has changed. -/
  | applied (tenant : Tenant)
  /-- A tenant is gone. -/
  | deleted (tenant : Tenant)
  /-- A full listing starts. -/
  | listing
  /-- A tenant of the listing. -/
  | listed (tenant : Tenant)
  /-- The listing is complete. -/
  | listingDone

/-- What the controller forgets at the news. -/
def FailureCounts.observe (failures : FailureCounts) : WatchEvent → FailureCounts
  | .deleted tenant => failures.forget tenant.name
  | _ => failures

end Tenancy
