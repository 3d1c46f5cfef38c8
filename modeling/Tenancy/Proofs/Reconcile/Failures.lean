import Mathlib.Algebra.Group.Nat.Defs
import Mathlib.Data.List.Induction
import Mathlib.Tactic.SplitIfs
import Tenancy.Cluster.Memory
import Tenancy.Reconcile.Controller

/-! # Failures in a row

Every step that the controller takes either starts the count of a tenant's failures anew, adds one to it
or leaves it (`count_take`). So the count is at all times the number of failures since the last step
that started it anew (`failuresInARow`), up to where counts stop.
-/

namespace Tenancy

/-! ## The counts -/

namespace FailureCounts

variable {f : FailureCounts} {name other : String}

theorem count_cons (entry : String × Nat) (rest : List (String × Nat)) :
    count ⟨entry :: rest⟩ name = if entry.1 = name then entry.2 else count ⟨rest⟩ name := by
  rw [count, count, List.find?_cons]
  by_cases found : entry.1 = name
  · rw [if_pos found, decide_eq_true found]
  · rw [if_neg found, decide_eq_false found]

/-- Forgetting resets one name and no other. -/
theorem count_forget : (f.forget name).count other = if other = name then 0 else f.count other := by
  obtain ⟨entries⟩ := f
  induction entries with
  | nil => exact (ite_self _).symm
  | cons entry rest ih =>
    rw [forget] at ih ⊢
    by_cases forgotten : entry.1 = name
    · rw [List.filter_cons_of_neg (by simpa using forgotten), ih, count_cons]
      split_ifs with same found
      · rfl
      · exact absurd (found.symm.trans forgotten) same
      · rfl
    · rw [List.filter_cons_of_pos (by simpa using forgotten), count_cons, ih, count_cons]
      split_ifs with found same
      · exact absurd (found.trans same) forgotten
      · rfl
      · rfl
      · rfl

/-- Recording counts one more failure for one name, up to the greatest count, and none for any other. -/
theorem count_record : (f.record name).count other =
    if other = name then min (f.count name + 1) greatest else f.count other := by
  rw [record, count_cons]
  split_ifs with found same same
  · rfl
  · exact absurd found.symm same
  · exact absurd same.symm found
  · exact count_forget.trans (if_neg same)

theorem count_record_self : (f.record name).count name = min (f.count name + 1) greatest :=
  count_record.trans (if_pos rfl)

end FailureCounts

/-! ## Steps of the controller -/

/-- What the controller does, one thing at a time. Every reconcile finds a client and a state of its own. -/
inductive ControllerStep (σ : Type) where
  /-- A reconcile of the tenant that `trigger` names. -/
  | reconcile (trigger : Tenant) (client : Client σ) (s : σ)
  /-- The error policy for the tenant that `trigger` names. -/
  | failed (trigger : Tenant)
  /-- The failures of a tenant are forgotten. -/
  | forget (name : String)
  /-- News from the cluster. -/
  | observe (event : WatchEvent)

namespace ControllerStep

variable {σ : Type}

def take (c : ControllerSettings) (failures : FailureCounts) : ControllerStep σ → FailureCounts
  | reconcile trigger client s => (Tenancy.reconcile c client trigger failures s).2.1
  | failed trigger => (errorPolicy c trigger failures).2
  | forget name => failures.forget name
  | observe event => failures.observe event

def name? : ControllerStep σ → Option String
  | reconcile trigger _ _ => some trigger.name
  | failed trigger => some trigger.name
  | forget name => some name
  | observe (.applied tenant) | observe (.deleted tenant) | observe (.listed tenant) => some tenant.name
  | observe .listing | observe .listingDone => none

/-- The step ends the failures in a row of the tenant called `name`: a reconcile that succeeds, a tenant
that is not there or is being deleted included, or the news that the tenant is gone. -/
def resets (name : String) : ControllerStep σ → Bool
  | reconcile trigger client s => trigger.name = name && (reconcileTenant client trigger.name s).1.toBool
  | failed _ => false
  | forget other => other = name
  | observe (.deleted tenant) => tenant.name = name
  | observe _ => false

/-- The step is the error policy for the tenant called `name`. -/
def fails (name : String) : ControllerStep σ → Bool
  | failed trigger => trigger.name = name
  | reconcile _ _ _ | forget _ | observe _ => false

end ControllerStep

variable {σ : Type} {c : ControllerSettings} {failures : FailureCounts} {name : String}

/-- A reconcile succeeds when its run does, and forgets the failures then. -/
theorem reconcile_counts (c : ControllerSettings) (client : Client σ) (trigger : Tenant)
    (failures : FailureCounts) (s : σ) :
    (reconcile c client trigger failures s).1 =
      (reconcileTenant client trigger.name s).1.map c.actionAfter ∧
    (reconcile c client trigger failures s).2.1 =
      if (reconcileTenant client trigger.name s).1.toBool then failures.forget trigger.name
      else failures := by
  rw [reconcile]
  generalize reconcileTenant client trigger.name s = whole
  obtain ⟨result, last⟩ := whole
  cases result with
  | ok outcome => exact ⟨rfl, rfl⟩
  | error e => exact ⟨rfl, rfl⟩

namespace ControllerStep

variable {step : ControllerStep σ}

/-- What a step does to the count of any tenant. -/
theorem count_take (step : ControllerStep σ) : (step.take c failures).count name =
    if step.resets name then 0
    else if step.fails name then min (failures.count name + 1) FailureCounts.greatest
    else failures.count name := by
  cases step with
  | reconcile trigger client s =>
    rw [take, (reconcile_counts c client trigger failures s).2, resets, fails]
    cases (reconcileTenant client trigger.name s).1.toBool with
    | false => simp
    | true => simp [FailureCounts.count_forget, eq_comm]
  | failed trigger =>
    rw [take, errorPolicy, resets, fails, FailureCounts.count_record]
    by_cases same : name = trigger.name
    · simp [same]
    · simp [same, Ne.symm same]
  | forget other =>
    rw [take, resets, fails, FailureCounts.count_forget]
    simp [eq_comm]
  | observe event =>
    cases event with
    | deleted tenant =>
      rw [take, FailureCounts.observe, resets, fails, FailureCounts.count_forget]
      simp [eq_comm]
    | applied tenant => rfl
    | listing => rfl
    | listed tenant => rfl
    | listingDone => rfl

/-- A step that is not for a tenant neither ends nor lengthens its failures in a row. -/
theorem quiet_of_other (other : step.name? ≠ some name) :
    step.resets name = false ∧ step.fails name = false := by
  have apart {x : String} (of : some x ≠ some name) : decide (x = name) = false := by
    rw [decide_eq_false_iff_not]
    intro same
    exact of (congrArg some same)
  cases step with
  | reconcile trigger client s =>
    rw [resets, apart other]
    exact ⟨rfl, rfl⟩
  | failed trigger => exact ⟨rfl, apart other⟩
  | forget x => exact ⟨apart other, rfl⟩
  | observe event =>
    cases event with
    | deleted tenant => exact ⟨apart other, rfl⟩
    | applied tenant => exact ⟨rfl, rfl⟩
    | listing => exact ⟨rfl, rfl⟩
    | listed tenant => exact ⟨rfl, rfl⟩
    | listingDone => exact ⟨rfl, rfl⟩

end ControllerStep

/-! ## All steps so far -/

/-- The counts after all steps of a controller, the first step first. -/
def failuresAfter (c : ControllerSettings) (steps : List (ControllerStep σ)) : FailureCounts :=
  steps.foldl (ControllerStep.take c) {}

/-- How often the error policy was asked about the tenant called `name` since the last step that ended its
failures in a row. -/
def failuresInARow (name : String) (steps : List (ControllerStep σ)) : Nat :=
  (steps.reverse.takeWhile fun step => !step.resets name).countP fun step => step.fails name

/-- A step ends the row of failures, lengthens it by one, or leaves it. -/
theorem failuresInARow_append (steps : List (ControllerStep σ)) (step : ControllerStep σ) :
    failuresInARow name (steps ++ [step]) =
      if step.resets name then 0
      else failuresInARow name steps + if step.fails name then 1 else 0 := by
  rw [failuresInARow, List.reverse_append, List.reverse_singleton, List.singleton_append,
    List.takeWhile_cons]
  cases resets : step.resets name with
  | true => simp
  | false => simp [failuresInARow, List.countP_cons]

/-- The count kept is the number of failures in a row, cut off at the greatest count. -/
theorem count_failuresAfter (c : ControllerSettings) (steps : List (ControllerStep σ)) (name : String) :
    (failuresAfter c steps).count name = min (failuresInARow name steps) FailureCounts.greatest := by
  induction steps using List.reverseRecOn with
  | nil => rfl
  | append_singleton steps step ih =>
    rw [failuresAfter, List.foldl_append, List.foldl_cons, List.foldl_nil, ← failuresAfter,
      step.count_take, failuresInARow_append, ih]
    split_ifs with ended failed
    · exact (Nat.zero_min _).symm
    · -- a count that has stopped stays where it is
      omega
    · rfl

/-- The controller counts the failures in a row of every tenant. After any steps, the count of a tenant is
the number of its error policies since its last success, or since it was last forgotten or reported
deleted, up to the greatest number of 32 bits. A next step for another tenant leaves the count, a
reconcile that fails and news of no deletion leave all counts, and the delay after a failure is the one
of the count with this failure. -/
theorem failures_counted (c : ControllerSettings) (steps : List (ControllerStep σ)) :
    let failures := failuresAfter c steps
    (∀ name, failures.count name = min (failuresInARow name steps) (2 ^ 32 - 1)) ∧
    (∀ (step : ControllerStep σ) name, step.name? ≠ some name →
      (step.take c failures).count name = failures.count name) ∧
    (∀ (client : Client σ) trigger s e, (reconcile c client trigger failures s).1 = .error e →
      (reconcile c client trigger failures s).2.1 = failures) ∧
    (∀ event, (∀ tenant, event ≠ .deleted tenant) → failures.observe event = failures) ∧
    ∀ trigger, let policy := (errorPolicy c trigger failures).1
      let next := (errorPolicy c trigger failures).2
      next.count trigger.name = min (failures.count trigger.name + 1) (2 ^ 32 - 1) ∧
      policy.attempt = next.count trigger.name ∧ policy.delay = c.backoff.delay policy.attempt := by
  intro failures
  refine ⟨count_failuresAfter c steps, ?_, ?_, ?_, ?_⟩
  · intro step name other
    obtain ⟨resets, fails⟩ := ControllerStep.quiet_of_other other
    simp [step.count_take, resets, fails]
  · intro client trigger s e failed
    obtain ⟨same, counts⟩ := reconcile_counts c client trigger failures s
    rw [counts]
    cases result : (reconcileTenant client trigger.name s).1 with
    | ok outcome =>
      rw [failed, result] at same
      cases same
    | error e => rfl
  · intro event kept
    cases event with
    | deleted tenant => exact absurd rfl (kept tenant)
    | applied tenant => rfl
    | listing => rfl
    | listed tenant => rfl
    | listingDone => rfl
  · intro trigger
    exact ⟨FailureCounts.count_record_self, rfl, rfl⟩

def tenantOf (name : String) : Tenant :=
  ⟨⟨[("name", .string name)]⟩, ⟨"Tenant", none, none, .namespaced, none, none⟩, none⟩

/-- A cluster without tenants that fails the next look-up. -/
def timeoutCluster : Cluster :=
  Cluster.addFault .getTenant (.internal "tenant" "timeout") 1 {}

/-- Two tenants fail in turns, one of them is found missing and fails again. -/
def failingSteps : List (ControllerStep Cluster) :=
  [.failed (tenantOf "acme"), .failed (tenantOf "globex"), .reconcile (tenantOf "acme") Cluster.client {},
    .failed (tenantOf "acme"), .observe (.applied (tenantOf "acme")), .forget "globex",
    .reconcile (tenantOf "acme") Cluster.client timeoutCluster, .failed (tenantOf "acme")]

theorem failures_counted_acme :
    let failures := failuresAfter {} failingSteps
    failures.count "acme" = 2 ∧
    ((.forget "globex" : ControllerStep Cluster).take {} failures).count "acme" = 2 ∧
    (reconcile {} Cluster.client (tenantOf "acme") failures timeoutCluster).2.1 = failures ∧
    failures.observe .listing = failures ∧
    (errorPolicy {} (tenantOf "acme") failures).1.attempt = 3 := by
  intro failures
  obtain ⟨counts, others, errors, events, policies⟩ := failures_counted {} failingSteps
  have two : failures.count "acme" = 2 := by
    have row : failuresInARow "acme" failingSteps = 2 := by decide +kernel
    rw [counts, row]
    rfl
  have timeout : (reconcileTenant Cluster.client (tenantOf "acme").name timeoutCluster).1 =
      .error (.internal "tenant" "timeout") := by
    decide +kernel
  have failed : (reconcile {} Cluster.client (tenantOf "acme") failures timeoutCluster).1 =
      .error (.internal "tenant" "timeout") := by
    rw [(reconcile_counts ..).1, timeout]
    rfl
  refine ⟨two, ?_, errors _ _ _ _ failed, ?_, ?_⟩
  · rw [others _ "acme" (by decide), two]
  · apply events .listing
    intro tenant same
    cases same
  · have before : failures.count (tenantOf "acme").name = 2 := two
    rw [(policies (tenantOf "acme")).2.1, (policies (tenantOf "acme")).1, before]
    rfl

end Tenancy
