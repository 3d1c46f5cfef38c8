import Mathlib.Data.List.Perm.Basic
import Mathlib.Logic.Function.Basic
import Tenancy.Proofs.Reconcile.Failures
import Tenancy.Proofs.Reconcile.Steps

/-! # How long failures are remembered

The controller forgets the failures of a tenant when it hears that the tenant is gone. A reconcile that is
under way at that time is not called back, and when it fails afterwards its failure is counted for a
tenant that is no more (`overtaken`). Nothing else outlives a tenant: what is counted for one that is gone
are failures of reconciles that were under way when its deletion was heard of, each of them once
(`Accounted`).
-/

namespace Tenancy

open Cluster (client)

/-! ## A cluster and its controller -/

/-- What happens to a cluster and its controller, one thing at a time. -/
inductive Occurrence where
  /-- A tenant is stored under its own name, in exchange for one that is there. -/
  | store (tenant : Tenant)
  /-- A tenant is removed. -/
  | remove (name : String)
  /-- The coming calls of a kind will fail that many times. -/
  | fault (kind : CallKind) (error : Failure) (times : Nat)
  /-- The controller hears of the deletion with that index. -/
  | hear (index : Nat)
  /-- A reconcile starts for a tenant that is there. -/
  | start (name : String)
  /-- The reconcile with that index makes its next call. -/
  | call (index : Nat)
  /-- The controller learns how the reconcile with that index has ended. -/
  | conclude (index : Nat)

/-- What is counted after a reconcile has ended: nothing of the tenant after a success, and after a failure
what the error policy leaves. -/
def concluded (c : ControllerSettings) (trigger : Tenant) (failures : FailureCounts) :
    Except Failure Outcome → FailureCounts
  | .ok _ => failures.forget trigger.name
  | .error _ => (errorPolicy c trigger failures).2

/-- A reconcile in one go, followed by the error policy when it fails, leaves the same counts. -/
theorem concluded_reconcileTenant {σ : Type} (c : ControllerSettings) (client : Client σ)
    (trigger : Tenant) (failures : FailureCounts) (s : σ) :
    concluded c trigger failures (reconcileTenant client trigger.name s).1 =
      match reconcile c client trigger failures s with
      | (.ok _, counts, _) => counts
      | (.error _, counts, _) => (errorPolicy c trigger counts).2 := by
  rw [reconcile]
  generalize reconcileTenant client trigger.name s = whole
  obtain ⟨result, last⟩ := whole
  cases result with
  | ok outcome => rfl
  | error e => rfl

/-- How many reconciles are under way for the tenant called `name`, with those that have failed and not been
given to the error policy yet. -/
def underWay (name : String) (work : List (Tenant × Run)) : Nat :=
  work.countP fun entry => entry.1.name = name

/-- A cluster with the controller that watches it. -/
structure Watched where
  cluster : Cluster := {}
  failures : FailureCounts := {}
  /-- Tenants that have gone and of whose deletion the controller has not heard yet. -/
  gone : List Tenant := []
  /-- The reconciles under way, each with its trigger. -/
  work : List (Tenant × Run) := []
  /-- By name, the reconciles that were under way when a deletion was last heard of. -/
  late : String → Nat := fun _ => 0

namespace Watched

/-- The cluster and its controller after an occurrence. -/
def meet (c : ControllerSettings) (w : Watched) : Occurrence → Watched
  | .store tenant => { w with cluster := w.cluster.put tenant.name tenant }
  | .remove name =>
    match w.cluster.tenant? name with
    | none => w
    | some tenant => { w with cluster := w.cluster.remove name, gone := w.gone ++ [tenant] }
  | .fault kind error times => { w with cluster := w.cluster.addFault kind error times }
  | .hear index =>
    match w.gone[index]? with
    | none => w
    | some tenant =>
      { w with
        failures := w.failures.observe (.deleted tenant)
        gone := w.gone.eraseIdx index
        late := Function.update w.late tenant.name (underWay tenant.name w.work) }
  | .start name =>
    match w.cluster.tenant? name with
    | none => w
    | some tenant => { w with work := w.work ++ [(tenant, .start tenant.name)] }
  | .call index =>
    match w.work[index]? with
    | none => w
    | some (trigger, run) =>
      let (run, cluster) := run.step client w.cluster
      { w with cluster, work := w.work.set index (trigger, run) }
  | .conclude index =>
    match w.work[index]? with
    | some (trigger, .finished result) =>
      { w with failures := concluded c trigger w.failures result, work := w.work.eraseIdx index }
    | _ => w

/-- The cluster and its controller after all that has occurred, from an empty cluster on. -/
def after (c : ControllerSettings) (occurrences : List Occurrence) : Watched :=
  occurrences.foldl (meet c) {}

/-! ## Where failures come from -/

/-- The controller has heard of every deletion of a tenant of that name, and there is no such tenant. -/
structure Buried (w : Watched) (name : String) : Prop where
  absent : w.cluster.tenant? name = none
  heard : ∀ tenant ∈ w.gone, tenant.name ≠ name

/-- What is counted for a tenant that is gone for good, and what may be counted still, was under way when
its deletion was heard of. -/
structure Accounted (w : Watched) : Prop where
  own : w.cluster.Own
  late : ∀ name, w.Buried name → w.failures.count name + underWay name w.work ≤ w.late name

variable {c : ControllerSettings} {w : Watched} {work : List (Tenant × Run)} {trigger : Tenant} {run : Run}
  {index : Nat} {name : String}

theorem underWay_append (work : List (Tenant × Run)) (entry : Tenant × Run) :
    underWay name (work ++ [entry]) = underWay name work + if entry.1.name = name then 1 else 0 := by
  rw [underWay, underWay, List.countP_append, List.countP_singleton]
  simp only [decide_eq_true_eq]

private theorem perm_cons_eraseIdx {α : Type} {items : List α} {item : α}
    (present : items[index]? = some item) : items.Perm (item :: items.eraseIdx index) := by
  obtain ⟨inside, rfl⟩ := List.getElem?_eq_some_iff.mp present
  exact (List.getElem_cons_eraseIdx_perm inside).symm

theorem underWay_eraseIdx (present : work[index]? = some (trigger, run)) :
    underWay name work = underWay name (work.eraseIdx index) + if trigger.name = name then 1 else 0 := by
  have parted := (perm_cons_eraseIdx present).countP_eq fun entry => entry.1.name = name
  rw [List.countP_cons] at parted
  simp only [decide_eq_true_eq] at parted
  exact parted

theorem underWay_set (present : work[index]? = some (trigger, run)) (run' : Run) :
    underWay name (work.set index (trigger, run')) = underWay name work := by
  have inside : index < work.length := (List.getElem?_eq_some_iff.mp present).1
  have parted := (List.set_perm_cons_eraseIdx inside (trigger, run')).countP_eq
    fun entry => entry.1.name = name
  rw [List.countP_cons] at parted
  simp only [decide_eq_true_eq] at parted
  exact parted.trans (underWay_eraseIdx present).symm

/-- The end of a reconcile adds one failure at most, of its own tenant. -/
theorem count_concluded_le (c : ControllerSettings) (trigger : Tenant) (failures : FailureCounts)
    (result : Except Failure Outcome) (name : String) :
    (concluded c trigger failures result).count name ≤
      failures.count name + if trigger.name = name then 1 else 0 := by
  cases result with
  | ok outcome =>
    rw [concluded, FailureCounts.count_forget]
    split_ifs <;> omega
  | error e =>
    rw [concluded, errorPolicy, FailureCounts.count_record]
    by_cases same : trigger.name = name
    · rw [if_pos same.symm, if_pos same, same]
      exact Nat.min_le_left ..
    · rw [if_neg (Ne.symm same), if_neg same, Nat.add_zero]

theorem Accounted.empty : Accounted {} := by
  refine ⟨?_, ?_⟩
  · intro name tenant found
    cases found
  · intro name buried
    exact Nat.le_refl 0

/-- A stored name is not gone, and no other name is affected. -/
theorem Accounted.store (accounted : w.Accounted) (tenant : Tenant) :
    (w.meet c (.store tenant)).Accounted := by
  refine ⟨accounted.own.put rfl, fun name buried => ?_⟩
  have absent := buried.absent
  rw [meet, Cluster.tenant?_put] at absent
  split_ifs at absent
  exact accounted.late name ⟨absent, buried.heard⟩

/-- A removed tenant is not gone for good until its deletion is heard of. -/
theorem Accounted.remove (accounted : w.Accounted) (removed : String) :
    (w.meet c (.remove removed)).Accounted := by
  rw [meet]
  cases found : w.cluster.tenant? removed with
  | none => exact accounted
  | some tenant =>
    refine ⟨accounted.own.remove removed, fun name buried => ?_⟩
    have named : tenant.name = removed := accounted.own removed tenant found
    -- the deletion of the tenant has not been heard of, so it is another one that is gone for good
    have other : name ≠ removed := by
      intro same
      have among := List.mem_append_right w.gone (List.mem_singleton_self tenant)
      exact buried.heard tenant among (named.trans same.symm)
    have absent := buried.absent
    rw [Cluster.tenant?_remove, if_neg other] at absent
    refine accounted.late name ⟨absent, fun earlier among => ?_⟩
    exact buried.heard earlier (List.mem_append_left _ among)

/-- Hearing of a deletion forgets the count and allows for the reconciles then under way. -/
theorem Accounted.hear (accounted : w.Accounted) (index : Nat) : (w.meet c (.hear index)).Accounted := by
  rw [meet]
  cases present : w.gone[index]? with
  | none => exact accounted
  | some tenant =>
    refine ⟨accounted.own, fun name buried => ?_⟩
    simp only [FailureCounts.observe, FailureCounts.count_forget]
    by_cases same : name = tenant.name
    · rw [if_pos same, same, Function.update_self, Nat.zero_add]
    · rw [if_neg same, Function.update_of_ne same]
      refine accounted.late name ⟨buried.absent, fun earlier among => ?_⟩
      rcases List.mem_cons.mp ((perm_cons_eraseIdx present).mem_iff.mp among) with rfl | rest
      · exact Ne.symm same
      · exact buried.heard earlier rest

/-- A reconcile starts for a stored tenant only, so none joins those of a name that is gone. -/
theorem Accounted.start (accounted : w.Accounted) (started : String) :
    (w.meet c (.start started)).Accounted := by
  rw [meet]
  cases found : w.cluster.tenant? started with
  | none => exact accounted
  | some tenant =>
    refine ⟨accounted.own, fun name buried => ?_⟩
    have named : tenant.name = started := accounted.own started tenant found
    have other : tenant.name ≠ name := by
      intro same
      have absent : w.cluster.tenant? name = none := buried.absent
      rw [← same, named, found] at absent
      cases absent
    rw [underWay_append, if_neg other]
    exact accounted.late name ⟨buried.absent, buried.heard⟩

/-- A call brings no tenant back and ends no reconcile. -/
theorem Accounted.call (accounted : w.Accounted) (index : Nat) : (w.meet c (.call index)).Accounted := by
  rw [meet]
  cases present : w.work[index]? with
  | none => exact accounted
  | some entry =>
    obtain ⟨trigger, run⟩ := entry
    have called := run.called_step w.cluster
    refine ⟨called.own accounted.own, fun name buried => ?_⟩
    dsimp only
    rw [underWay_set present]
    exact accounted.late name ⟨(called.tenant?_eq_none name).mp buried.absent, buried.heard⟩

/-- A concluded reconcile counts one failure at most, and is under way no more. -/
theorem Accounted.conclude (accounted : w.Accounted) (index : Nat) :
    (w.meet c (.conclude index)).Accounted := by
  rw [meet]
  cases present : w.work[index]? with
  | none => exact accounted
  | some entry =>
    obtain ⟨trigger, run⟩ := entry
    cases run with
    | finished result =>
      refine ⟨accounted.own, fun name buried => ?_⟩
      have before := accounted.late name ⟨buried.absent, buried.heard⟩
      have counted := count_concluded_le c trigger w.failures result name
      rw [underWay_eraseIdx present] at before
      dsimp only
      omega
    | _ => exact accounted

/-- Whatever occurs, what is counted stays accounted for. -/
theorem Accounted.meet (accounted : w.Accounted) (c : ControllerSettings) (occurrence : Occurrence) :
    (w.meet c occurrence).Accounted := by
  cases occurrence with
  | store tenant => exact accounted.store tenant
  | remove name => exact accounted.remove name
  | fault kind error times =>
    exact ⟨accounted.own, fun name buried => accounted.late name ⟨buried.absent, buried.heard⟩⟩
  | hear index => exact accounted.hear index
  | start name => exact accounted.start name
  | call index => exact accounted.call index
  | conclude index => exact accounted.conclude index

/-- After any course of events the failures kept for tenants that are gone are accounted for. -/
theorem accounted_after (c : ControllerSettings) (occurrences : List Occurrence) :
    (after c occurrences).Accounted := by
  induction occurrences using List.reverseRecOn with
  | nil => exact .empty
  | append_singleton occurrences last ih =>
    rw [after, List.foldl_append]
    exact ih.meet c last

end Watched

/-- What is remembered of a tenant that is gone. When there is no tenant of that name and the controller has
heard of every deletion, the failures counted for it and those that may still be counted are no more than
the reconciles that were under way when the last deletion was heard of. If there were none, no failure
outlives the tenant. -/
theorem failures_outlive_late_runs (c : ControllerSettings) (occurrences : List Occurrence) (name : String)
    (absent : (Watched.after c occurrences).cluster.tenant? name = none)
    (heard : ∀ tenant ∈ (Watched.after c occurrences).gone, tenant.name ≠ name) :
    let last := Watched.after c occurrences
    last.failures.count name + underWay name last.work ≤ last.late name ∧
    (last.late name = 0 → last.failures.count name = 0) := by
  intro last
  have bound := (Watched.accounted_after c occurrences).late name ⟨absent, heard⟩
  refine ⟨bound, fun early => ?_⟩
  have within : last.failures.count name + underWay name last.work ≤ 0 := early ▸ bound
  omega

/-- A reconcile fails, is given to the error policy, and then the tenant goes. -/
def inOrder : List Occurrence :=
  [.store (tenantOf "acme"), .fault .getTenant (.internal "tenant" "timeout") 1, .start "acme", .call 0,
    .conclude 0, .remove "acme", .hear 0]

theorem failures_outlive_late_runs_acme :
    let last := Watched.after {} inOrder
    last.cluster.tenant? "acme" = none ∧ (∀ tenant ∈ last.gone, tenant.name ≠ "acme") ∧
    last.late "acme" = 0 ∧ last.failures.count "acme" = 0 := by
  intro last
  have absent : last.cluster.tenant? "acme" = none := by decide +kernel
  have heard : ∀ tenant ∈ last.gone, tenant.name ≠ "acme" := by decide +kernel
  have early : last.late "acme" = 0 := by decide +kernel
  exact ⟨absent, heard, early, (failures_outlive_late_runs {} inOrder "acme" absent heard).2 early⟩

/-- The tenant goes after the binding has been created, and the status write does not find it. -/
def overtaken : List Occurrence :=
  [.store (tenantOf "acme"), .start "acme", .call 0, .call 0, .call 0, .remove "acme", .hear 0, .call 0,
    .conclude 0]

/-- The controller may have heard of a deletion, have nothing under way, and still count a failure of the
tenant that is gone. -/
theorem failures_outlive_acme :
    let last := Watched.after {} overtaken
    last.cluster.tenant? "acme" = none ∧ last.gone.length = 0 ∧ last.work.length = 0 ∧
    last.failures.count "acme" = 1 := by
  decide +kernel

end Tenancy
