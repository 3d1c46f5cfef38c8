import Mathlib.Algebra.BigOperators.Group.Finset.Basic
import Mathlib.Algebra.GroupWithZero.Nat
import Mathlib.Algebra.Order.BigOperators.Group.Finset
import Tenancy.Proofs.Reconcile.Steps

/-! # Attempts after a failure

A reconcile may fail at any of its calls, and the next attempt starts again from the top. Two things stay
the same over all attempts: the cluster to which a reconcile without errors would lead (`provided`), and
the sum of what has been done and what is missing (`Deeds`). An attempt that succeeds leaves nothing
missing and no error ahead that another attempt could meet, so the attempts after it change nothing.
-/

namespace Tenancy

open Cluster (client create)

/-! ## What calls have done -/

/-- How many calls of each kind have had an effect. -/
abbrev Deeds := CallKind → Nat

variable {σ : Type}

/-- The client that answers as another one does and counts the calls that had an effect: creations of
what was not there, and status writes. -/
def Client.counted (client : Client σ) : Client (σ × Deeds) where
  getTenant name s :=
    let (result, next) := client.getTenant name s.1
    (result, next, s.2)
  createNamespace tenant object s :=
    let (result, next) := client.createNamespace tenant object s.1
    (result, next, s.2 + Pi.single .createNamespace (created result))
  createBinding tenant object s :=
    let (result, next) := client.createBinding tenant object s.1
    (result, next, s.2 + Pi.single .createBinding (created result))
  patchStatus name status s :=
    let (result, next) := client.patchStatus name status s.1
    (result, next, s.2 + Pi.single .patchStatus result.toBool.toNat)
where
  /-- One for a creation that made its object. -/
  created : Except Failure Creation → Nat
    | .ok creation => creation.isNew.toNat
    | .error _ => 0

/-- What a reconcile reports that it has done. -/
def reported : Except Failure Outcome → Deeds
  | .ok (.converged _ createdNamespace createdBinding statusUpdated) =>
    Pi.single .createNamespace createdNamespace.toNat + Pi.single .createBinding createdBinding.toNat +
      Pi.single .patchStatus statusUpdated.toNat
  | _ => 0

namespace Run

/-- What a run would report that it has done so far. -/
def said : Run → Deeds
  | binding _ _ createdNamespace => Pi.single .createNamespace createdNamespace.toNat
  | recording _ _ createdNamespace createdBinding =>
    Pi.single .createNamespace createdNamespace.toNat + Pi.single .createBinding createdBinding.toNat
  | finished result => reported result
  | _ => 0

/-- What a call has done, going by where the run stood and where it stands. -/
def gain : Run → Run → Deeds
  | settling _ _, binding _ _ made => Pi.single .createNamespace made.toNat
  | binding _ _ _, recording _ _ _ made => Pi.single .createBinding made.toNat
  | binding _ _ _, finished (.ok (.converged _ _ made _)) => Pi.single .createBinding made.toNat
  | recording _ _ _ _, finished (.ok _) => Pi.single .patchStatus 1
  | _, _ => 0

@[simp] theorem gain_afterBinding (name : String) (tenant : Tenant) (createdNamespace made : Bool) :
    (binding name tenant createdNamespace).gain (afterBinding name tenant createdNamespace made) =
      Pi.single .createBinding made.toNat := by
  rw [afterBinding]
  split_ifs <;> rfl

@[simp] theorem gain_failed (run : Run) (e : Failure) : run.gain (finished (.error e)) = 0 := by
  cases run <;> rfl

/-- Counting a client's deeds adds what the step gains and changes nothing else. -/
theorem step_counted (client : Client σ) (run : Run) (s : σ) (deeds : Deeds) :
    run.step client.counted (s, deeds) = ((run.step client s).1, (run.step client s).2,
      deeds + run.gain (run.step client s).1) := by
  cases run with
  | reading name =>
    simp only [step, Client.counted]
    cases (client.getTenant name s).1 with
    | error e => simp [proceed]
    | ok found =>
      cases found with
      | none => simp [proceed, afterReading, gain]
      | some tenant => by_cases h : tenant.isDeleting <;> simp [proceed, afterReading, gain, h]
  | settling name tenant =>
    simp only [step, Client.counted]
    cases (client.createNamespace name tenant.namespaceResource s).1 with
    | error e => simp [proceed, Client.counted.created]
    | ok creation => simp [proceed, gain, Client.counted.created]
  | binding name tenant createdNamespace =>
    simp only [step, Client.counted]
    cases (client.createBinding name tenant.adminBinding s).1 with
    | error e => simp [proceed, Client.counted.created]
    | ok creation => simp [proceed, Client.counted.created]
  | recording name tenant createdNamespace createdBinding =>
    simp only [step, Client.counted]
    cases (client.patchStatus name (.withNamespace tenant.namespaceName) s).1 with
    | error e => simp [proceed, Except.toBool]
    | ok done => simp [proceed, gain, Except.toBool]
  | finished result => simp [step, gain]

/-- A run reports no more than its calls have done. -/
theorem said_le (client : Client σ) (run : Run) (s : σ) :
    (run.step client s).1.said ≤ run.said + run.gain (run.step client s).1 := by
  cases run with
  | reading name =>
    simp only [step]
    cases (client.getTenant name s).1 with
    | error e => exact le_rfl
    | ok found =>
      cases found with
      | none => exact le_rfl
      | some tenant =>
        by_cases h : tenant.isDeleting <;> simp [proceed, afterReading, h, said, reported, gain]
  | settling name tenant =>
    simp only [step]
    cases (client.createNamespace name tenant.namespaceResource s).1 with
    | error e => exact fun _ => Nat.zero_le _
    | ok creation => exact (zero_add _).ge
  | binding name tenant createdNamespace =>
    simp only [step]
    cases (client.createBinding name tenant.adminBinding s).1 with
    | error e => exact fun _ => Nat.zero_le _
    | ok creation =>
      by_cases h : tenant.recordedNamespace = some tenant.namespaceName <;>
        simp [proceed, afterBinding, gain, h, said, reported]
  | recording name tenant createdNamespace createdBinding =>
    simp only [step]
    cases (client.patchStatus name (.withNamespace tenant.namespaceName) s).1 with
    | error e => exact fun _ => Nat.zero_le _
    | ok done => simp [proceed, gain, said, reported]
  | finished result => exact fun _ => Nat.le_add_right ..

end Run

/-- Counting what calls do changes neither the result of a reconcile nor the state it leaves. -/
theorem reconcileTenant_counted (client : Client σ) (name : String) (s : σ) (deeds : Deeds) :
    (reconcileTenant client.counted name (s, deeds)).1 = (reconcileTenant client name s).1 ∧
    (reconcileTenant client.counted name (s, deeds)).2.1 = (reconcileTenant client name s).2 :=
  reconcileTenant_observed (fun run s deeds => by simp only [Run.step_counted, and_self]) name s deeds

/-! ## Where attempts lead -/

namespace Cluster

variable {name : String} {c : Cluster} {tenant : Tenant}

/-- The cluster without the errors ahead. -/
def calm (c : Cluster) : Cluster := { c with faults := fun _ => [] }

/-- The cluster with everything in place that belongs to the tenant under a key. -/
def provided (name : String) (c : Cluster) : Cluster :=
  match c.tenant? name with
  | none => c.calm
  | some tenant =>
    if tenant.isDeleting then c.calm
    else
      { tenants :=
          if tenant.recordedNamespace = some tenant.namespaceName then c.tenants
          else (c.put name (recordNamespace (some tenant.namespaceName) tenant)).tenants
        namespaces := (create tenant.namespaceName c.namespaces).2
        bindings := (create (adminKeyOf tenant.name) c.bindings).2 }

/-- What a reconcile of the tenant under a key has to do. -/
def missing (name : String) (c : Cluster) : Deeds :=
  match c.tenant? name with
  | none => 0
  | some tenant =>
    if tenant.isDeleting then 0
    else
      Pi.single .createNamespace (if tenant.namespaceName ∈ c.namespaces then 0 else 1) +
        Pi.single .createBinding (if adminKeyOf tenant.name ∈ c.bindings then 0 else 1) +
        Pi.single .patchStatus (if tenant.recordedNamespace = some tenant.namespaceName then 0 else 1)

/-- A reconcile has to do everything once at most. -/
theorem missing_le_one (name : String) (c : Cluster) (kind : CallKind) : missing name c kind ≤ 1 := by
  cases found : c.tenant? name with
  | none => simp only [missing, found, Pi.zero_apply, zero_le]
  | some tenant =>
    simp only [missing, found]
    split_ifs <;> cases kind <;> simp

/-- A look-up under the key meets no error and gives the tenant, which is not being deleted. -/
structure Gives (c : Cluster) (name : String) (tenant : Tenant) : Prop where
  quiet : c.faults .getTenant = []
  found : c.tenant? name = some tenant
  alive : tenant.isDeleting = false

theorem Gives.provided (gives : Gives c name tenant) : provided name c =
    { tenants :=
        if tenant.recordedNamespace = some tenant.namespaceName then c.tenants
        else (c.put name (recordNamespace (some tenant.namespaceName) tenant)).tenants
      namespaces := (create tenant.namespaceName c.namespaces).2
      bindings := (create (adminKeyOf tenant.name) c.bindings).2 } := by
  simp only [Cluster.provided, gives.found, gives.alive, Bool.false_eq_true, if_false]

theorem Gives.missing (gives : Gives c name tenant) : missing name c =
    Pi.single .createNamespace (if tenant.namespaceName ∈ c.namespaces then 0 else 1) +
      Pi.single .createBinding (if adminKeyOf tenant.name ∈ c.bindings then 0 else 1) +
      Pi.single .patchStatus (if tenant.recordedNamespace = some tenant.namespaceName then 0 else 1) := by
  simp only [Cluster.missing, gives.found, gives.alive, Bool.false_eq_true, if_false]

/-- The tenant's namespace is there, and no error is ahead of a call to create it. -/
structure Namespaced (c : Cluster) (tenant : Tenant) : Prop where
  quiet : c.faults .createNamespace = []
  there : tenant.namespaceName ∈ c.namespaces

/-- The tenant's binding is there, and no error is ahead of a call to create it. -/
structure Bound (c : Cluster) (tenant : Tenant) : Prop where
  quiet : c.faults .createBinding = []
  there : adminKeyOf tenant.name ∈ c.bindings

/-- The cluster is as a successful reconcile of the tenant under the key leaves it. -/
inductive InPlace (c : Cluster) (name : String) : Outcome → Prop where
  | notFound (quiet : c.faults .getTenant = []) (absent : c.tenant? name = none) :
    InPlace c name .notFound
  | deleting {tenant : Tenant} (quiet : c.faults .getTenant = []) (found : c.tenant? name = some tenant)
    (leaving : tenant.isDeleting = true) : InPlace c name .deleting
  | converged {tenant : Tenant} (gives : Gives c name tenant) (namespaced : Namespaced c tenant)
    (bound : Bound c tenant) (recorded : tenant.recordedNamespace = some tenant.namespaceName)
    (createdNamespace createdBinding statusUpdated : Bool) : InPlace c name
      (.converged tenant.namespaceName createdNamespace createdBinding statusUpdated)

end Cluster

/-- The outcome of a reconcile that finds everything in place. -/
def Outcome.again : Outcome → Outcome
  | .converged namespaceName _ _ _ => .converged namespaceName false false false
  | outcome => outcome

namespace Cluster

variable {name : String} {c : Cluster} {outcome : Outcome}

/-- Where all is in place, a calm reconcile leaves the cluster as it is. -/
theorem InPlace.calm_eq (inPlace : InPlace c name outcome) : c.calm = provided name c := by
  cases inPlace with
  | notFound quiet absent => simp only [provided, absent]
  | deleting quiet found leaving => simp only [provided, found, leaving, if_true]
  | converged gives namespaced bound recorded =>
    rw [gives.provided, if_pos recorded, create_of_mem namespaced.there, create_of_mem bound.there, calm]

/-- Once everything is in place a reconcile succeeds and changes nothing, whatever errors are ahead: it
makes no call that would meet one. -/
theorem InPlace.reconcileTenant (inPlace : InPlace c name outcome) :
    reconcileTenant client name c = (.ok outcome.again, c) := by
  rw [Tenancy.reconcileTenant, Run.start, Run.finish_step c rfl]
  cases inPlace with
  | notFound quiet absent =>
    rw [Run.step_reading quiet, absent]
    exact Run.finish_finished ..
  | deleting quiet found leaving =>
    rw [Run.step_reading quiet, found, Run.afterReading, if_pos leaving]
    exact Run.finish_finished ..
  | converged gives namespaced bound recorded =>
    rw [Run.step_reading gives.quiet, gives.found, Run.afterReading, gives.alive,
      if_neg Bool.false_ne_true, Run.finish_step c rfl, Run.step_settling namespaced.quiet,
      create_of_mem namespaced.there, Run.finish_step c rfl, Run.step_binding bound.quiet,
      create_of_mem bound.there, Run.afterBinding, if_pos recorded, Run.finish_finished,
      decide_eq_false (not_not_intro namespaced.there), decide_eq_false (not_not_intro bound.there)]
    rfl

end Cluster

namespace Run

open Cluster (Gives Namespaced Bound InPlace provided missing)

private theorem toNat_decide_not (p : Prop) [Decidable p] : (decide ¬p).toNat = if p then 0 else 1 := by
  by_cases holds : p <;> simp [holds]

/-- Where a run may stand that has the tenant under the key to itself. -/
inductive Alone (c : Cluster) (name : String) : Run → Prop where
  | reading : Alone c name (reading name)
  | settling {tenant : Tenant} (gives : Gives c name tenant) : Alone c name (settling name tenant)
  | binding {tenant : Tenant} (gives : Gives c name tenant) (namespaced : Namespaced c tenant)
    (createdNamespace : Bool) : Alone c name (binding name tenant createdNamespace)
  | recording {tenant : Tenant} (gives : Gives c name tenant) (namespaced : Namespaced c tenant)
    (bound : Bound c tenant) (unrecorded : tenant.recordedNamespace ≠ some tenant.namespaceName)
    (createdNamespace createdBinding : Bool) :
    Alone c name (recording name tenant createdNamespace createdBinding)
  | failed (e : Failure) : Alone c name (finished (.error e))
  | done {outcome : Outcome} (inPlace : InPlace c name outcome) : Alone c name (finished (.ok outcome))

variable {name : String} {c c' : Cluster} {run run' : Run}

/-- No call of a run changes where attempts lead, and what a call does is missing no more. -/
theorem Alone.called (alone : Alone c name run) (called : Called c run run' c') :
    Alone c' name run' ∧ provided name c' = provided name c ∧
      run.gain run' + missing name c' = missing name c := by
  cases called with
  | failed going fault e left =>
    rw [gain_failed, zero_add]
    exact ⟨.failed e, rfl, rfl⟩
  | lost absent e =>
    cases alone with
    | recording gives =>
      rw [gives.found] at absent
      cases absent
  | read quiet =>
    cases alone with
    | reading =>
      refine ⟨?_, rfl, ?_⟩
      · cases found : c.tenant? name with
        | none => exact .done (.notFound quiet found)
        | some tenant =>
          rw [afterReading]
          split_ifs with leaving
          · exact .done (.deleting quiet found leaving)
          · exact .settling ⟨quiet, found, Bool.eq_false_iff.mpr leaving⟩
      · cases afterReading name (c.tenant? name) <;> exact zero_add _
  | @namespaced name tenant quiet =>
    cases alone with
    | settling gives =>
      -- the tenant that the run has read is still what the cluster gives, as only namespaces have changed
      have moved : Gives { c with namespaces := (create tenant.namespaceName c.namespaces).2 } name tenant :=
        ⟨gives.quiet, gives.found, gives.alive⟩
      have there : tenant.namespaceName ∈ (create tenant.namespaceName c.namespaces).2 :=
        Cluster.mem_create.mpr (.inl rfl)
      refine ⟨.binding moved ⟨quiet, there⟩ _, ?_, ?_⟩
      · rw [moved.provided, gives.provided, Cluster.create_create]
        rfl
      · rw [moved.missing, gives.missing, gain, if_pos there, Pi.single_zero, zero_add, toNat_decide_not,
          ← add_assoc]
  | @bound name tenant made quiet =>
    cases alone with
    | binding gives namespaced =>
      have moved : Gives { c with bindings := (create (adminKeyOf tenant.name) c.bindings).2 } name tenant :=
        ⟨gives.quiet, gives.found, gives.alive⟩
      have there : adminKeyOf tenant.name ∈ (create (adminKeyOf tenant.name) c.bindings).2 :=
        Cluster.mem_create.mpr (.inl rfl)
      refine ⟨?_, ?_, ?_⟩
      · rw [afterBinding]
        split_ifs with recorded
        · exact .done (.converged moved ⟨namespaced.quiet, namespaced.there⟩ ⟨quiet, there⟩ recorded ..)
        · exact .recording moved ⟨namespaced.quiet, namespaced.there⟩ ⟨quiet, there⟩ recorded ..
      · rw [moved.provided, gives.provided, Cluster.create_create]
        rfl
      · rw [moved.missing, gives.missing, if_pos there, if_pos namespaced.there,
          gain_afterBinding, toNat_decide_not]
        simp only [Pi.single_zero, zero_add]
  | @recorded name tenant stored a b found =>
    cases alone with
    | recording gives namespaced bound unrecorded =>
      rw [gives.found] at found
      obtain rfl := Option.some.inj found
      let after := Cluster.recordNamespace (some tenant.namespaceName) tenant
      have moved : Gives (c.put name after) name after :=
        ⟨gives.quiet, by rw [Cluster.tenant?_put, if_pos rfl], gives.alive⟩
      have namespaced' : Namespaced (c.put name after) after := ⟨namespaced.quiet, namespaced.there⟩
      have bound' : Bound (c.put name after) after := ⟨bound.quiet, bound.there⟩
      have recorded : after.recordedNamespace = some after.namespaceName := rfl
      refine ⟨.done (.converged moved namespaced' bound' recorded a b true), ?_, ?_⟩
      · rw [moved.provided, gives.provided, if_pos recorded, if_neg unrecorded]
        rfl
      · rw [moved.missing, gives.missing, if_pos namespaced'.there, if_pos bound'.there, if_pos recorded,
          if_pos namespaced.there, if_pos bound.there, if_neg unrecorded, gain]
        simp only [Pi.single_zero, zero_add, add_zero]
  | ended result =>
    refine ⟨alone, rfl, ?_⟩
    cases result <;> exact zero_add _

end Run

open Cluster (InPlace provided missing)

variable {name : String} {c : Cluster}

/-- What one attempt does to the cluster and to the deeds so far. -/
structure Attempted (name : String) (c : Cluster) (deeds : Deeds) (result : Except Failure Outcome)
    (after : Cluster) (total : Deeds) : Prop where
  provided : provided name after = provided name c
  balance : total + missing name after = deeds + missing name c
  reported : deeds + reported result ≤ total
  inPlace : ∀ outcome, result = .ok outcome → InPlace after name outcome

/-- An attempt spends on its deeds just what it takes off those that are missing. -/
theorem attempted (name : String) (c : Cluster) (deeds : Deeds) :
    let counted := reconcileTenant client.counted name (c, deeds)
    Attempted name c deeds counted.1 counted.2.1 counted.2.2 := by
  intro counted
  have kept := reconcileTenant_keeps client.counted
    (fun run s => run.Alone s.1 name ∧ provided name s.1 = provided name c ∧
      s.2 + missing name s.1 = deeds + missing name c ∧ deeds + run.said ≤ s.2)
    (fun run s ⟨alone, aim, balance, said⟩ => by
      obtain ⟨c', deeds'⟩ := s
      obtain ⟨alone, aim', gained⟩ := alone.called (Run.called_step run c')
      have said' := run.said_le client c'
      rw [Run.step_counted]
      refine ⟨alone, aim'.trans aim, ?_, ?_⟩
      · rw [← balance, ← gained, add_assoc]
      · intro kind
        have now := said kind
        have next := said' kind
        simp only [Pi.add_apply] at now next ⊢
        omega)
    (show (Run.start name).Alone (c, deeds).1 name ∧ _ from ⟨.reading, rfl, rfl, (add_zero deeds).le⟩)
  obtain ⟨alone, aim, balance, said⟩ := kept
  refine ⟨aim, balance, said, fun outcome succeeded => ?_⟩
  rw [succeeded] at alone
  cases alone with
  | done inPlace => exact inPlace

/-- Without errors ahead no call fails, since nobody removes the tenant before its status is written. -/
theorem Run.Alone.succeeds {run run' : Run} {c' : Cluster} (alone : run.Alone c name)
    (called : Run.Called c run run' c') (faultless : c.Faultless)
    (ok : ∀ e, run ≠ .finished (.error e)) :
    c'.Faultless ∧ ∀ e, run' ≠ .finished (.error e) := by
  cases called with
  | failed going fault => exact absurd (faultless _) fault
  | lost absent =>
    cases alone with
    | recording gives =>
      rw [gives.found] at absent
      cases absent
  | read quiet =>
    refine ⟨faultless, fun e => ?_⟩
    rcases c.tenant? _ with - | tenant
    · simp [Run.afterReading]
    · rw [Run.afterReading]
      split_ifs <;> simp
  | namespaced quiet => exact ⟨faultless, by simp⟩
  | bound quiet =>
    refine ⟨faultless, fun e => ?_⟩
    rw [Run.afterBinding]
    split_ifs <;> simp
  | recorded found => exact ⟨faultless, by simp⟩
  | ended result => exact ⟨faultless, ok⟩

/-- A reconcile that meets no error succeeds and puts everything in place. -/
theorem reconcileTenant_calm (name : String) (c : Cluster) :
    ∃ outcome, reconcileTenant client name c.calm = (.ok outcome, provided name c) := by
  have kept := reconcileTenant_keeps client
    (fun run s => run.Alone s name ∧ provided name s = provided name c ∧ s.Faultless ∧
      ∀ e, run ≠ .finished (.error e))
    (fun run s ⟨alone, aim, faultless, ok⟩ => by
      obtain ⟨alone', aim', -⟩ := alone.called (Run.called_step run s)
      exact ⟨alone', aim'.trans aim, alone.succeeds (Run.called_step run s) faultless ok⟩)
    (show (Run.start name).Alone c.calm name ∧ _ from ⟨.reading, rfl, fun _ => rfl, nofun⟩)
  generalize reconcileTenant client name c.calm = whole at kept ⊢
  obtain ⟨result, last⟩ := whole
  obtain ⟨alone, aim, faultless, ok⟩ := kept
  cases alone with
  | failed e => exact absurd rfl (ok e)
  | @done outcome inPlace =>
    have calm : last.calm = last := by
      rw [Cluster.calm, ← funext faultless]
    exact ⟨outcome, by rw [← aim, ← inPlace.calm_eq, calm]⟩

/-! ## Attempts one after the other -/

/-- The cluster after that many attempts to reconcile the tenant under a key. -/
def afterAttempts (name : String) (c : Cluster) : Nat → Cluster
  | 0 => c
  | count + 1 => (reconcileTenant client name (afterAttempts name c count)).2

/-- The result of the attempt that follows that many others. -/
def attemptAfter (name : String) (c : Cluster) (count : Nat) : Except Failure Outcome :=
  (reconcileTenant client name (afterAttempts name c count)).1

/-- What the calls of that many attempts have done. -/
def performed (name : String) (c : Cluster) : Nat → Deeds
  | 0 => 0
  | count + 1 =>
    (reconcileTenant client.counted name (afterAttempts name c count, performed name c count)).2.2

/-- So does each of a row of attempts. -/
theorem attempted_next (name : String) (c : Cluster) (count : Nat) :
    Attempted name (afterAttempts name c count) (performed name c count) (attemptAfter name c count)
      (afterAttempts name c (count + 1)) (performed name c (count + 1)) := by
  have same := reconcileTenant_counted client name (afterAttempts name c count) (performed name c count)
  rw [attemptAfter, afterAttempts, ← same.1, ← same.2]
  exact attempted ..

/-- Attempts never change where a calm reconcile would lead. -/
theorem provided_afterAttempts (name : String) (c : Cluster) (count : Nat) :
    provided name (afterAttempts name c count) = provided name c := by
  induction count with
  | zero => rfl
  | succ count ih => exact (attempted_next name c count).provided.trans ih

/-- What attempts have done and what is missing still is what was missing at the start. -/
theorem performed_add_missing (name : String) (c : Cluster) (count : Nat) :
    performed name c count + missing name (afterAttempts name c count) = missing name c := by
  induction count with
  | zero => exact zero_add _
  | succ count ih => exact (attempted_next name c count).balance.trans ih

/-- However often it is attempted, nothing is done twice. -/
theorem performed_le_one (name : String) (c : Cluster) (count : Nat) (kind : CallKind) :
    performed name c count kind ≤ 1 := by
  have balance := congrFun (performed_add_missing name c count) kind
  have once := Cluster.missing_le_one name c kind
  simp only [Pi.add_apply] at balance
  omega

/-- Attempts report no more than they have done. -/
theorem sum_reported_le (name : String) (c : Cluster) (count : Nat) (kind : CallKind) :
    ∑ earlier ∈ Finset.range count, reported (attemptAfter name c earlier) kind ≤
      performed name c count kind := by
  induction count with
  | zero => exact Nat.zero_le _
  | succ count ih =>
    have next := (attempted_next name c count).reported kind
    rw [Finset.sum_range_succ]
    simp only [Pi.add_apply] at next
    omega

/-- Attempts on a cluster with everything in place change nothing. -/
theorem afterAttempts_of_inPlace {count : Nat} {outcome : Outcome}
    (inPlace : InPlace (afterAttempts name c count) name outcome) (more : Nat) :
    afterAttempts name c (count + more) = afterAttempts name c count := by
  induction more with
  | zero => rfl
  | succ more ih => rw [← Nat.add_assoc, afterAttempts, ih, inPlace.reconcileTenant]

/-- Reconciles resume where an earlier attempt failed, whatever errors are ahead of the calls. Over any
number of attempts every call has its effect once at most, reports included. When one of them has
succeeded, the cluster is the one to which a single reconcile without errors leads, every attempt after
it succeeds in the same way with nothing left to do, and changes nothing. -/
theorem attempts_resume (name : String) (c : Cluster) :
    (∀ count kind,
      ∑ earlier ∈ Finset.range count, reported (attemptAfter name c earlier) kind ≤
        performed name c count kind ∧
      performed name c count kind ≤ 1) ∧
    (∃ outcome, (reconcileTenant client name c.calm).1 = .ok outcome) ∧
    ∀ first outcome, attemptAfter name c first = .ok outcome → ∀ count, first < count →
      (afterAttempts name c count).tenants = (reconcileTenant client name c.calm).2.tenants ∧
      (afterAttempts name c count).namespaces = (reconcileTenant client name c.calm).2.namespaces ∧
      (afterAttempts name c count).bindings = (reconcileTenant client name c.calm).2.bindings ∧
      attemptAfter name c count = .ok outcome.again ∧
      afterAttempts name c (count + 1) = afterAttempts name c count := by
  obtain ⟨planned, whole⟩ := reconcileTenant_calm name c
  refine ⟨fun count kind => ⟨sum_reported_le name c count kind, performed_le_one name c count kind⟩,
    ⟨planned, by rw [whole]⟩, ?_⟩
  intro first outcome succeeded count later
  obtain ⟨more, rfl⟩ := Nat.exists_eq_add_of_lt later
  have inPlace := (attempted_next name c first).inPlace outcome succeeded
  have still := afterAttempts_of_inPlace inPlace more
  rw [show first + 1 + more = first + more + 1 by omega] at still
  rw [← still] at inPlace
  have aim := inPlace.calm_eq.trans (provided_afterAttempts name c _)
  refine ⟨?_, ?_, ?_, ?_, ?_⟩
  · rw [whole, ← aim]; rfl
  · rw [whole, ← aim]; rfl
  · rw [whole, ← aim]; rfl
  · rw [attemptAfter, inPlace.reconcileTenant]
  · rw [afterAttempts, inPlace.reconcileTenant]

/-- A cluster that has lost the namespace of a tenant which its status records, with an error ahead of a
look-up and of a binding, and two ahead of status writes. -/
def troubledCluster : Cluster where
  tenants := [("acme", ⟨⟨[("name", .string "acme")]⟩, ⟨"Acme", none, none, .namespaced, none, none⟩,
    some (.withNamespace "tenant-acme")⟩)]
  faults
    | .getTenant => [.internal "tenant" "timeout"]
    | .createNamespace => []
    | .createBinding => [.internal "binding" "timeout"]
    | .patchStatus => [.internal "status" "timeout", .internal "status" "timeout"]

theorem attempts_resume_troubled :
    attemptAfter "acme" troubledCluster 2 = .ok (.converged "tenant-acme" false true false) ∧
    attemptAfter "acme" troubledCluster 3 = .ok (.converged "tenant-acme" false false false) ∧
    afterAttempts "acme" troubledCluster 4 = afterAttempts "acme" troubledCluster 3 ∧
    performed "acme" troubledCluster 4 .createNamespace ≤ 1 := by
  obtain ⟨done, -, resumed⟩ := attempts_resume "acme" troubledCluster
  have succeeded : attemptAfter "acme" troubledCluster 2 =
      .ok (.converged "tenant-acme" false true false) := by
    decide +kernel
  obtain ⟨-, -, -, again, still⟩ := resumed 2 _ succeeded 3 (by decide)
  exact ⟨succeeded, again, still, (done 4 .createNamespace).2⟩

end Tenancy
