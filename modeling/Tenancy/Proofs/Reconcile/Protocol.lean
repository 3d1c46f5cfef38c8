import Tenancy.Proofs.Reconcile.Calls
import Tenancy.Proofs.Reconcile.Failures

/-! # How a reconcile talks to the cluster

Nothing is assumed of the client: each call may be answered in any way, and the answers need not agree with
each other. `Conversed` lists where a run may stand after the exchanges that it has had, and every call keeps
it. So a reconcile makes its calls in one order, stops at the first error, and takes every name that it sends
from the tenant that it has just read.
-/

namespace Tenancy

/-! ## Exchanges -/

inductive Exchange where
  | getTenant (name : String) (reply : Except Failure (Option Tenant))
  | createNamespace (tenant : String) (object : Resource) (reply : Except Failure Creation)
  | createBinding (tenant : String) (object : Resource) (reply : Except Failure Creation)
  | patchStatus (name : String) (status : TenantStatus) (reply : Except Failure Unit)
  deriving DecidableEq

namespace Exchange

def call : Exchange → Call
  | getTenant name _ => .getTenant name
  | createNamespace tenant object _ => .createNamespace tenant object
  | createBinding tenant object _ => .createBinding tenant object
  | patchStatus name status _ => .patchStatus name status

def errorOf? {α : Type} : Except Failure α → Option Failure
  | .ok _ => none
  | .error e => some e

/-- The error that was the reply, if it was one. -/
def error? : Exchange → Option Failure
  | getTenant _ reply => errorOf? reply
  | createNamespace _ _ reply => errorOf? reply
  | createBinding _ _ reply => errorOf? reply
  | patchStatus _ _ reply => errorOf? reply

end Exchange

variable {σ : Type} {client : Client σ} {name : String} {s : σ} {calls : List Call} {call : Call}
  {exchange : Exchange} {exchanges : List Exchange} {run : Run}

namespace Client

/-- What a client replies to a call, and the state that the call leaves behind. -/
def answer (client : Client σ) : Call → σ → Exchange × σ
  | .getTenant name, s =>
    ((.getTenant name (client.getTenant name s).1), (client.getTenant name s).2)
  | .createNamespace tenant object, s =>
    ((.createNamespace tenant object (client.createNamespace tenant object s).1),
      (client.createNamespace tenant object s).2)
  | .createBinding tenant object, s =>
    ((.createBinding tenant object (client.createBinding tenant object s).1),
      (client.createBinding tenant object s).2)
  | .patchStatus name status, s =>
    ((.patchStatus name status (client.patchStatus name status s).1), (client.patchStatus name status s).2)

/-- What a client replies to calls, each in the state that the one before it left behind. -/
def converse (client : Client σ) : List Call → σ → List Exchange × σ
  | [], s => ([], s)
  | call :: calls, s =>
    let rest := client.converse calls (client.answer call s).2
    ((client.answer call s).1 :: rest.1, rest.2)

theorem call_answer (client : Client σ) (call : Call) (s : σ) : (client.answer call s).1.call = call := by
  cases call <;> rfl

theorem calls_converse (client : Client σ) (calls : List Call) (s : σ) :
    (client.converse calls s).1.map Exchange.call = calls := by
  induction calls generalizing s with
  | nil => rfl
  | cons call calls ih =>
    rw [converse, List.map_cons, call_answer, ih]

theorem converse_concat (client : Client σ) (calls : List Call) (call : Call) (s : σ) :
    client.converse (calls ++ [call]) s =
      ((client.converse calls s).1 ++ [(client.answer call (client.converse calls s).2).1],
        (client.answer call (client.converse calls s).2).2) := by
  induction calls generalizing s with
  | nil => rfl
  | cons first calls ih =>
    rw [List.cons_append, converse, converse, ih]
    rfl

end Client

/-! ## One step of a run -/

namespace Run

/-- Where a run for the tenant called `name` may stand after the exchanges that it has had. -/
inductive Conversed (name : String) : Run → List Exchange → Prop where
  | reading : Conversed name (reading name) []
  | failed {run : Run} {exchanges : List Exchange} {exchange : Exchange} {e : Failure}
    (before : Conversed name run exchanges) (calling : run.call? = some exchange.call)
    (error : exchange.error? = some e) : Conversed name (finished (.error e)) (exchanges ++ [exchange])
  | notFound : Conversed name (finished (.ok .notFound)) [.getTenant name (.ok none)]
  | deleting {tenant : Tenant} (leaving : tenant.isDeleting) :
    Conversed name (finished (.ok .deleting)) [.getTenant name (.ok (some tenant))]
  | settling {tenant : Tenant} (alive : ¬tenant.isDeleting) :
    Conversed name (settling name tenant) [.getTenant name (.ok (some tenant))]
  | binding {tenant : Tenant} (alive : ¬tenant.isDeleting) (a : Creation) :
    Conversed name (binding name tenant a.isNew)
      [.getTenant name (.ok (some tenant)), .createNamespace name tenant.namespaceResource (.ok a)]
  | recording {tenant : Tenant} (alive : ¬tenant.isDeleting)
    (unrecorded : tenant.recordedNamespace ≠ some tenant.namespaceName) (a b : Creation) :
    Conversed name (recording name tenant a.isNew b.isNew)
      [.getTenant name (.ok (some tenant)), .createNamespace name tenant.namespaceResource (.ok a),
        .createBinding name tenant.adminBinding (.ok b)]
  | recorded {tenant : Tenant} (alive : ¬tenant.isDeleting)
    (recorded : tenant.recordedNamespace = some tenant.namespaceName) (a b : Creation) :
    Conversed name (finished (.ok (.converged tenant.namespaceName a.isNew b.isNew false)))
      [.getTenant name (.ok (some tenant)), .createNamespace name tenant.namespaceResource (.ok a),
        .createBinding name tenant.adminBinding (.ok b)]
  | updated {tenant : Tenant} (alive : ¬tenant.isDeleting)
    (unrecorded : tenant.recordedNamespace ≠ some tenant.namespaceName) (a b : Creation) :
    Conversed name (finished (.ok (.converged tenant.namespaceName a.isNew b.isNew true)))
      [.getTenant name (.ok (some tenant)), .createNamespace name tenant.namespaceResource (.ok a),
        .createBinding name tenant.adminBinding (.ok b),
        .patchStatus name (.withNamespace tenant.namespaceName) (.ok ())]

/-- The state after a step is the one that the call of the step leaves behind. -/
theorem step_answer (client : Client σ) (calling : run.call? = some call) (s : σ) :
    (run.step client s).2 = (client.answer call s).2 := by
  cases run <;> cases calling <;> rfl

/-- A step goes on from where a run stands with what the client replies to its call. -/
theorem Conversed.step (conversed : Conversed name run exchanges) (calling : run.call? = some call) (s : σ) :
    Conversed name (run.step client s).1 (exchanges ++ [(client.answer call s).1]) := by
  -- an error of any call ends the run, so that the cases look at replies without one
  have stops {e : Failure} (error : (client.answer call s).1.error? = some e) :
      Conversed name (finished (.error e)) (exchanges ++ [(client.answer call s).1]) :=
    .failed conversed (calling.trans (congrArg some (Client.call_answer ..).symm)) error
  cases conversed with
  | reading =>
    cases calling
    simp only [Client.answer, Run.step] at stops ⊢
    cases reply : (client.getTenant name s).1 with
    | error e =>
      rw [reply] at stops
      exact stops rfl
    | ok found =>
      cases found with
      | none => exact .notFound
      | some tenant =>
        rw [proceed, afterReading]
        split_ifs with leaving
        · exact .deleting leaving
        · exact .settling leaving
  | settling alive =>
    cases calling
    simp only [Client.answer, Run.step] at stops ⊢
    cases reply : (client.createNamespace name _ s).1 with
    | error e =>
      rw [reply] at stops
      exact stops rfl
    | ok a => exact .binding alive a
  | binding alive a =>
    cases calling
    simp only [Client.answer, Run.step] at stops ⊢
    cases reply : (client.createBinding name _ s).1 with
    | error e =>
      rw [reply] at stops
      exact stops rfl
    | ok b =>
      rw [proceed, afterBinding]
      split_ifs with recorded
      · exact .recorded alive recorded a b
      · exact .recording alive recorded a b
  | recording alive unrecorded a b =>
    cases calling
    simp only [Client.answer, Run.step] at stops ⊢
    cases reply : (client.patchStatus name _ s).1 with
    | error e =>
      rw [reply] at stops
      exact stops rfl
    | ok done => exact .updated alive unrecorded a b
  | failed => cases calling
  | notFound => cases calling
  | deleting => cases calling
  | recorded => cases calling
  | updated => cases calling

/-! ## What the exchanges tell -/

variable {tenant : Tenant} {outcome : Except Failure Outcome}

/-- Only the last exchange of a run can be an error, and the run has ended with it. -/
theorem Conversed.quiet (conversed : Conversed name run exchanges) (going : ∀ e, run ≠ finished (.error e)) :
    ∀ x ∈ exchanges, x.error? = none := by
  cases conversed with
  | failed => exact absurd rfl (going _)
  | _ => simp [Exchange.error?, Exchange.errorOf?]

/-- As long as a run has a call to make, none has failed. -/
theorem Conversed.quiet_of_call (conversed : Conversed name run exchanges) (calling : run.call? = some call) :
    ∀ x ∈ exchanges, x.error? = none :=
  conversed.quiet fun e ended => by
    rw [ended] at calling
    cases calling

/-- What was replied without an error was replied before an error. -/
theorem mem_of_mem_concat {last : Exchange} {e : Failure} (error : last.error? = some e)
    (among : exchange ∈ exchanges ++ [last]) (fine : exchange.error? = none) : exchange ∈ exchanges := by
  rcases List.mem_append.mp among with before | same
  · exact before
  · rw [List.mem_singleton.mp same, error] at fine
    cases fine

/-- A run that has failed ended with an error, its only one. -/
theorem Conversed.last_of_failed {e : Failure} (conversed : Conversed name (finished (.error e)) exchanges) :
    ∃ init last, exchanges = init ++ [last] ∧ last.error? = some e ∧ ∀ x ∈ init, x.error? = none := by
  cases conversed with
  | failed before calling error => exact ⟨_, _, rfl, error, before.quiet_of_call calling⟩

/-- A run stops right after an error, which is its result. -/
theorem Conversed.eq_of_error {before after : List Exchange} {e : Failure}
    (conversed : Conversed name run (before ++ exchange :: after)) (error : exchange.error? = some e) :
    after = [] ∧ run = finished (.error e) := by
  have among : exchange ∈ before ++ exchange :: after := List.mem_append_right _ List.mem_cons_self
  obtain ⟨other, rfl⟩ : ∃ other, run = finished (.error other) := by
    by_contra going
    rw [conversed.quiet (fun other ended => going ⟨other, ended⟩) exchange among] at error
    cases error
  obtain ⟨init, last, same, reason, quiet⟩ := conversed.last_of_failed
  rcases List.eq_nil_or_concat after with rfl | ⟨rest, final, rfl⟩
  · obtain ⟨-, one⟩ := List.append_inj' same rfl
    obtain rfl := (List.cons.inj one).1
    cases error.symm.trans reason
    exact ⟨rfl, rfl⟩
  · -- the error would have come before the last exchange
    rw [List.concat_eq_append, ← List.cons_append, ← List.append_assoc] at same
    obtain ⟨split, -⟩ := List.append_inj' same rfl
    rw [quiet exchange (split ▸ List.mem_append_right _ List.mem_cons_self)] at error
    cases error

/-- A tenant that is not there ends the run. -/
theorem Conversed.eq_of_absent (conversed : Conversed name run exchanges)
    (absent : .getTenant name (.ok none) ∈ exchanges) : run = finished (.ok .notFound) := by
  induction conversed with
  | failed before calling error ih =>
    rw [ih (mem_of_mem_concat error absent rfl)] at calling
    cases calling
  | notFound => rfl
  | _ => simp at absent

/-- A tenant that is being deleted ends the run. -/
theorem Conversed.eq_of_leaving (conversed : Conversed name run exchanges)
    (read : .getTenant name (.ok (some tenant)) ∈ exchanges) (leaving : tenant.isDeleting) :
    run = finished (.ok .deleting) := by
  induction conversed with
  | failed before calling error ih =>
    rw [ih (mem_of_mem_concat error read rfl)] at calling
    cases calling
  | deleting => rfl
  | reading => cases read
  | notFound => simp at read
  | settling alive | binding alive | recording alive | recorded alive | updated alive =>
    simp at read
    exact absurd (read ▸ leaving) alive

def callsFor (name : String) (tenant : Tenant) : List Call :=
  [.getTenant name, .createNamespace name tenant.namespaceResource, .createBinding name tenant.adminBinding,
    .patchStatus name (.withNamespace tenant.namespaceName)]

/-- The calls of a run, with the one that it stands before, are those for the tenant that it read. -/
theorem Conversed.inOrder (conversed : Conversed name run exchanges)
    (read : .getTenant name (.ok (some tenant)) ∈ exchanges) :
    exchanges.map Exchange.call ++ run.call?.toList <+: callsFor name tenant := by
  induction conversed with
  | failed before calling error ih =>
    have made := ih (mem_of_mem_concat error read rfl)
    rw [calling] at made
    rw [List.map_append, call?, Option.toList_none, List.append_nil]
    exact made
  | reading => cases read
  | notFound => simp at read
  | deleting | settling | binding | recording | recorded | updated =>
    simp at read
    subst read
    exact ⟨_, rfl⟩

/-- A run that has read no tenant makes no more than the first call. -/
theorem Conversed.eq_of_unread (conversed : Conversed name run exchanges)
    (unread : ∀ tenant, .getTenant name (.ok (some tenant)) ∉ exchanges) :
    exchanges.map Exchange.call ++ run.call?.toList = [.getTenant name] := by
  induction conversed with
  | failed before calling error ih =>
    have made := ih fun tenant read => unread tenant (List.mem_append_left _ read)
    rw [calling] at made
    rw [List.map_append, call?, Option.toList_none, List.append_nil]
    exact made
  | reading | notFound => rfl
  | deleting | settling | binding | recording | recorded | updated => simp at unread

/-- The status is written once namespace and binding are there, if the tenant that was read does not record
the namespace. -/
theorem Conversed.writes_iff (conversed : Conversed name run exchanges) :
    (∃ status, .patchStatus name status ∈ exchanges.map Exchange.call ++ run.call?.toList) ↔
      ∃ tenant a b, .getTenant name (.ok (some tenant)) ∈ exchanges ∧
        .createNamespace name tenant.namespaceResource (.ok a) ∈ exchanges ∧
        .createBinding name tenant.adminBinding (.ok b) ∈ exchanges ∧
        tenant.recordedNamespace ≠ some tenant.namespaceName := by
  induction conversed with
  | failed before calling error ih =>
    rw [calling] at ih
    rw [List.map_append, call?, Option.toList_none, List.append_nil]
    refine ih.trans ⟨?_, ?_⟩
    · rintro ⟨tenant, a, b, read, settled, bound, unrecorded⟩
      exact ⟨tenant, a, b, List.mem_append_left _ read, List.mem_append_left _ settled,
        List.mem_append_left _ bound, unrecorded⟩
    · rintro ⟨tenant, a, b, read, settled, bound, unrecorded⟩
      exact ⟨tenant, a, b, mem_of_mem_concat error read rfl, mem_of_mem_concat error settled rfl,
        mem_of_mem_concat error bound rfl, unrecorded⟩
  | _ => simp_all [Exchange.call, call?]

end Run

/-! ## A whole reconcile -/

/-- A reconcile of the tenant called `name` has made its calls, one after the other, and what the client
replied is what led to its end. -/
theorem conversed_reconcileTenant (client : Client σ) (name : String) (s : σ) :
    Run.Conversed name (.finished (reconcileTenant client name s).1)
      (client.converse (callsMade client name s) s).1 ∧
    (client.converse (callsMade client name s) s).2 = (reconcileTenant client name s).2 :=
  reconcileTenant_keeps_calls client
    (fun run now calls => run.Conversed name (client.converse calls s).1 ∧ (client.converse calls s).2 = now)
    (fun run now calls ⟨conversed, same⟩ => by
      cases calling : run.call? with
      | none =>
        cases run with
        | finished result =>
          rw [Run.step_finished, Option.toList_none, List.append_nil]
          exact ⟨conversed, same⟩
        | _ => cases calling
      | some call =>
        rw [Option.toList_some, Client.converse_concat, same]
        exact ⟨conversed.step calling now, (Run.step_answer client calling now).symm⟩)
    ⟨.reading, rfl⟩

/-- The calls that the reconcile of a trigger makes, in order. -/
def reconcileCalls (c : ControllerSettings) (client : Client σ) (trigger : Tenant) (failures : FailureCounts)
    (s : σ) : List Call :=
  (reconcile c client.logged trigger failures (s, [])).2.2.2.reverse

theorem reconcileCalls_eq (c : ControllerSettings) (client : Client σ) (trigger : Tenant)
    (failures : FailureCounts) (s : σ) :
    reconcileCalls c client trigger failures s = callsMade client trigger.name s := by
  rw [reconcileCalls, callsMade, reconcile]
  generalize reconcileTenant client.logged trigger.name (s, []) = whole
  obtain ⟨result, last⟩ := whole
  cases result <;> rfl

/-- The client is left as the reconcile of the trigger's name leaves it. -/
theorem reconcile_last (c : ControllerSettings) (client : Client σ) (trigger : Tenant)
    (failures : FailureCounts) (s : σ) :
    (reconcile c client trigger failures s).2.2 = (reconcileTenant client trigger.name s).2 := by
  rw [reconcile]
  generalize reconcileTenant client trigger.name s = whole
  obtain ⟨result, last⟩ := whole
  cases result <;> rfl

/-- How the reconcile of the tenant called `name` makes `calls` to a client that replies with `exchanges`, and
what comes of it: the outcome, what the controller does next, and the failures that it counts then. -/
structure Protocol (c : ControllerSettings) (name : String) (failures : FailureCounts) (calls : List Call)
    (exchanges : List Exchange) (outcome : Except Failure Outcome) (action : Except Failure Action)
    (after : FailureCounts) : Prop where
  /-- The calls are those for the tenant that was read, in order. -/
  inOrder : ∀ tenant, .getTenant name (.ok (some tenant)) ∈ exchanges → calls <+: [.getTenant name,
    .createNamespace name tenant.namespaceResource, .createBinding name tenant.adminBinding,
    .patchStatus name (.withNamespace tenant.namespaceName)]
  unread : (∀ tenant, .getTenant name (.ok (some tenant)) ∉ exchanges) → calls = [.getTenant name]
  /-- The first error ends the calls. It is the result, and counts no failure by itself. -/
  failed : ∀ before x rest e, exchanges = before ++ x :: rest → x.error? = some e →
    rest = [] ∧ outcome = .error e ∧ action = .error e ∧ after = failures
  error : ∀ e, outcome = .error e → ∃ before last, exchanges = before ++ [last] ∧ last.error? = some e
  notFound : outcome = .ok .notFound ↔ .getTenant name (.ok none) ∈ exchanges
  deleting : outcome = .ok .deleting ↔
    ∃ tenant, .getTenant name (.ok (some tenant)) ∈ exchanges ∧ tenant.isDeleting
  /-- No call follows for a tenant that is not there or is going away. -/
  stopped : outcome = .ok .notFound ∨ outcome = .ok .deleting → calls = [.getTenant name]
  /-- The status is written once namespace and binding are there, if it has to be. -/
  writes : (∃ status, .patchStatus name status ∈ calls) ↔
    ∃ tenant a b, .getTenant name (.ok (some tenant)) ∈ exchanges ∧
      .createNamespace name tenant.namespaceResource (.ok a) ∈ exchanges ∧
      .createBinding name tenant.adminBinding (.ok b) ∈ exchanges ∧
      tenant.recordedNamespace ≠ some tenant.namespaceName
  converged : ∀ ns newNamespace newBinding updated,
    outcome = .ok (.converged ns newNamespace newBinding updated) ↔
      ∃ tenant a b, ¬tenant.isDeleting ∧ ns = tenant.namespaceName ∧ newNamespace = a.isNew ∧
        newBinding = b.isNew ∧ updated = decide (tenant.recordedNamespace ≠ some ns) ∧
        exchanges = [.getTenant name (.ok (some tenant)),
          .createNamespace name tenant.namespaceResource (.ok a),
          .createBinding name tenant.adminBinding (.ok b)] ++
            if updated then [.patchStatus name (.withNamespace ns) (.ok ())] else []
  /-- All names are one name, made from the name of the tenant that was read. -/
  named : ∀ tenant ns, .getTenant name (.ok (some tenant)) ∈ exchanges → ns = "tenant-" ++ tenant.name →
    (∀ object, .createNamespace name object ∈ calls → object.metadata.name? = some ns) ∧
    (∀ object, .createBinding name object ∈ calls → object.metadata.namespace? = some ns) ∧
    (∀ status, .patchStatus name status ∈ calls → status = { namespaceName := some ns }) ∧
    ∀ x newNamespace newBinding updated,
      outcome = .ok (.converged x newNamespace newBinding updated) → x = ns
  /-- A success forgets the failures of the tenant and no others. -/
  forgets : ∀ a, action = .ok a → ∀ entry, entry ∈ after.entries ↔ entry ∈ failures.entries ∧ entry.1 ≠ name
  /-- A tenant that is there and stays is looked at again. -/
  next : ∀ a, action = .ok a → a =
    if outcome = .ok .notFound ∨ outcome = .ok .deleting then .awaitChange else .requeue c.resync

namespace Run

variable {outcome : Except Failure Outcome} {tenant : Tenant}

/-- A tenant is reported as not found exactly when reading it found none. -/
theorem Conversed.notFound_iff (conversed : Conversed name (finished outcome) exchanges) :
    outcome = .ok .notFound ↔ .getTenant name (.ok none) ∈ exchanges := by
  constructor
  · rintro rfl
    cases conversed with
    | notFound => exact List.mem_singleton_self _
  · intro absent
    cases conversed.eq_of_absent absent
    rfl

/-- A tenant is reported as being deleted exactly when it was read so. -/
theorem Conversed.deleting_iff (conversed : Conversed name (finished outcome) exchanges) :
    outcome = .ok .deleting ↔ ∃ tenant, .getTenant name (.ok (some tenant)) ∈ exchanges ∧ tenant.isDeleting := by
  constructor
  · rintro rfl
    cases conversed with
    | deleting leaving => exact ⟨_, List.mem_singleton_self _, leaving⟩
  · rintro ⟨tenant, read, leaving⟩
    cases conversed.eq_of_leaving read leaving
    rfl

/-- In both cases reading it was the only call. -/
theorem Conversed.calls_of_stopped (conversed : Conversed name (finished outcome) exchanges)
    (stopped : outcome = .ok .notFound ∨ outcome = .ok .deleting) :
    exchanges.map Exchange.call = [.getTenant name] := by
  rcases stopped with rfl | rfl
  · cases conversed with
    | notFound => rfl
  · cases conversed with
    | deleting => rfl

/-- A run converges exactly when the tenant it read is alive and every call succeeded; it patches the status
only where another namespace is recorded. -/
theorem Conversed.converged_iff (conversed : Conversed name (finished outcome) exchanges) {ns : String}
    {newNamespace newBinding updated : Bool} :
    outcome = .ok (.converged ns newNamespace newBinding updated) ↔
      ∃ tenant a b, ¬tenant.isDeleting ∧ ns = tenant.namespaceName ∧ newNamespace = a.isNew ∧
        newBinding = b.isNew ∧ updated = decide (tenant.recordedNamespace ≠ some ns) ∧
        exchanges = [.getTenant name (.ok (some tenant)),
          .createNamespace name tenant.namespaceResource (.ok a),
          .createBinding name tenant.adminBinding (.ok b)] ++
            if updated then [.patchStatus name (.withNamespace ns) (.ok ())] else [] := by
  constructor
  · rintro rfl
    cases conversed with
    | recorded alive recorded a b =>
      exact ⟨_, a, b, alive, rfl, rfl, rfl, by simp [recorded], rfl⟩
    | updated alive unrecorded a b =>
      exact ⟨_, a, b, alive, rfl, rfl, rfl, by simp [unrecorded], rfl⟩
  · rintro ⟨tenant, a, b, alive, rfl, rfl, rfl, same, listed⟩
    cases outcome with
    | error e =>
      obtain ⟨init, last, split, reason, -⟩ := conversed.last_of_failed
      have among : last ∈ exchanges := split ▸ List.mem_concat_self
      rw [listed] at among
      cases updated <;> simp at among <;> rcases among with rfl | rfl | rfl | rfl <;> cases reason
    | ok o =>
      cases conversed with
      | recorded alive' recorded =>
        cases updated with
        | false =>
          simp at listed
          obtain ⟨rfl, ⟨-, rfl⟩, -, rfl⟩ := listed
          rfl
        | true => simp at listed
      | updated alive' unrecorded =>
        cases updated with
        | false => simp at listed
        | true =>
          simp at listed
          obtain ⟨rfl, ⟨-, rfl⟩, ⟨-, rfl⟩, -⟩ := listed
          rfl
      | notFound => simp at listed
      | deleting => simp at listed

/-- All that is made and patched is named after the tenant that was read. -/
theorem Conversed.named (conversed : Conversed name (finished outcome) exchanges)
    (read : .getTenant name (.ok (some tenant)) ∈ exchanges) :
    (∀ object, .createNamespace name object ∈ exchanges.map Exchange.call →
      object.metadata.name? = some tenant.namespaceName) ∧
    (∀ object, .createBinding name object ∈ exchanges.map Exchange.call →
      object.metadata.namespace? = some tenant.namespaceName) ∧
    (∀ status, .patchStatus name status ∈ exchanges.map Exchange.call →
      status = { namespaceName := some tenant.namespaceName }) ∧
    ∀ x newNamespace newBinding updated,
      outcome = .ok (.converged x newNamespace newBinding updated) → x = tenant.namespaceName := by
  have made : ∀ call ∈ exchanges.map Exchange.call, call ∈ callsFor name tenant := fun call among =>
    (conversed.inOrder read).subset (List.mem_append_left _ among)
  refine ⟨fun object among => ?_, fun object among => ?_, fun status among => ?_, ?_⟩
  · have same : object = tenant.namespaceResource := by simpa [callsFor] using made _ among
    rw [same, namespaceResource_name]
  · have same : object = tenant.adminBinding := by simpa [callsFor] using made _ among
    rw [same]
    simp [Tenant.adminBinding, Metadata.namespace?, Metadata.text?, Json.lookup, Json.text?]
  · have same : status = .withNamespace tenant.namespaceName := by simpa [callsFor] using made _ among
    rw [same, TenantStatus.withNamespace]
  · intro x newNamespace newBinding updated converged
    obtain ⟨other, a, b, -, rfl, -, -, -, listed⟩ := conversed.converged_iff.mp converged
    rw [listed] at read
    have same : tenant = other := by cases updated <;> simpa using read
    rw [same]

/-- A run that has ended has kept to the protocol. -/
theorem Conversed.protocol (c : ControllerSettings) (failures : FailureCounts)
    (conversed : Conversed name (finished outcome) exchanges) :
    Protocol c name failures (exchanges.map Exchange.call) exchanges outcome (outcome.map c.actionAfter)
      (if outcome.toBool then failures.forget name else failures) where
  inOrder tenant read := (List.prefix_append ..).trans (conversed.inOrder read)
  unread none := by
    have made := conversed.eq_of_unread none
    rwa [call?, Option.toList_none, List.append_nil] at made
  failed before x rest e split error := by
    subst split
    obtain ⟨rfl, ended⟩ := conversed.eq_of_error error
    cases ended
    exact ⟨rfl, rfl, rfl, rfl⟩
  error e failed := by
    subst failed
    obtain ⟨init, last, split, reason, -⟩ := conversed.last_of_failed
    exact ⟨init, last, split, reason⟩
  notFound := conversed.notFound_iff
  deleting := conversed.deleting_iff
  stopped := conversed.calls_of_stopped
  writes := by
    have writes := conversed.writes_iff
    rwa [call?, Option.toList_none, List.append_nil] at writes
  converged _ _ _ _ := conversed.converged_iff
  named tenant ns read same := by
    subst same
    exact conversed.named read
  forgets a done entry := by
    cases outcome with
    | error e => cases done
    | ok o => simp [Except.toBool, FailureCounts.forget, List.mem_filter]
  next a done := by
    cases outcome with
    | error e => cases done
    | ok o =>
      cases done
      cases o <;> simp [ControllerSettings.actionAfter]

end Run

/-- Whatever the client replies, a reconcile keeps to its protocol; and of the trigger only the name counts. -/
theorem reconcile_protocol (c : ControllerSettings) (client : Client σ) (trigger : Tenant)
    (failures : FailureCounts) (s : σ) :
    let calls := reconcileCalls c client trigger failures s
    let result := reconcile c client trigger failures s
    Protocol c trigger.name failures calls (client.converse calls s).1
      (reconcileTenant client trigger.name s).1 result.1 result.2.1 ∧
    (client.converse calls s).2 = result.2.2 ∧
    ∀ other : Tenant, other.name = trigger.name →
      reconcileCalls c client other failures s = calls ∧ reconcile c client other failures s = result := by
  intro calls result
  have made : calls = callsMade client trigger.name s := reconcileCalls_eq ..
  obtain ⟨conversed, last⟩ := conversed_reconcileTenant client trigger.name s
  rw [← made] at conversed last
  refine ⟨?_, last.trans (reconcile_last ..).symm, fun other named => ⟨?_, ?_⟩⟩
  · have kept := conversed.protocol c failures
    obtain ⟨action, counts⟩ := reconcile_counts c client trigger failures s
    rw [Client.calls_converse, ← action, ← counts] at kept
    exact kept
  · rw [made, reconcileCalls_eq, named]
  · simp only [result, reconcile, named]

/-- A client that finds another tenant than the one that was asked for, and writes no status. -/
def contraryClient : Client Nat where
  getTenant _ n := (.ok (some (tenantOf "globex")), n + 1)
  createNamespace _ _ n := (.ok .alreadyExists, n + 1)
  createBinding _ _ n := (.ok .created, n + 1)
  patchStatus _ _ n := (.error (.internal "status" "refused"), n + 1)

theorem reconcile_protocol_contrary :
    let failures : FailureCounts := ⟨[("acme", 2)]⟩
    let calls := reconcileCalls {} contraryClient (tenantOf "acme") failures 0
    .patchStatus "acme" { namespaceName := some "tenant-globex" } ∈ calls ∧
    calls <+: [.getTenant "acme", .createNamespace "acme" (tenantOf "globex").namespaceResource,
      .createBinding "acme" (tenantOf "globex").adminBinding,
      .patchStatus "acme" (.withNamespace "tenant-globex")] ∧
    (reconcile {} contraryClient (tenantOf "acme") failures 0).1 = .error (.internal "status" "refused") ∧
    (reconcile {} contraryClient (tenantOf "acme") failures 0).2.1 = failures ∧
    (contraryClient.converse calls 0).2 = 4 ∧
    reconcile {} contraryClient { tenantOf "acme" with status := some (.withNamespace "elsewhere") } failures 0 =
      reconcile {} contraryClient (tenantOf "acme") failures 0 := by
  intro failures calls
  obtain ⟨protocol, last, others⟩ := reconcile_protocol {} contraryClient (tenantOf "acme") failures 0
  have read : .getTenant "acme" (.ok (some (tenantOf "globex"))) ∈ (contraryClient.converse calls 0).1 := by
    decide +kernel
  have settled : .createNamespace "acme" (tenantOf "globex").namespaceResource (.ok .alreadyExists) ∈
      (contraryClient.converse calls 0).1 := by
    decide +kernel
  have bound : .createBinding "acme" (tenantOf "globex").adminBinding (.ok .created) ∈
      (contraryClient.converse calls 0).1 := by
    decide +kernel
  obtain ⟨status, written⟩ := protocol.writes.mpr ⟨_, _, _, read, settled, bound, by decide⟩
  have same := (protocol.named _ "tenant-globex" read rfl).2.2.1 status written
  obtain ⟨-, -, refused, kept⟩ := protocol.failed ((contraryClient.converse calls 0).1.take 3)
    (.patchStatus "acme" (.withNamespace "tenant-globex") (.error (.internal "status" "refused"))) [] _
    (by decide +kernel) rfl
  refine ⟨same ▸ written, protocol.inOrder _ read, refused, kept, ?_, (others _ rfl).2⟩
  rw [last]
  decide +kernel

end Tenancy
