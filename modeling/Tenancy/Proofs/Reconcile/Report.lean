import Tenancy.Proofs.Reconcile.Calls

/-! # What a reconcile reports

A reconcile makes one call after the other until it has ended or a call meets an error. `Stood` says where a
run may stand and which calls it has made, all of them without an error; the cluster is then what these calls
make of the one in which the run started. A call that meets an error ends the run and adds nothing. So the
report tells what was done, and the cluster is as it was in everything else.
-/

namespace Tenancy

open Cluster (client create)

variable {c : Cluster} {key : String} {tenant : Tenant} {run : Run} {call : Call} {calls : List Call}

/-! ## The calls for a tenant -/

/-- The calls that set up the tenant under a key. -/
def setupCalls (key : String) (tenant : Tenant) : List Call :=
  [.getTenant key, .createNamespace key tenant.namespaceResource, .createBinding key tenant.adminBinding]

/-- The call that records the namespace of the tenant under a key. -/
def recordingCall (key : String) (tenant : Tenant) : Call :=
  .patchStatus key (.withNamespace tenant.namespaceName)

/-- The first calls of a reconcile put the namespace and the binding in place. -/
theorem performAll_setupCalls : performAll (setupCalls key tenant) c =
    { c with namespaces := (create tenant.namespaceName c.namespaces).2,
             bindings := (create (adminKeyOf tenant.name) c.bindings).2 } := by
  simp only [performAll, setupCalls, List.foldl_cons, List.foldl_nil, perform_createNamespace,
    perform_createBinding]
  rfl

theorem tenant?_setupCalls {other : String} :
    (performAll (setupCalls key tenant) c).tenant? other = c.tenant? other := by
  rw [performAll_setupCalls]
  rfl

/-- The last call records the namespace with the tenant, and is all that touches a tenant. -/
theorem performAll_recordingCall (found : c.tenant? key = some tenant) :
    performAll (setupCalls key tenant ++ [recordingCall key tenant]) c =
      (performAll (setupCalls key tenant) c).put key
        (Cluster.recordNamespace (some tenant.namespaceName) tenant) := by
  rw [performAll_concat, recordingCall, perform_patchStatus (tenant?_setupCalls.trans found)]

namespace Run

/-! ## Calls without errors -/

/-- Where a run for the tenant under a key may stand after the calls that it has made, if none of them met an
error. The run started in `c`. -/
inductive Stood (c : Cluster) (key : String) : Run → List Call → Prop where
  | reading : Stood c key (reading key) []
  | notFound (absent : c.tenant? key = none) : Stood c key (finished (.ok .notFound)) [.getTenant key]
  | deleting {tenant : Tenant} (found : c.tenant? key = some tenant) (leaving : tenant.isDeleting) :
    Stood c key (finished (.ok .deleting)) [.getTenant key]
  | settling {tenant : Tenant} (found : c.tenant? key = some tenant) (alive : ¬tenant.isDeleting) :
    Stood c key (settling key tenant) [.getTenant key]
  | binding {tenant : Tenant} (found : c.tenant? key = some tenant) (alive : ¬tenant.isDeleting) :
    Stood c key (binding key tenant (decide (tenant.namespaceName ∉ c.namespaces)))
      [.getTenant key, .createNamespace key tenant.namespaceResource]
  | recording {tenant : Tenant} (found : c.tenant? key = some tenant) (alive : ¬tenant.isDeleting)
    (unrecorded : tenant.recordedNamespace ≠ some tenant.namespaceName) :
    Stood c key (recording key tenant (decide (tenant.namespaceName ∉ c.namespaces))
      (decide (adminKeyOf tenant.name ∉ c.bindings))) (setupCalls key tenant)
  | recorded {tenant : Tenant} (found : c.tenant? key = some tenant) (alive : ¬tenant.isDeleting)
    (recorded : tenant.recordedNamespace = some tenant.namespaceName) :
    Stood c key (finished (.ok (.converged tenant.namespaceName
      (decide (tenant.namespaceName ∉ c.namespaces)) (decide (adminKeyOf tenant.name ∉ c.bindings)) false)))
      (setupCalls key tenant)
  | updated {tenant : Tenant} (found : c.tenant? key = some tenant) (alive : ¬tenant.isDeleting)
    (unrecorded : tenant.recordedNamespace ≠ some tenant.namespaceName) :
    Stood c key (finished (.ok (.converged tenant.namespaceName
      (decide (tenant.namespaceName ∉ c.namespaces)) (decide (adminKeyOf tenant.name ∉ c.bindings)) true)))
      (setupCalls key tenant ++ [recordingCall key tenant])

/-- A call that meets no error takes a run to the next place. -/
theorem Stood.step (stood : Stood c key run calls) (calling : run.call? = some call)
    (quiet : c.faults call.kind = []) :
    Stood c key (run.step client (performAll calls c)).1 (calls ++ [call]) := by
  have still : (performAll calls c).faults call.kind = [] := by
    rw [faults_performAll, quiet]
  cases stood with
  | reading =>
    cases calling
    rw [step_reading still]
    change Stood c key (afterReading key (c.tenant? key)) _
    cases found : c.tenant? key with
    | none => exact .notFound found
    | some tenant =>
      rw [afterReading]
      split_ifs with leaving
      · exact .deleting found leaving
      · exact .settling found leaving
  | settling found alive =>
    cases calling
    rw [step_settling still]
    exact .binding found alive
  | binding found alive =>
    cases calling
    rw [step_binding still, afterBinding]
    split_ifs with recorded
    · exact .recorded found alive recorded
    · exact .recording found alive recorded
  | recording found alive unrecorded =>
    cases calling
    rw [step_recording still (tenant?_setupCalls.trans found)]
    exact .updated found alive unrecorded
  | _ => cases calling

/-- The calls of a run, with the one that it stands before, are those for the tenant, in order. -/
theorem Stood.inOrder (stood : Stood c key run calls) (found : c.tenant? key = some tenant) :
    calls ++ run.call?.toList <+: setupCalls key tenant ++ [recordingCall key tenant] := by
  cases stood with
  | reading | notFound | deleting => exact ⟨_, rfl⟩
  | settling other | binding other | recording other | recorded other | updated other =>
    cases found.symm.trans other
    exact ⟨_, rfl⟩

/-! ## Calls with and without errors -/

/-- Where a run for the tenant under a key may stand in a cluster after the calls that it has made. The run
started in `c`. -/
inductive Traced (c : Cluster) (key : String) : Run → Cluster → List Call → Prop where
  | going {run : Run} {calls : List Call} (stood : Stood c key run calls)
    (quiet : ∀ call ∈ calls, c.faults call.kind = []) : Traced c key run (performAll calls c) calls
  | failed {run : Run} {calls : List Call} {call : Call} {e : Failure} {rest : List Failure}
    (stood : Stood c key run calls) (quiet : ∀ call ∈ calls, c.faults call.kind = [])
    (calling : run.call? = some call) (fault : c.faults call.kind = e :: rest) :
    Traced c key (finished (.error e))
      { performAll calls c with faults := fun k => if k = call.kind then rest else c.faults k }
      (calls ++ [call])

variable {s : Cluster}

/-- A step adds its call, if it makes one, to those that led here. -/
theorem Traced.step (traced : Traced c key run s calls) :
    Traced c key (run.step client s).1 (run.step client s).2 (calls ++ run.call?.toList) := by
  cases traced with
  | failed stood quiet calling fault =>
    rw [step_finished, call?, Option.toList_none, List.append_nil]
    exact .failed stood quiet calling fault
  | going stood quiet =>
    cases calling : run.call? with
    | none =>
      cases run with
      | finished result =>
        rw [step_finished, Option.toList_none, List.append_nil]
        exact .going stood quiet
      | _ => cases calling
    | some call =>
      -- the calls so far met no error, so the errors ahead are those of the start
      have faults := faults_performAll calls c
      cases fault : c.faults call.kind with
      | nil =>
        rw [step_of_quiet calling (by rw [faults, fault]), ← performAll_concat]
        refine .going (stood.step calling fault) fun made among => ?_
        rcases List.mem_append.mp among with before | last
        · exact quiet made before
        · rw [List.mem_singleton.mp last, fault]
      | cons e rest =>
        rw [step_of_fault calling (by rw [faults, fault]), faults]
        exact .failed stood quiet calling fault

end Run

/-- A reconcile ends where its calls lead. -/
theorem traced_reconcileTenant (key : String) (c : Cluster) :
    Run.Traced c key (.finished (reconcileTenant client key c).1) (reconcileTenant client key c).2
      (callsMade client key c) :=
  reconcileTenant_keeps_calls client (Run.Traced c key) (fun _ _ _ => Run.Traced.step)
    (.going .reading (List.forall_mem_nil _))

/-! ## Everything else -/

/-- `c'` is `c` but for what a reconcile of the tenant under a key may add. -/
structure Cluster.Framed (key : String) (c c' : Cluster) : Prop where
  namespaces : c.namespaces ⊆ c'.namespaces
  bindings : c.bindings ⊆ c'.bindings
  others : ∀ other, other ≠ key → c'.tenant? other = c.tenant? other
  tenant : c'.tenant? key = c.tenant? key ∨ ∃ tenant, c.tenant? key = some tenant ∧
    c'.tenant? key = some (Cluster.recordNamespace (some tenant.namespaceName) tenant)

namespace Cluster.Framed

variable {c' : Cluster}

theorem refl : Framed key c c := ⟨List.Subset.refl _, List.Subset.refl _, fun _ _ => rfl, .inl rfl⟩

theorem addNamespace (framed : Framed key c c') (name : String) :
    Framed key c { c' with namespaces := (create name c'.namespaces).2 } where
  __ := framed
  namespaces _ there := mem_create.mpr (.inr (framed.namespaces there))

theorem addBinding (framed : Framed key c c') (name : String) :
    Framed key c { c' with bindings := (create name c'.bindings).2 } where
  __ := framed
  bindings _ there := mem_create.mpr (.inr (framed.bindings there))

theorem record (framed : Framed key c c') (found : c.tenant? key = some tenant) :
    Framed key c (c'.put key (recordNamespace (some tenant.namespaceName) tenant)) where
  __ := framed
  others other different := by rw [tenant?_put, if_neg different, framed.others other different]
  tenant := .inr ⟨tenant, found, by rw [tenant?_put, if_pos rfl]⟩

theorem absent (framed : Framed key c c') (absent : c.tenant? key = none) : c'.tenant? key = none := by
  rcases framed.tenant with same | ⟨tenant, found, -⟩
  · rw [same, absent]
  · rw [absent] at found
    cases found

/-- The tenant is left as it was, or with its namespace recorded. -/
theorem found (framed : Framed key c c') (found : c.tenant? key = some tenant) :
    c'.tenant? key = some tenant ∨
      c'.tenant? key = some (recordNamespace (some tenant.namespaceName) tenant) := by
  rcases framed.tenant with same | ⟨other, held, recorded⟩
  · exact .inl (same.trans found)
  · cases found.symm.trans held
    exact .inr recorded

end Cluster.Framed

/-- The calls of a run leave everything else as it is. -/
theorem Run.Stood.framed (stood : Stood c key run calls) : Cluster.Framed key c (performAll calls c) := by
  have setup (tenant : Tenant) : Cluster.Framed key c (performAll (setupCalls key tenant) c) := by
    rw [performAll_setupCalls]
    exact (Cluster.Framed.refl.addNamespace _).addBinding _
  cases stood with
  | reading | notFound | deleting | settling => exact Cluster.Framed.refl
  | binding => exact Cluster.Framed.refl.addNamespace _
  | recording => exact setup _
  | recorded => exact setup _
  | updated found =>
    rw [performAll_recordingCall found]
    exact (setup _).record found

/-- Whatever a run has done, it stays within what belongs to its tenant. -/
theorem Run.Traced.framed {s : Cluster} (traced : Traced c key run s calls) : Cluster.Framed key c s := by
  cases traced with
  | going stood => exact stood.framed
  | failed stood => exact { stood.framed with }

/-! ## What the calls come to -/

/-- What a reconcile of the tenant under a key comes to if no call meets an error. -/
def Cluster.foreseen (key : String) (c : Cluster) : Outcome :=
  match c.tenant? key with
  | none => .notFound
  | some tenant =>
    if tenant.isDeleting then .deleting
    else .converged tenant.namespaceName (decide (tenant.namespaceName ∉ c.namespaces))
      (decide (adminKeyOf tenant.name ∉ c.bindings))
      (decide (tenant.recordedNamespace ≠ some tenant.namespaceName))

/-- For a tenant that is there to stay, a calm reconcile converges and reports what was missing. -/
theorem foreseen_of_alive (found : c.tenant? key = some tenant) (alive : ¬tenant.isDeleting) :
    c.foreseen key = .converged tenant.namespaceName (decide (tenant.namespaceName ∉ c.namespaces))
      (decide (adminKeyOf tenant.name ∉ c.bindings))
      (decide (tenant.recordedNamespace ≠ some tenant.namespaceName)) := by
  simp only [Cluster.foreseen, found, if_neg alive]

theorem foreseen_eq_notFound_iff : c.foreseen key = .notFound ↔ c.tenant? key = none := by
  rw [Cluster.foreseen]
  cases c.tenant? key with
  | none => simp
  | some tenant => by_cases leaving : tenant.isDeleting <;> simp [leaving]

theorem foreseen_eq_deleting_iff :
    c.foreseen key = .deleting ↔ ∃ tenant, c.tenant? key = some tenant ∧ tenant.isDeleting := by
  rw [Cluster.foreseen]
  cases c.tenant? key with
  | none => simp
  | some tenant => by_cases leaving : tenant.isDeleting <;> simp [leaving]

namespace Run

variable {result : Except Failure Outcome} {outcome : Outcome} {s : Cluster}

/-- A run that met no failure ends as foreseen. -/
theorem Stood.result_eq (stood : Stood c key (finished result) calls) : result = .ok (c.foreseen key) := by
  cases stood with
  | notFound absent => rw [foreseen_eq_notFound_iff.mpr absent]
  | deleting found leaving => rw [foreseen_eq_deleting_iff.mpr ⟨_, found, leaving⟩]
  | recorded found alive recorded =>
    rw [foreseen_of_alive found alive, decide_eq_false (not_not_intro recorded)]
  | updated found alive unrecorded => rw [foreseen_of_alive found alive, decide_eq_true unrecorded]

/-- At its end a run has put everything in place for a tenant that is not going away. -/
theorem Stood.inPlace (stood : Stood c key (finished result) calls) (found : c.tenant? key = some tenant)
    (alive : ¬tenant.isDeleting) :
    (performAll calls c).namespaces = (create tenant.namespaceName c.namespaces).2 ∧
    (performAll calls c).bindings = (create (adminKeyOf tenant.name) c.bindings).2 ∧
    ((performAll calls c).tenant? key).bind Tenant.recordedNamespace = some tenant.namespaceName := by
  cases stood with
  | notFound absent =>
    rw [found] at absent
    cases absent
  | deleting other leaving =>
    cases found.symm.trans other
    exact absurd leaving alive
  | recorded other _ recorded =>
    cases found.symm.trans other
    rw [tenant?_setupCalls, found, performAll_setupCalls]
    exact ⟨rfl, rfl, recorded⟩
  | updated other =>
    cases found.symm.trans other
    rw [performAll_recordingCall found, Cluster.tenant?_put, if_pos rfl, performAll_setupCalls]
    exact ⟨rfl, rfl, rfl⟩

/-- A run that succeeds met no failure. -/
theorem Traced.quiet_of_ok (traced : Traced c key (finished (.ok outcome)) s calls) :
    ∀ call ∈ calls, c.faults call.kind = [] := by
  cases traced with
  | going stood quiet => exact quiet

/-- A run that met no failure has just performed its calls. -/
theorem Traced.stood_of_quiet (traced : Traced c key run s calls)
    (quiet : ∀ call ∈ calls, c.faults call.kind = []) : Stood c key run calls ∧ s = performAll calls c := by
  cases traced with
  | going stood => exact ⟨stood, rfl⟩
  | failed stood before calling fault =>
    rw [quiet _ List.mem_concat_self] at fault
    cases fault

/-- A result without an error is the one that was foreseen, and no call met an error. -/
theorem Traced.ok_iff (traced : Traced c key (finished result) s calls) : result = .ok outcome ↔
    (∀ call ∈ calls, c.faults call.kind = []) ∧ c.foreseen key = outcome := by
  constructor
  · rintro rfl
    have quiet := traced.quiet_of_ok
    have same := (traced.stood_of_quiet quiet).1.result_eq
    exact ⟨quiet, (Except.ok.inj same).symm⟩
  · rintro ⟨quiet, rfl⟩
    exact (traced.stood_of_quiet quiet).1.result_eq

/-- Nothing was done for a tenant that is not there or is going away. -/
theorem Traced.eq_self (traced : Traced c key (finished (.ok outcome)) s calls)
    (nothing : outcome = .notFound ∨ outcome = .deleting) : s = c := by
  obtain ⟨stood, last⟩ := traced.stood_of_quiet traced.quiet_of_ok
  cases stood with
  | notFound => exact last
  | deleting => exact last
  | recorded => simp at nothing
  | updated => simp at nothing

/-- A call that met an error was the last one. -/
theorem Traced.failed_of_fault {e : Failure} {rest : List Failure}
    (traced : Traced c key (finished result) s calls) (made : call ∈ calls)
    (fault : c.faults call.kind = e :: rest) :
    result = .error e ∧ ∃ before, calls = before ++ [call] ∧
      (∀ earlier ∈ before, c.faults earlier.kind = []) ∧
      s = { performAll before c with faults := fun k => if k = call.kind then rest else c.faults k } := by
  cases traced with
  | going stood quiet =>
    rw [quiet call made] at fault
    cases fault
  | failed stood quiet calling met =>
    rcases List.mem_append.mp made with earlier | last
    · rw [quiet call earlier] at fault
      cases fault
    · obtain rfl := List.mem_singleton.mp last
      cases met.symm.trans fault
      exact ⟨rfl, _, rfl, quiet, rfl⟩

/-- A run that fails does so by the failure one of its calls met. -/
theorem Traced.exists_fault {e : Failure} (traced : Traced c key (finished (.error e)) s calls) :
    ∃ call ∈ calls, ∃ rest, c.faults call.kind = e :: rest := by
  cases traced with
  | going stood => cases stood
  | failed stood quiet calling met => exact ⟨_, List.mem_concat_self, _, met⟩

/-- The calls made are the first ones of the whole protocol. -/
theorem Traced.inOrder (traced : Traced c key (finished result) s calls)
    (found : c.tenant? key = some tenant) :
    calls <+: setupCalls key tenant ++ [recordingCall key tenant] := by
  cases traced with
  | going stood =>
    have made := stood.inOrder found
    rw [call?, Option.toList_none, List.append_nil] at made
    exact made
  | failed stood quiet calling =>
    have made := stood.inOrder found
    rw [calling] at made
    exact made

end Run

/-! ## The report -/

/-- The result of a reconcile of the tenant under a key, started in `c`, tells which calls it made and what
they did. `after` is the cluster in which it ended. -/
structure Report (key : String) (c : Cluster) (calls : List Call) (result : Except Failure Outcome)
    (after : Cluster) : Prop where
  notFound : result = .ok .notFound ↔
    (∀ call ∈ calls, c.faults call.kind = []) ∧ c.tenant? key = none
  deleting : result = .ok .deleting ↔
    (∀ call ∈ calls, c.faults call.kind = []) ∧ ∃ tenant, c.tenant? key = some tenant ∧ tenant.isDeleting
  /-- Nothing is done for a tenant that is not there or is going away. -/
  unchanged : result = .ok .notFound ∨ result = .ok .deleting → after = c
  /-- Every other tenant has everything in place if no call met an error, and each flag tells whether that was
  missing. -/
  converged : ∀ tenant ns, c.tenant? key = some tenant → ¬tenant.isDeleting → ns = "tenant-" ++ tenant.name →
    (∀ call ∈ calls, c.faults call.kind = []) →
      result = .ok (.converged ns (decide (ns ∉ c.namespaces)) (decide (ns ++ "/tenant-admin" ∉ c.bindings))
        (decide (tenant.recordedNamespace ≠ some ns))) ∧
      (∀ x, x ∈ after.namespaces ↔ x = ns ∨ x ∈ c.namespaces) ∧
      (∀ x, x ∈ after.bindings ↔ x = ns ++ "/tenant-admin" ∨ x ∈ c.bindings) ∧
      (after.tenant? key).bind Tenant.recordedNamespace = some ns ∧ after.faults = c.faults
  /-- A call that meets an error is the last one. Its error is the result, and what the calls before it did
  remains. -/
  failed : ∀ call ∈ calls, ∀ e rest, c.faults call.kind = e :: rest → result = .error e ∧
    ∃ before, calls = before ++ [call] ∧ (∀ earlier ∈ before, c.faults earlier.kind = []) ∧
      after = { performAll before c with faults := fun k => if k = call.kind then rest else c.faults k }
  /-- An error is the error of a call. -/
  error : ∀ e, result = .error e → ∃ call ∈ calls, ∃ rest, c.faults call.kind = e :: rest
  /-- The calls are those for the tenant, in order. -/
  inOrder : ∀ tenant, c.tenant? key = some tenant → calls <+: [.getTenant key,
    .createNamespace key tenant.namespaceResource, .createBinding key tenant.adminBinding,
    .patchStatus key (.withNamespace ("tenant-" ++ tenant.name))]
  namespaces : c.namespaces ⊆ after.namespaces
  bindings : c.bindings ⊆ after.bindings
  others : ∀ other, other ≠ key → after.tenant? other = c.tenant? other
  absent : c.tenant? key = none → after.tenant? key = none
  /-- Of the tenant itself nothing changes but the namespace in its status. -/
  tenant : ∀ tenant, c.tenant? key = some tenant → after.tenant? key = some tenant ∨
    after.tenant? key = some { tenant with
      status := some { tenant.status.getD {} with namespaceName := some ("tenant-" ++ tenant.name) } }

theorem adminKeyOf_eq (name : String) : adminKeyOf name = namespaceOf name ++ "/tenant-admin" :=
  String.append_assoc ..

/-- A finished run bears out everything that is reported of it. -/
theorem Run.Traced.report {result : Except Failure Outcome} {after : Cluster}
    (traced : Traced c key (finished result) after calls) : Report key c calls result after where
  notFound := traced.ok_iff.trans (and_congr_right' foreseen_eq_notFound_iff)
  deleting := traced.ok_iff.trans (and_congr_right' foreseen_eq_deleting_iff)
  unchanged := by
    rintro (rfl | rfl)
    · exact traced.eq_self (.inl rfl)
    · exact traced.eq_self (.inr rfl)
  converged := by
    rintro tenant _ found alive rfl quiet
    have foreseen := traced.ok_iff.mpr ⟨quiet, foreseen_of_alive found alive⟩
    obtain ⟨stood, rfl⟩ := traced.stood_of_quiet quiet
    obtain ⟨namespaces, bindings, recorded⟩ := stood.inPlace found alive
    rw [adminKeyOf_eq] at foreseen bindings
    refine ⟨foreseen, fun x => ?_, fun x => ?_, recorded, faults_performAll calls c⟩
    · rw [namespaces]
      exact Cluster.mem_create
    · rw [bindings]
      exact Cluster.mem_create
  failed _ made _ _ fault := traced.failed_of_fault made fault
  error := by
    rintro e rfl
    exact traced.exists_fault
  inOrder _ := traced.inOrder
  namespaces := traced.framed.namespaces
  bindings := traced.framed.bindings
  others := traced.framed.others
  absent := traced.framed.absent
  tenant _ := traced.framed.found

/-- A reconcile does exactly what it reports and nothing else. -/
theorem report_reconcileTenant (key : String) (c : Cluster) :
    Report key c (callsMade client key c) (reconcileTenant client key c).1
      (reconcileTenant client key c).2 :=
  (traced_reconcileTenant key c).report

/-- A tenant that is stored under a key other than its name, with a life cycle that others have recorded. -/
def borrowedTenant : Tenant where
  metadata := ⟨[("name", .string "acme")]⟩
  spec := ⟨"Acme", none, none, .namespaced, none, none⟩
  status := some { phase := some "Ready" }

/-- A cluster with that tenant, which refuses one binding. -/
def refusingCluster : Cluster where
  tenants := [("lent", borrowedTenant)]
  namespaces := ["default"]
  faults
    | .createBinding => [.internal "binding" "refused"]
    | _ => []

theorem report_refusingCluster :
    (reconcileTenant client "lent" refusingCluster).1 = .error (.internal "binding" "refused") ∧
    (∃ before, callsMade client "lent" refusingCluster =
      before ++ [.createBinding "lent" borrowedTenant.adminBinding] ∧
      (reconcileTenant client "lent" refusingCluster).2.namespaces =
        (performAll before refusingCluster).namespaces) ∧
    (reconcileTenant client "nobody" refusingCluster).1 = .ok .notFound ∧
    (reconcileTenant client "lent" { refusingCluster with faults := fun _ => [] }).1 =
      .ok (.converged "tenant-acme" true true true) := by
  have made : .createBinding "lent" borrowedTenant.adminBinding ∈
      callsMade client "lent" refusingCluster := by
    decide +kernel
  obtain ⟨refused, before, calls, -, last⟩ :=
    (report_reconcileTenant "lent" refusingCluster).failed _ made _ [] rfl
  have absent := (report_reconcileTenant "nobody" refusingCluster).notFound
  have calm := (report_reconcileTenant "lent" { refusingCluster with faults := fun _ => [] }).converged
    borrowedTenant "tenant-acme" rfl (by decide) rfl fun _ _ => rfl
  refine ⟨refused, ⟨before, calls, ?_⟩, absent.mpr ⟨?_, rfl⟩, calm.1⟩
  · rw [last]
  · decide +kernel

end Tenancy
