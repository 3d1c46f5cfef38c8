import Tenancy.Proofs.Reconcile.Standing

/-! # Reconciles at the same time

Many runs share one cluster, and a schedule says which of them makes the next call. `Consistent` says
what holds under every schedule: every run stands where it may, the cluster is on the way, and of every
name the runs that created it are counted. From it follows that every schedule ends in the same
cluster, the one to which the tenants lead when they are reconciled one after the other.
-/

namespace Tenancy

open Cluster (Between Settled client create)

/-! ## Schedules -/

/-- Runs, each with the name of its tenant, and the cluster they share. -/
structure Flight where
  runs : List (String × Run)
  cluster : Cluster

namespace Flight

/-- A run for each of the names, before its first call. -/
def launch (names : List String) (c : Cluster) : Flight :=
  ⟨names.map fun name => (name, Run.start name), c⟩

/-- Lets the run with an index make its next call. -/
def turn (f : Flight) (index : Nat) : Flight :=
  match f.runs[index]? with
  | none => f
  | some (name, run) =>
    let (run, cluster) := run.step client f.cluster
    ⟨f.runs.set index (name, run), cluster⟩

/-- Lets the runs make calls in the order of a schedule. -/
def play (f : Flight) (schedule : List Nat) : Flight := schedule.foldl turn f

/-- Every run has ended. -/
def Landed (f : Flight) : Prop := ∀ entry ∈ f.runs, entry.2.result?.isSome

variable {f : Flight} {index : Nat} {name : String} {run run' : Run}

theorem turn_none (absent : f.runs[index]? = none) : f.turn index = f := by
  rw [turn, absent]

theorem turn_some (present : f.runs[index]? = some (name, run)) : f.turn index =
    ⟨f.runs.set index (name, (run.step client f.cluster).1), (run.step client f.cluster).2⟩ := by
  rw [turn, present]

/-- The runs keep their tenants. -/
theorem names_turn (f : Flight) (index : Nat) : (f.turn index).runs.map Prod.fst = f.runs.map Prod.fst := by
  cases present : f.runs[index]? with
  | none => rw [turn_none present]
  | some entry =>
    obtain ⟨inside, held⟩ := List.getElem?_eq_some_iff.mp present
    have named : index < (f.runs.map Prod.fst).length := by rwa [List.length_map]
    have same : (f.runs.map Prod.fst)[index] = entry.1 := by rw [List.getElem_map, held]
    rw [turn_some present, List.map_set, ← same, List.set_getElem_self]

theorem play_cons (f : Flight) (index : Nat) (schedule : List Nat) :
    f.play (index :: schedule) = (f.turn index).play schedule := rfl

/-! ## How long runs take -/

private theorem remaining_turn (f : Flight) (index other : Nat) {entry : String × Run}
    (present : f.runs[other]? = some entry) :
    ∃ run, (f.turn index).runs[other]? = some (entry.1, run) ∧
      run.remaining ≤ entry.2.remaining - if index = other then 1 else 0 := by
  cases turning : f.runs[index]? with
  | none =>
    rw [turn_none turning, if_neg fun same => by rw [same, present] at turning; cases turning]
    exact ⟨entry.2, present, Nat.le_refl _⟩
  | some moved =>
    obtain ⟨name, run⟩ := moved
    rw [turn_some turning, List.getElem?_set]
    have inside : index < f.runs.length := (List.getElem?_eq_some_iff.mp turning).1
    split_ifs with same
    · subst same
      rw [turning] at present
      cases present
      refine ⟨_, rfl, ?_⟩
      cases ended : run.result? with
      | none =>
        exact Nat.le_sub_one_of_lt (run.remaining_step_lt client f.cluster ended)
      | some result =>
        cases run with
        | finished result => exact Nat.zero_le _
        | _ => cases ended
    · exact ⟨entry.2, present, Nat.le_refl _⟩

/-- Every turn of a run brings it one call closer to its end. -/
theorem remaining_play (schedule : List Nat) {entry : String × Run} :
    ∀ f : Flight, f.runs[index]? = some entry →
      ∃ run, (f.play schedule).runs[index]? = some (entry.1, run) ∧
        run.remaining ≤ entry.2.remaining - schedule.count index := by
  induction schedule generalizing entry with
  | nil => exact fun f present => ⟨entry.2, present, Nat.le_refl _⟩
  | cons first schedule ih =>
    intro f present
    obtain ⟨run, moved, closer⟩ := remaining_turn f first index present
    obtain ⟨last, found, done⟩ := ih (f.turn first) moved
    refine ⟨last, found, done.trans ?_⟩
    simp only [List.count_cons, beq_iff_eq]
    split_ifs at closer ⊢ <;> omega

end Flight

/-! ## Who created what -/

/-- How many runs have created an object, going by the names before and now. -/
def tally (before now : NameSet) (x : String) : Nat := if x ∈ before ∨ x ∉ now then 0 else 1

/-- Of the runs for the tenant called `name`, those that made an object. -/
def makers (made : Run → Bool) (name : String) (runs : List (String × Run)) : Nat :=
  runs.countP fun entry => entry.1 = name && made entry.2

/-- For every tenant, the runs that made its object are as many as the names tell. -/
def Tallied (made : Run → Bool) (key : String → String) (before now : NameSet)
    (runs : List (String × Run)) : Prop :=
  ∀ name, makers made name runs = tally before now (key name)

variable {made : Run → Bool} {key : String → String} {before now : NameSet}
  {runs : List (String × Run)} {index : Nat} {name : String} {run run' : Run}

private theorem makers_set (made : Run → Bool) (run' : Run)
    (present : runs[index]? = some (name, run)) (other : String) :
    makers made other (runs.set index (name, run')) + (if name = other ∧ made run then 1 else 0) =
      makers made other runs + (if name = other ∧ made run' then 1 else 0) := by
  obtain ⟨inside, held⟩ := List.getElem?_eq_some_iff.mp present
  have counted := List.boole_getElem_le_countP (p := fun e => e.1 = other && made e.2) inside
  rw [makers, List.countP_set inside, makers]
  simp only [held, Bool.and_eq_true, decide_eq_true_eq] at counted ⊢
  omega

theorem Tallied.start (names : List String) (idle : ∀ name, made (Run.start name) = false) :
    Tallied made key before before (names.map fun name => (name, Run.start name)) := by
  intro name
  rw [tally, if_pos (Decidable.em _), makers, List.countP_eq_zero]
  simp [idle]

/-- A step that makes nothing keeps the tally. -/
theorem Tallied.same (tallied : Tallied made key before now runs)
    (present : runs[index]? = some (name, run)) (same : made run' = made run) :
    Tallied made key before now (runs.set index (name, run')) := by
  intro other
  have counted := makers_set made run' present other
  rw [same] at counted
  rw [← tallied other]
  omega

/-- A step that makes what was not there adds it to the tally, once. -/
theorem Tallied.create (tallied : Tallied made key before now runs) (injective : Function.Injective key)
    (kept : ∀ x ∈ before, x ∈ now) (present : runs[index]? = some (name, run))
    (idle : made run = false) (makes : made run' = decide (key name ∉ now)) :
    Tallied made key before (create (key name) now).2 (runs.set index (name, run')) := by
  intro other
  have counted := makers_set made run' present other
  rw [tallied other, idle, makes, if_neg (by simp), Nat.add_zero] at counted
  rw [counted, tally, tally]
  simp only [Cluster.mem_create, decide_eq_true_eq]
  by_cases same : name = other
  · subst same
    by_cases there : key name ∈ now
    · simp [there]
    · have fresh : key name ∉ before := fun early => there (kept _ early)
      simp [there, fresh]
  · have apart : key other ≠ key name := fun equal => same (injective equal).symm
    simp [same, apart]

/-! ## Every schedule -/

/-- What holds of runs for the tenants called `names` that were launched in the cluster `c₀`. -/
structure Consistent (names : List String) (c₀ : Cluster) (f : Flight) : Prop where
  names_eq : f.runs.map Prod.fst = names
  between : Between names c₀ f.cluster
  stands : ∀ entry ∈ f.runs, Run.Stands f.cluster entry.1 entry.2
  namespaces : Tallied Run.madeNamespace namespaceOf c₀.namespaces f.cluster.namespaces f.runs
  bindings : Tallied Run.madeBinding adminKeyOf c₀.bindings f.cluster.bindings f.runs

variable {names : List String} {c₀ c : Cluster} {f : Flight}

/-- Runs that have not begun are consistent with the cluster they start from. -/
theorem Consistent.launch (names : List String) (sound : c.Sound) :
    Consistent names c (.launch names c) where
  names_eq := by simp [Flight.launch, Function.comp_def]
  between := .refl sound
  stands entry present := by
    obtain ⟨name, -, rfl⟩ := List.mem_map.mp present
    exact .reading
  namespaces := .start names fun _ => rfl
  bindings := .start names fun _ => rfl

/-- A call of any of the runs keeps what holds. -/
theorem Consistent.turn (consistent : Consistent names c₀ f) (sound : c₀.Sound)
    (faultless : c₀.Faultless) (live : ∀ name ∈ names, c₀.Live name) (index : Nat) :
    Consistent names c₀ (f.turn index) := by
  cases present : f.runs[index]? with
  | none => rwa [Flight.turn_none present]
  | some entry =>
    obtain ⟨name, run⟩ := entry
    have mem := List.mem_of_getElem? present
    have asked : name ∈ names := consistent.names_eq ▸ List.mem_map_of_mem (f := Prod.fst) mem
    have quiet : f.cluster.Faultless := fun kind => consistent.between.faults ▸ faultless kind
    obtain ⟨tenant, found, own, alive⟩ := consistent.between.live sound (live name asked)
    obtain ⟨effect, moved⟩ := (consistent.stands _ mem).step quiet found own alive
    have grows := effect.grows
    have between := effect.between consistent.between asked
    have stands : ∀ entry ∈ f.runs.set index (name, (run.step client f.cluster).1),
        Run.Stands (run.step client f.cluster).2 entry.1 entry.2 := by
      intro entry among
      rcases List.mem_or_eq_of_mem_set among with kept | rfl
      · exact (consistent.stands entry kept).mono grows
      · exact moved
    have names_eq := (f.names_turn index).trans consistent.names_eq
    rw [Flight.turn_some present] at names_eq ⊢
    generalize (run.step client f.cluster).1 = run' at *
    generalize (run.step client f.cluster).2 = c at *
    refine ⟨names_eq, between, stands, ?_, ?_⟩
    · cases effect with
      | quiet same => exact consistent.namespaces.same present same
      | namespaced idle makes =>
        exact consistent.namespaces.create namespaceOf_injective consistent.between.namespacesKept
          present idle makes
      | bound same => exact consistent.namespaces.same present same
      | recorded found same => exact consistent.namespaces.same present same
    · cases effect with
      | quiet _ same => exact consistent.bindings.same present same
      | namespaced _ _ same => exact consistent.bindings.same present same
      | bound _ idle makes =>
        exact consistent.bindings.create adminKeyOf_injective consistent.between.bindingsKept
          present idle makes
      | recorded found _ same => exact consistent.bindings.same present same

/-- What holds at the launch holds under every schedule. -/
theorem Consistent.play (consistent : Consistent names c₀ f) (sound : c₀.Sound)
    (faultless : c₀.Faultless) (live : ∀ name ∈ names, c₀.Live name) (schedule : List Nat) :
    Consistent names c₀ (f.play schedule) := by
  induction schedule generalizing f with
  | nil => exact consistent
  | cons index schedule ih => exact ih (consistent.turn sound faultless live index)

/-- When every run has ended, everything is in place. -/
theorem Consistent.settled (consistent : Consistent names c₀ f) (landed : f.Landed) :
    Settled names c₀ f.cluster := by
  have ended : ∀ name ∈ names, namespaceOf name ∈ f.cluster.namespaces ∧
      adminKeyOf name ∈ f.cluster.bindings ∧ f.cluster.Records name := by
    intro name asked
    obtain ⟨entry, present, rfl⟩ := List.mem_map.mp (consistent.names_eq ▸ asked)
    obtain ⟨result, ended⟩ := Option.isSome_iff_exists.mp (landed entry present)
    exact ((consistent.stands entry present).converged ended).2
  exact consistent.between.settled (fun name asked => (ended name asked).1)
    (fun name asked => (ended name asked).2.1) fun name asked => (ended name asked).2.2

/-! ## One after the other -/

/-- A run that has the cluster to itself makes its calls as `finish` does. -/
theorem play_alone (name : String) (count : Nat) : ∀ (run : Run) (c : Cluster), run.remaining ≤ count →
    (Flight.mk [(name, run)] c).play (List.replicate count 0) =
      ⟨[(name, .finished (run.finish client c).1)], (run.finish client c).2⟩ := by
  induction count with
  | zero =>
    intro run c ended
    cases run with
    | finished result => rw [Run.finish_finished]; rfl
    | _ => exact absurd ended (Nat.not_succ_le_zero _)
  | succ count ih =>
    intro run c enough
    rw [List.replicate_succ, Flight.play_cons, Flight.turn_some (List.getElem?_cons_zero ..),
      List.set_cons_zero]
    cases going : run.result? with
    | none =>
      have closer := run.remaining_step_lt client c going
      rw [ih _ _ (Nat.le_of_lt_succ (lt_of_lt_of_le closer enough)), Run.finish_step c going]
    | some result =>
      cases run with
      | finished result =>
        rw [Run.step_finished, ih _ _ (Nat.zero_le _)]
      | _ => cases going

/-- Reconciling one tenant settles the cluster for it. -/
theorem settled_reconcileTenant (sound : c.Sound) (faultless : c.Faultless) {name : String}
    (live : c.Live name) : Settled [name] c (reconcileTenant client name c).2 := by
  have consistent := (Consistent.launch [name] sound).play sound faultless
    (List.forall_mem_singleton.mpr live) (List.replicate 4 0)
  have alone := play_alone name 4 (Run.start name) c (Nat.le_refl 4)
  rw [Flight.launch, List.map_singleton, alone] at consistent
  exact consistent.settled (List.forall_mem_singleton.mpr rfl)

/-- Reconcile all tenants one after the other. -/
def reconcileAll (names : List String) (c : Cluster) : Cluster :=
  names.foldl (fun c name => (reconcileTenant client name c).2) c

/-- Reconciling names one after the other settles each of them. -/
theorem settled_reconcileAll (sound : c.Sound) (faultless : c.Faultless)
    (live : ∀ name ∈ names, c.Live name) : Settled names c (reconcileAll names c) := by
  induction names generalizing c with
  | nil => exact .refl sound
  | cons name names ih =>
    rw [List.forall_mem_cons] at live
    have first := settled_reconcileTenant sound faultless live.1
    have quiet : (reconcileTenant client name c).2.Faultless := fun kind =>
      first.faults ▸ faultless kind
    exact first.trans (ih (first.sound sound) quiet fun other asked => first.live (live.2 other asked))

/-- Reconciles of tenants that exist are confluent. Under every schedule a run that ends has converged,
four turns for each run are enough for all to end, and when all have ended the cluster is the one to
which the tenants lead one after the other in any order. Of the runs for one tenant, exactly one has
created the namespace if it was not there, and none if it was; and so for the binding. -/
theorem reconciles_confluent (names : List String) (c : Cluster) (sound : c.Sound)
    (faultless : c.Faultless) (live : ∀ name ∈ names, c.Live name) (schedule : List Nat) :
    let last := (Flight.launch names c).play schedule
    last.runs.map Prod.fst = names ∧
    (∀ entry ∈ last.runs, ∀ result, entry.2.result? = some result →
      ∃ madeNamespace madeBinding updated,
        result = .ok (.converged (namespaceOf entry.1) madeNamespace madeBinding updated)) ∧
    ((∀ index < names.length, 4 ≤ schedule.count index) → last.Landed) ∧
    (last.Landed →
      (∀ order : List String, order.Nodup → (∀ name, name ∈ order ↔ name ∈ names) →
        last.cluster = reconcileAll order c) ∧
      ∀ name ∈ names,
        makers Run.madeNamespace name last.runs = (if namespaceOf name ∈ c.namespaces then 0 else 1) ∧
        makers Run.madeBinding name last.runs = (if adminKeyOf name ∈ c.bindings then 0 else 1)) := by
  intro last
  have consistent : Consistent names c last :=
    (Consistent.launch names sound).play sound faultless live schedule
  refine ⟨consistent.names_eq, ?_, ?_, ?_⟩
  · intro entry present result ended
    exact ((consistent.stands entry present).converged ended).1
  · intro turns entry present
    obtain ⟨index, inside, rfl⟩ := List.getElem_of_mem present
    have length : last.runs.length = names.length := by
      rw [← consistent.names_eq, List.length_map]
    have asked : index < names.length := length ▸ inside
    have launched : (Flight.launch names c).runs[index]? = some (names[index], Run.start names[index]) := by
      simp [Flight.launch, asked]
    -- every turn brings a run that goes on closer to its end, and it starts four away
    obtain ⟨run, found, closer⟩ := Flight.remaining_play schedule _ launched
    have enough := turns index asked
    have same : last.runs[index] = (names[index], run) :=
      Option.some.inj ((List.getElem?_eq_getElem inside).symm.trans found)
    rw [same]
    have ended : run.remaining = 0 := by
      have start : (Run.start names[index]).remaining = 4 := rfl
      simp only [start] at closer
      omega
    cases going : run.result? with
    | some result => rfl
    | none =>
      have more := Run.result?_eq_none_iff.mp going
      omega
  · intro landed
    have settled := consistent.settled landed
    refine ⟨fun order _ same => ?_, fun name asked => ⟨?_, ?_⟩⟩
    -- both clusters are settled for the same tenants, and only one cluster is
    · exact settled.unique (settled_reconcileAll sound faultless fun name asked =>
        live name ((same name).mp asked)) fun name => (same name).symm
    · have there := (settled.namespaces _).mpr (.inr ⟨name, asked, rfl⟩)
      simp [consistent.namespaces name, tally, there]
    · have there := (settled.bindings _).mpr (.inr ⟨name, asked, rfl⟩)
      simp [consistent.bindings name, tally, there]

/-- A cluster with one tenant, whose namespace is there and whose binding is not. -/
def acmeCluster : Cluster where
  tenants := [("acme",
    ⟨⟨[("name", .string "acme")]⟩, ⟨"Acme", none, none, .namespaced, none, none⟩, none⟩)]
  namespaces := ["tenant-acme"]

theorem reconciles_confluent_acme :
    let last := (Flight.launch ["acme", "acme"] acmeCluster).play [0, 1, 1, 0, 0, 1, 1, 0]
    last.cluster = reconcileAll ["acme"] acmeCluster ∧ makers Run.madeNamespace "acme" last.runs = 0 ∧
      makers Run.madeBinding "acme" last.runs = 1 := by
  have sound : acmeCluster.Sound := by
    refine ⟨by decide, fun key tenant found => ?_, by decide, by decide⟩
    obtain ⟨entry, among, rfl⟩ := Option.map_eq_some_iff.mp found
    have same := List.find?_some among
    obtain rfl := List.mem_singleton.mp (List.mem_of_find?_eq_some among)
    exact of_decide_eq_true same
  have faultless : acmeCluster.Faultless := fun _ => rfl
  have live : ∀ name ∈ ["acme", "acme"], acmeCluster.Live name := by
    simpa using ⟨_, rfl, rfl⟩
  obtain ⟨-, -, lands, confluent⟩ := reconciles_confluent ["acme", "acme"] acmeCluster sound faultless
    live [0, 1, 1, 0, 0, 1, 1, 0]
  obtain ⟨same, made⟩ := confluent (lands (by decide))
  exact ⟨same ["acme"] (by decide) (by simp), made "acme" (by simp)⟩

end Tenancy
