import Tenancy.Cluster.Api
import Tenancy.Proofs.Json.Merging
import Tenancy.Proofs.Json.Normal

/-! # The patch of a status

Others write members of a tenant's status too. The patch that the client sends names the members that it has
to set and no others, and none of them is null, so that it takes nothing away from anybody: a member that the
status leaves open stays what it was, and so does everything outside the status.
-/

namespace Tenancy

open Json (Increasing lookup present)

variable {status : TenantStatus} {document : Json} {members : List (String × Json)} {name : String}

namespace TenantStatus

/-- What the status says of a member of its document; nothing for a member that it leaves open. -/
def member? (s : TenantStatus) (name : String) : Option Json :=
  match name with
  | "phase" => s.phase.map .string
  | "namespace" => s.namespaceName.map .string
  | "falcoEnabled" => s.falcoEnabled.map .bool
  | "spireRegistered" => s.spireRegistered.map .bool
  | "backupScheduled" => s.backupScheduled.map .bool
  | "esgScore" => s.esgScore.map fun d => .number (.double d)
  | "lastAudit" => s.lastAudit.map .string
  | _ => none

/-- The members that a status may have, in the order in which they are written. -/
def memberNames : List String :=
  ["phase", "namespace", "falcoEnabled", "spireRegistered", "backupScheduled", "esgScore", "lastAudit"]

def given (s : TenantStatus) : List (String × Option Json) := memberNames.map fun name => (name, s.member? name)

theorem toJson_eq (s : TenantStatus) : s.toJson = .object (present s.given) := rfl

theorem names_given (s : TenantStatus) : (s.given.map Prod.fst).Nodup := by
  have names : s.given.map Prod.fst = memberNames := rfl
  rw [names]
  decide

/-- The sent body holds exactly the members that the status gives. -/
theorem lookup_given (s : TenantStatus) (name : String) : lookup name (present s.given) = s.member? name := by
  by_cases known : name ∈ memberNames
  · exact Json.lookup_present s.names_given (List.mem_map_of_mem known)
  · have open_ : s.member? name = none := by
      simp [memberNames] at known
      simp [member?, known]
    rw [open_]
    exact Json.lookup_present_eq_none known

/-- What a status says of a member replaces what was there, and can be written if the score can. -/
theorem replaces_member? {value : Json} (finite : ∀ score, status.esgScore = some score → score.isFinite)
    (said : status.member? name = some value) : value.replaces ∧ value.expressed = value := by
  unfold member? at said
  split at said
  case h_8 => cases said
  all_goals obtain ⟨v, given, rfl⟩ := Option.map_eq_some_iff.mp said
  case h_6 => exact ⟨rfl, by rw [Json.expressed, if_pos (finite v given)]⟩
  all_goals exact ⟨rfl, rfl⟩

/-- Every value of a status is a plain one, so merging puts it in place of what was there. -/
theorem replaces_given (finite : ∀ score, status.esgScore = some score → score.isFinite) :
    ∀ m ∈ present status.given, m.2.replaces ∧ m.2.expressed = m.2 := by
  rintro ⟨name, value⟩ among
  have distinct : ((present status.given).map Prod.fst).Nodup :=
    Json.names_present_sublist.nodup status.names_given
  have said := Json.lookup_of_mem distinct among
  rw [lookup_given] at said
  exact replaces_member? finite said

end TenantStatus

/-! ## The patch on a document -/

theorem expressedMembers_eq_self (plain : ∀ m ∈ members, m.2.expressed = m.2) :
    Json.expressedMembers members = members := by
  induction members with
  | nil => rfl
  | cons m members ih =>
    obtain ⟨name, value⟩ := m
    rw [List.forall_mem_cons] at plain
    rw [Json.expressedMembers, plain.1, ih plain.2]

/-- The body of the patch has the members that the status gives. -/
theorem statusBody_eq (finite : ∀ score, status.esgScore = some score → score.isFinite) :
    Api.statusBody status = .object [("status", .object (present status.given))] := by
  rw [Api.statusBody, TenantStatus.toJson_eq, Json.expressed,
    expressedMembers_eq_self fun m among => (TenantStatus.replaces_given finite m among).2]

/-- The members of the status of a document; none, if it has no status. -/
def statusMembers (document : Json) : List (String × Json) :=
  ((document.get? "status").bind Json.members?).getD []

/-- A document is patched in its status alone. -/
theorem mergePatch_statusBody (finite : ∀ score, status.esgScore = some score → score.isFinite) :
    (Json.object members).mergePatch (Api.statusBody status) = .object (Json.insert "status"
      (.object (Json.mergeMembers (statusMembers (.object members)) (present status.given))) members) := by
  have held : ((lookup "status" members).getD .null).members?.getD [] = statusMembers (.object members) := by
    rw [statusMembers, Json.get?]
    cases lookup "status" members <;> rfl
  rw [statusBody_eq finite, Json.mergePatch, Json.members?, Option.getD_some, Json.mergeMembers,
    Json.mergePatch, held, Json.mergeMembers]
  exact Json.noConfusion

/-- What a document says of a member of its status. -/
def statusMember (document : Json) (name : String) : Option Json := (document.get? "status").bind (·.get? name)

/-- The members that merging leaves below `status`, told one by one. -/
theorem lookup_statusMembers (document : Json) (name : String) :
    lookup name (statusMembers document) = statusMember document name := by
  rw [statusMembers, statusMember]
  cases document.get? "status" with
  | none => rfl
  | some own => cases own <;> rfl

/-- The status of a document whose members are in order has its members in order. -/
theorem increasing_statusMembers (ordered : document.isOrdered) : Increasing (statusMembers document) := by
  rw [statusMembers]
  cases found : document.get? "status" with
  | none => exact Json.increasing_nil
  | some own =>
    cases own with
    | object held => exact (Json.isOrdered_object.mp (Json.isOrdered_of_get? ordered found)).1
    | _ => exact Json.increasing_nil

/-- One document is the other one with the members of a status set, and nothing else changed. -/
structure Sets (status : TenantStatus) (document patched : Json) : Prop where
  /-- What is outside the status stays. -/
  outside : ∀ name, name ≠ "status" → patched.get? name = document.get? name
  /-- There is a status now, and it is an object. -/
  inside : ∃ own, patched.get? "status" = some (.object own)
  /-- What the status gives is there. -/
  given : ∀ name value, status.member? name = some value → statusMember patched name = some value
  /-- What the status leaves open stays, whoever wrote it. -/
  kept : ∀ name, status.member? name = none → statusMember patched name = statusMember document name

/-- Merging the sent body sets the given members of the status and leaves everything else alone. -/
theorem sets_mergePatch (finite : ∀ score, status.esgScore = some score → score.isFinite) :
    Sets status (.object members) ((Json.object members).mergePatch (Api.statusBody status)) := by
  have plain := fun m among => (TenantStatus.replaces_given finite m among).1
  have distinct : ((present status.given).map Prod.fst).Nodup :=
    Json.names_present_sublist.nodup status.names_given
  have placed : ((Json.object members).mergePatch (Api.statusBody status)).get? "status" =
      some (.object (Json.mergeMembers (statusMembers (.object members)) (present status.given))) := by
    rw [mergePatch_statusBody finite]
    exact Json.lookup_insert_self
  have member (name) : statusMember ((Json.object members).mergePatch (Api.statusBody status)) name =
      (status.member? name).or (statusMember (.object members) name) := by
    rw [statusMember, placed, Option.bind_some, Json.get?, Json.lookup_mergeMembers plain distinct,
      TenantStatus.lookup_given, lookup_statusMembers]
  constructor
  case outside =>
    intro name other
    rw [mergePatch_statusBody finite]
    exact Json.lookup_insert_of_ne other
  case inside => exact ⟨_, placed⟩
  case given =>
    intro name value said
    rw [member, said, Option.some_or]
  case kept =>
    intro name said
    rw [member, said, Option.none_or]

/-- A second patch of the same status finds everything as it sets it. -/
theorem mergePatch_mergePatch_statusBody (finite : ∀ score, status.esgScore = some score → score.isFinite)
    (ordered : (Json.object members).isOrdered) :
    ((Json.object members).mergePatch (Api.statusBody status)).mergePatch (Api.statusBody status) =
      (Json.object members).mergePatch (Api.statusBody status) := by
  have plain := fun m among => (TenantStatus.replaces_given finite m among).1
  have distinct : ((present status.given).map Prod.fst).Nodup :=
    Json.names_present_sublist.nodup status.names_given
  have own (merged : List (String × Json)) :
      statusMembers (.object (Json.insert "status" (.object merged) members)) = merged := by
    rw [statusMembers, Json.get?, Json.lookup_insert_self]
    rfl
  rw [mergePatch_statusBody finite, mergePatch_statusBody finite, own,
    Json.mergeMembers_mergeMembers (increasing_statusMembers ordered) plain distinct,
    Json.insert_insert_self]

/-! ## The request that carries it -/

/-- Where the status of a tenant is patched; nowhere, if there is no such place. -/
def statusTarget? (name : String) : Option String :=
  if name.isEmpty then none else Http.target? (Api.tenantsPath ++ "/" ++ name ++ "/status" ++ managerQuery)

/-- The client carries the patch over in one request, or nothing at all. -/
theorem patchStatus_carries {σ : Type} (transport : Transport σ) (name : String) (status : TenantStatus)
    (s : σ) : ((apiClient transport).patchStatus name status s).2 = (statusTarget? name).elim s fun target =>
      (transport ⟨"PATCH", target, some "application/merge-patch+json", some (Api.statusBody status)⟩ s).2 := by
  simp only [apiClient, Api.namedOnly, Api.send, statusTarget?]
  split_ifs with unnamed
  · rfl
  · cases Http.target? (Api.tenantsPath ++ "/" ++ name ++ "/status" ++ managerQuery) <;> rfl

/-! ## The whole patch -/

/-- The status that the operator writes gives the namespace alone. -/
theorem member?_withNamespace (ns : String) (name : String) :
    (TenantStatus.withNamespace ns).member? name = if name = "namespace" then some (.string ns) else none := by
  unfold TenantStatus.member?
  split
  case h_2 => rfl
  case h_8 name _ other _ _ _ _ _ => rw [if_neg other]
  all_goals rfl

/-- The request that patches a status has a body that sets what the status gives and keeps everything else, and
that changes nothing when it is carried out again. The operator's own patch sets the namespace alone. -/
theorem status_patch_frames (members : List (String × Json)) (status : TenantStatus)
    (ordered : (Json.object members).isOrdered)
    (finite : ∀ score, status.esgScore = some score → score.isFinite) :
    (∀ {σ : Type} (transport : Transport σ) (name : String) (s : σ),
      ((apiClient transport).patchStatus name status s).2 = (statusTarget? name).elim s fun target =>
        (transport ⟨"PATCH", target, some "application/merge-patch+json", some (Api.statusBody status)⟩ s).2) ∧
    Sets status (.object members) ((Json.object members).mergePatch (Api.statusBody status)) ∧
    ((Json.object members).mergePatch (Api.statusBody status)).mergePatch (Api.statusBody status) =
      (Json.object members).mergePatch (Api.statusBody status) ∧
    ∀ ns, let patched := (Json.object members).mergePatch (Api.statusBody (.withNamespace ns))
      (∀ name, name ≠ "status" → patched.get? name = (Json.object members).get? name) ∧
      statusMember patched "namespace" = some (.string ns) ∧
      ∀ name, name ≠ "namespace" → statusMember patched name = statusMember (.object members) name := by
  refine ⟨fun transport name s => patchStatus_carries transport name status s, sets_mergePatch finite,
    mergePatch_mergePatch_statusBody finite ordered, fun ns => ?_⟩
  have unscored : ∀ score, (TenantStatus.withNamespace ns).esgScore = some score → score.isFinite :=
    fun score given => by cases given
  have sets : Sets (.withNamespace ns) (.object members) _ := sets_mergePatch unscored
  refine ⟨sets.outside, sets.given "namespace" _ ?_, fun name other => sets.kept name ?_⟩
  · rw [member?_withNamespace, if_pos rfl]
  · rw [member?_withNamespace, if_neg other]

/-- A tenant whose status has members of several owners, one of them unknown to the operator. -/
def sharedMembers : List (String × Json) :=
  [("kind", .string "Tenant"), ("status", .object [("auditor", .string "globex"), ("falcoEnabled", .bool true),
    ("phase", .string "Pending")])]

/-- A status that moves the phase on and gives a score of 92.5. -/
def scoredStatus : TenantStatus := { phase := some "Ready", esgScore := some ⟨0x4057200000000000⟩ }

theorem status_patch_frames_shared :
    let patched := (Json.object sharedMembers).mergePatch (Api.statusBody scoredStatus)
    (Json.object sharedMembers).isOrdered ∧
    (∀ score, scoredStatus.esgScore = some score → score.isFinite) ∧
    patched.get? "kind" = some (.string "Tenant") ∧
    statusMember patched "auditor" = some (.string "globex") ∧
    statusMember patched "falcoEnabled" = some (.bool true) ∧
    statusMember patched "phase" = some (.string "Ready") ∧
    statusMember patched "esgScore" = some (.number (.double ⟨0x4057200000000000⟩)) ∧
    patched.mergePatch (Api.statusBody scoredStatus) = patched := by
  intro patched
  have ordered : (Json.object sharedMembers).isOrdered := by decide +kernel
  have finite : ∀ score, scoredStatus.esgScore = some score → score.isFinite := by
    rintro _ ⟨⟩
    decide
  obtain ⟨-, sets, twice, -⟩ := status_patch_frames sharedMembers scoredStatus ordered finite
  exact ⟨ordered, finite, sets.outside "kind" (by decide), sets.kept "auditor" rfl, sets.kept "falcoEnabled" rfl,
    sets.given "phase" _ rfl, sets.given "esgScore" _ rfl, twice⟩

end Tenancy
