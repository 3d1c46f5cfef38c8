import Tenancy.Json.Decode
import Tenancy.Tenant.Isolation

/-! # Tenants

A tenant is one isolated workspace on a shared cluster. Everything that belongs to it in the cluster
has a name made from the tenant's own name. `Tenant.form` is its wire form; `Tenant.ofNormal` and
`Tenant.toJson` go from the normal form to the value and back.
-/

namespace Tenancy

/-- The parts of an object's metadata, in the order in which they are written. -/
structure Metadata where
  members : List (String × Json) := []
  deriving Repr, DecidableEq

namespace Metadata

def text? (name : String) (m : Metadata) : Option String := (Json.lookup name m.members).bind Json.text?

def name? (m : Metadata) : Option String := m.text? "name"

/-- The identity that the cluster gave to the object. -/
def uid? (m : Metadata) : Option String := m.text? "uid"

def namespace? (m : Metadata) : Option String := m.text? "namespace"

/-- The object's name; without one, the stem from which the cluster makes it, or else nothing. -/
def anyName (m : Metadata) : String :=
  (m.name?.or (m.text? "generateName")).getD ""

/-- Whether the object has been marked for deletion. -/
def isDeleting (m : Metadata) : Bool := (Json.lookup "deletionTimestamp" m.members).isSome

def toJson (m : Metadata) : Json := .object m.members

/-! ## Wire form -/

def ownerForm : Json.Schema :=
  .record (.lenient "OwnerReference") (.ofList [
    .lenient "apiVersion" (.string "") .text,
    .optional "blockOwnerDeletion" .boolean,
    .optional "controller" .boolean,
    .lenient "kind" (.string "") .text,
    .lenient "name" (.string "") .text,
    .lenient "uid" (.string "") .text])

def longForm : Json.Schema := .integer ⟨"i64", -0x8000000000000000, 0x7FFFFFFFFFFFFFFF⟩

/-- A record of which manager set which fields. -/
def managedForm : Json.Schema :=
  .record (.lenient "ManagedFieldsEntry") (.ofList [
    .optional "apiVersion" .text,
    .optional "fieldsType" .text,
    .optional "fieldsV1" .document,
    .optional "manager" .text,
    .optional "operation" .text,
    .optional "subresource" .text,
    .optional "time" .timestamp])

def form : Json.Schema :=
  .record (.lenient "ObjectMeta") (.ofList [
    .optional "annotations" (.table .text),
    .optional "creationTimestamp" .timestamp,
    .optional "deletionGracePeriodSeconds" longForm,
    .optional "deletionTimestamp" .timestamp,
    .optional "finalizers" (.list .text),
    .optional "generateName" .text,
    .optional "generation" longForm,
    .optional "labels" (.table .text),
    .optional "managedFields" (.list managedForm),
    .optional "name" .text,
    .optional "namespace" .text,
    .optional "ownerReferences" (.list ownerForm),
    .optional "resourceVersion" .text,
    .optional "selfLink" .text,
    .optional "uid" .text])

def listForm : Json.Schema :=
  .record (.lenient "ListMeta") (.ofList [
    .optional "continue" .text,
    .optional "remainingItemCount" longForm,
    .optional "resourceVersion" .text,
    .optional "selfLink" .text])

/-- The metadata that a normal form holds. -/
def ofNormal : Json → Metadata
  | .object members => ⟨members⟩
  | _ => {}

end Metadata

/-! ## Specification -/

structure TenantSpec where
  /-- The label shown to people. -/
  displayName : String
  /-- The sizing class. -/
  quota : Option String
  /-- The external identity group bound to the tenant. -/
  oidcGroup : Option String
  isolation : IsolationMode
  /-- Whether reports on environment, society and governance are made. -/
  esgEnabled : Option Bool
  /-- Identifiers of compliance frameworks, in the order given. -/
  complianceFrameworks : Option (List String)
  deriving Repr, DecidableEq

namespace TenantSpec

def form : Json.Schema :=
  .record (.declared "TenantSpec") (.ofList [
    .required "displayName" .text,
    .optional "quota" .text,
    .optional "oidcGroup" .text,
    .required "isolation" (.choice IsolationMode.names),
    .optional "esgEnabled" .boolean,
    .optional "complianceFrameworks" (.list .text)])

/-- The specification that a normal form holds. -/
def ofNormal (j : Json) : TenantSpec where
  displayName := (j.textAt? "displayName").getD ""
  quota := j.textAt? "quota"
  oidcGroup := j.textAt? "oidcGroup"
  isolation := ((j.textAt? "isolation").bind IsolationMode.ofName?).getD .namespaced
  esgEnabled := j.boolAt? "esgEnabled"
  complianceFrameworks :=
    ((j.get? "complianceFrameworks").bind Json.items?).map (·.filterMap Json.text?)

def toJson (s : TenantSpec) : Json :=
  .record [
    ("displayName", some (.string s.displayName)),
    ("quota", s.quota.map .string),
    ("oidcGroup", s.oidcGroup.map .string),
    ("isolation", some (.string s.isolation.name)),
    ("esgEnabled", s.esgEnabled.map .bool),
    ("complianceFrameworks", s.complianceFrameworks.map fun c => .array (c.map .string))]

/-- Whether reports are made; not unless it is said. -/
def reportsEsg (s : TenantSpec) : Bool := s.esgEnabled.getD false

/-- The compliance frameworks as a set: in increasing order, each once. -/
def compliance (s : TenantSpec) : List String :=
  (Json.ofMembers ((s.complianceFrameworks.getD []).map fun c => (c, .null))).map (·.1)

end TenantSpec

/-! ## Status -/

/-- What has been observed of a tenant. The operator writes `namespace` only. -/
structure TenantStatus where
  /-- A marker of the life cycle. -/
  phase : Option String := none
  /-- The namespace that is known to be set up for the tenant. -/
  namespaceName : Option String := none
  /-- Whether intrusions are detected at run time. -/
  falcoEnabled : Option Bool := none
  /-- Whether workload identities are registered. -/
  spireRegistered : Option Bool := none
  /-- Whether a backup schedule exists. -/
  backupScheduled : Option Bool := none
  /-- The latest compliance score. -/
  esgScore : Option Double := none
  /-- When the last audit was. -/
  lastAudit : Option String := none
  deriving Repr, DecidableEq

namespace TenantStatus

def form : Json.Schema :=
  .record (.declared "TenantStatus") (.ofList [
    .optional "phase" .text,
    .optional "namespace" .text,
    .optional "falcoEnabled" .boolean,
    .optional "spireRegistered" .boolean,
    .optional "backupScheduled" .boolean,
    .optional "esgScore" .double,
    .optional "lastAudit" .text])

def ofNormal (j : Json) : TenantStatus where
  phase := j.textAt? "phase"
  namespaceName := j.textAt? "namespace"
  falcoEnabled := j.boolAt? "falcoEnabled"
  spireRegistered := j.boolAt? "spireRegistered"
  backupScheduled := j.boolAt? "backupScheduled"
  esgScore := (j.get? "esgScore").bind Json.double?
  lastAudit := j.textAt? "lastAudit"

def toJson (s : TenantStatus) : Json :=
  .record [
    ("phase", s.phase.map .string),
    ("namespace", s.namespaceName.map .string),
    ("falcoEnabled", s.falcoEnabled.map .bool),
    ("spireRegistered", s.spireRegistered.map .bool),
    ("backupScheduled", s.backupScheduled.map .bool),
    ("esgScore", s.esgScore.map fun d => .number (.double d)),
    ("lastAudit", s.lastAudit.map .string)]

/-- The status that says no more than the namespace. -/
def withNamespace (name : String) : TenantStatus := { namespaceName := some name }

end TenantStatus

/-! ## Tenants -/

structure Tenant where
  metadata : Metadata
  spec : TenantSpec
  status : Option TenantStatus
  deriving Repr, DecidableEq

/-- What every name made for a tenant starts with. -/
def namespaceStem : String := "tenant-"

def namespaceOf (tenant : String) : String := namespaceStem ++ tenant

/-- The identity group with administrative rights in that namespace. -/
def adminGroupOf (tenant : String) : String := namespaceStem ++ tenant ++ "-admins"

namespace Tenant

/-- The interface to which tenants belong. -/
def apiVersion : String := "genesis.ai/v1"

def kind : String := "Tenant"

def form : Json.Schema :=
  .record (.declared "Tenant") (.ofList [
    .required "metadata" Metadata.form,
    .required "spec" TenantSpec.form,
    .optionalPlaced "status" TenantStatus.form])

def ofNormal (j : Json) : Tenant where
  metadata := .ofNormal ((j.get? "metadata").getD .null)
  spec := .ofNormal ((j.get? "spec").getD .null)
  status := (j.get? "status").map .ofNormal

def decode (j : Json) : Except Json.Mismatch Tenant := (form.decode j).map ofNormal

def toJson (t : Tenant) : Json :=
  .record [
    ("apiVersion", some (.string apiVersion)),
    ("kind", some (.string kind)),
    ("metadata", some t.metadata.toJson),
    ("spec", some t.spec.toJson),
    ("status", t.status.map TenantStatus.toJson)]

def name (t : Tenant) : String := t.metadata.anyName

def namespaceName (t : Tenant) : String := namespaceOf t.name

def adminGroup (t : Tenant) : String := adminGroupOf t.name

def recordedNamespace (t : Tenant) : Option String := t.status.bind TenantStatus.namespaceName

/-- Whether the tenant has been marked for deletion. -/
def isDeleting (t : Tenant) : Bool := t.metadata.isDeleting

end Tenant

structure TenantList where
  apiVersion : String
  kind : String
  /-- The metadata of the list itself. -/
  metadata : Metadata
  items : List Tenant
  deriving Repr, DecidableEq

namespace TenantList

def form : Json.Schema :=
  .record (.gathered "ObjectList" (.typedOr "v1" "List")) (.ofList [
    .filled "metadata" (.object []) Metadata.listForm,
    ⟨"items", .refuse, .fill (.array []), .list Tenant.form⟩])

def ofNormal (j : Json) : TenantList where
  apiVersion := (j.textAt? "apiVersion").getD ""
  kind := (j.textAt? "kind").getD ""
  metadata := .ofNormal ((j.get? "metadata").getD .null)
  items := (((j.get? "items").bind Json.items?).getD []).map Tenant.ofNormal

def toJson (l : TenantList) : Json :=
  .object [
    ("apiVersion", .string l.apiVersion),
    ("kind", .string l.kind),
    ("metadata", l.metadata.toJson),
    ("items", .array (l.items.map Tenant.toJson))]

end TenantList

end Tenancy
