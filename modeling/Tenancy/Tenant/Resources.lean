import Tenancy.Tenant.Basic

/-! # What a tenant owns in the cluster

A tenant has one namespace and, in it, one binding that gives the tenant's administrators the rights
of the cluster's `admin` role. Both depend on nothing but the tenant's metadata.
-/

namespace Tenancy

/-- The label with the name of the owning tenant. -/
def tenantLabel : String := "genesis.ai/tenant"

def managedByLabel : String := "genesis.ai/managed-by"

def managedByValue : String := "genesis-operator"

def podSecurityLevel : String := "restricted"

/-- The name of the binding in every tenant's namespace. -/
def adminBindingName : String := "tenant-admin"

def adminRole : String := "admin"

/-- The interface of roles and bindings. -/
def rbacGroup : String := "rbac.authorization.k8s.io"

/-- A document whose members are texts, in increasing order. -/
def textTable (members : List (String × String)) : Json :=
  .object (Json.ofMembers (members.map fun m => (m.1, .string m.2)))

def namespaceLabels (tenant : String) : Json :=
  textTable [
    (tenantLabel, tenant),
    (managedByLabel, managedByValue),
    ("pod-security.kubernetes.io/enforce", podSecurityLevel),
    ("pod-security.kubernetes.io/enforce-version", "latest")]

/-- An object of the cluster, known by its metadata and otherwise kept as its normal form. -/
structure Resource where
  metadata : Metadata
  /-- The members after the metadata. -/
  body : List (String × Json)
  deriving Repr, DecidableEq

def Resource.ofNormal (j : Json) : Resource where
  metadata := .ofNormal ((j.get? "metadata").getD .null)
  body := (j.members?.getD []).filter fun m => m.1 ∉ ["apiVersion", "kind", "metadata"]

def Resource.toJson (apiVersion kind : String) (r : Resource) : Json :=
  .object ([("apiVersion", .string apiVersion), ("kind", .string kind),
    ("metadata", r.metadata.toJson)] ++ r.body)

/-! ## Namespaces -/

namespace Namespace

def conditionForm : Json.Schema :=
  .record (.lenient "NamespaceCondition") (.ofList [
    .optional "lastTransitionTime" .timestamp,
    .optional "message" .text,
    .optional "reason" .text,
    .lenient "status" (.string "") .text,
    .lenient "type" (.string "") .text])

def form : Json.Schema :=
  .record (.lenient "Namespace") (.ofList [
    .filled "apiVersion" (.string "v1") (.literal "v1"),
    .filled "kind" (.string "Namespace") (.literal "Namespace"),
    .lenient "metadata" (.object []) Metadata.form,
    .optional "spec" (.record (.lenient "NamespaceSpec") (.ofList [
      .optional "finalizers" (.list .text)])),
    .optional "status" (.record (.lenient "NamespaceStatus") (.ofList [
      .optional "conditions" (.list conditionForm),
      .optional "phase" .text]))])

def toJson (r : Resource) : Json := r.toJson "v1" "Namespace"

end Namespace

/-! ## Bindings -/

namespace Binding

def form : Json.Schema :=
  .record (.lenient "RoleBinding") (.ofList [
    .filled "apiVersion" (.string (rbacGroup ++ "/v1")) (.literal (rbacGroup ++ "/v1")),
    .filled "kind" (.string "RoleBinding") (.literal "RoleBinding"),
    .lenient "metadata" (.object []) Metadata.form,
    .lenient "roleRef" (textTable [("apiGroup", ""), ("kind", ""), ("name", "")])
      (.record (.lenient "RoleRef") (.ofList [
        .lenient "apiGroup" (.string "") .text,
        .lenient "kind" (.string "") .text,
        .lenient "name" (.string "") .text])),
    .optional "subjects" (.list (.record (.lenient "Subject") (.ofList [
      .optional "apiGroup" .text,
      .lenient "kind" (.string "") .text,
      .lenient "name" (.string "") .text,
      .optional "namespace" .text])))])

def toJson (r : Resource) : Json := r.toJson (rbacGroup ++ "/v1") "RoleBinding"

end Binding

/-! ## What belongs to a tenant -/

namespace Tenant

/-- The reference by which an object says that the tenant controls it. Only a tenant with a name and
an identity can be referred to. -/
def ownerReference? (t : Tenant) : Option Json := do
  let name ← t.metadata.name?
  let uid ← t.metadata.uid?
  return .object [("apiVersion", .string apiVersion), ("controller", .bool true),
    ("kind", .string kind), ("name", .string name), ("uid", .string uid)]

def namespaceResource (t : Tenant) : Resource where
  metadata := ⟨[("labels", namespaceLabels t.name), ("name", .string t.namespaceName)]
    ++ t.ownerReference?.toList.map fun owner => ("ownerReferences", .array [owner])⟩
  body := []

/-- The binding of the tenant's administrators. -/
def adminBinding (t : Tenant) : Resource where
  metadata := ⟨[
    ("labels", textTable [(tenantLabel, t.name), (managedByLabel, managedByValue)]),
    ("name", .string adminBindingName),
    ("namespace", .string t.namespaceName)]⟩
  body := [
    ("roleRef", .object [("apiGroup", .string rbacGroup), ("kind", .string "ClusterRole"),
      ("name", .string adminRole)]),
    ("subjects", .array [.object [("apiGroup", .string rbacGroup), ("kind", .string "Group"),
      ("name", .string t.adminGroup)]])]

end Tenant

end Tenancy
