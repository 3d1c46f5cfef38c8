import Tenancy.Tenant.Basic

/-! # The definition of tenants

What the cluster has to know before it can store tenants: the names of the type, the columns in
which lists of tenants are shown, and the properties of specification and status.
-/

namespace Tenancy

namespace Definition

inductive PropertyKind where
  | text
  | boolean
  | double
  | texts
  /-- One of several names. -/
  | oneOf (names : List String)

structure Property where
  name : String
  description : String
  kind : PropertyKind
  /-- Whether it has to be there; otherwise it may also be null. -/
  required : Bool := false

def PropertyKind.members : PropertyKind → List (String × Json)
  | .text => [("type", .string "string")]
  | .boolean => [("type", .string "boolean")]
  | .double => [("format", .string "double"), ("type", .string "number")]
  | .texts => [("items", .object [("type", .string "string")]), ("type", .string "array")]
  | .oneOf names => [("enum", .array (names.map .string)), ("type", .string "string")]

def Property.toJson (p : Property) : Json :=
  .object (Json.ofMembers (p.kind.members ++ [("description", .string p.description)]
    ++ if p.required then [] else [("nullable", .bool true)]))

def recordMembers (description : String) (properties : List Property) : List (String × Json) :=
  let required := (properties.filter (·.required)).map fun p => Json.string p.name
  [("description", .string description),
    ("properties", .object (Json.ofMembers (properties.map fun p => (p.name, p.toJson)))),
    ("type", .string "object")]
    ++ if required.isEmpty then [] else [("required", .array required)]

def specProperties : List Property := [
  { name := "displayName", description := "Human-readable label, never empty", kind := .text,
    required := true },
  { name := "quota", description := "Sizing class (defaulted to `medium` at admission)",
    kind := .text },
  { name := "oidcGroup", description := "External identity group bound to this tenant",
    kind := .text },
  { name := "isolation", description := "How the tenant's workloads are segregated",
    kind := .oneOf IsolationMode.names, required := true },
  { name := "esgEnabled",
    description := "ESG reporting feature flag (defaulted to `false` at admission)",
    kind := .boolean },
  { name := "complianceFrameworks",
    description := "Compliance framework identifiers. Order carries no meaning but is preserved on "
      ++ "the wire.",
    kind := .texts }]

def statusProperties : List Property := [
  { name := "phase", description := "Lifecycle marker", kind := .text },
  { name := "namespace", description := "Resolved namespace name (`tenant-<name>`)", kind := .text },
  { name := "falcoEnabled",
    description := "Runtime intrusion detection is active for the tenant", kind := .boolean },
  { name := "spireRegistered",
    description := "Workload identities are registered with the attestation service",
    kind := .boolean },
  { name := "backupScheduled",
    description := "A backup schedule exists for the tenant namespace", kind := .boolean },
  { name := "esgScore", description := "Latest compliance score", kind := .double },
  { name := "lastAudit", description := "Timestamp of the last audit", kind := .text }]

/-- The text that describes a specification, with an example. -/
def specDescription : String :=
  "Specification for a Tenant\n\nExample: ```yaml apiVersion: genesis.ai/v1 kind: Tenant metadata: "
    ++ "name: acme spec: displayName: Acme Corp isolation: namespace quota: medium oidcGroup: "
    ++ "acme-platform complianceFrameworks: [soc2, gdpr] ```"

def statusDescription : String :=
  "Observed state of a Tenant\n\nOnly `namespace` is written by the tenant controller. The remaining "
    ++ "fields record the state of downstream integrations and are owned by them."

/-- The form of a tenant, as the cluster checks it. -/
def tenantSchema : Json :=
  .object [
    ("description", .string "Auto-generated derived type for TenantSpec via `CustomResource`"),
    ("properties", .object [
      ("spec", .object (Json.ofMembers (recordMembers specDescription specProperties))),
      ("status", .object (Json.ofMembers
        (("nullable", .bool true) :: recordMembers statusDescription statusProperties)))]),
    ("required", .array [.string "spec"]),
    ("title", .string Tenant.kind),
    ("type", .string "object")]

/-- A column in which lists of tenants are shown. -/
def column (path name type : String) : Json :=
  .object [("jsonPath", .string path), ("name", .string name), ("type", .string type)]

/-- The group of interfaces to which tenants belong. -/
def group : String := "genesis.ai"

def plural : String := "tenants"

def name : String := plural ++ "." ++ group

def version : Json :=
  .object [
    ("additionalPrinterColumns", .array [
      column ".spec.displayName" "Display Name" "string",
      column ".spec.isolation" "Isolation" "string",
      column ".status.namespace" "Namespace" "string",
      column ".metadata.creationTimestamp" "Age" "date"]),
    ("name", .string "v1"),
    ("schema", .object [("openAPIV3Schema", tenantSchema)]),
    ("served", .bool true),
    ("storage", .bool true),
    ("subresources", .object [("status", .object [])])]

def document : Json :=
  .object [
    ("apiVersion", .string "apiextensions.k8s.io/v1"),
    ("kind", .string "CustomResourceDefinition"),
    ("metadata", .object [("name", .string name)]),
    ("spec", .object [
      ("group", .string group),
      ("names", .object [
        ("categories", .array []),
        ("kind", .string Tenant.kind),
        ("plural", .string plural),
        ("shortNames", .array [.string "tn"]),
        ("singular", .string "tenant")]),
      ("scope", .string "Cluster"),
      ("versions", .array [version])])]

end Definition

end Tenancy
