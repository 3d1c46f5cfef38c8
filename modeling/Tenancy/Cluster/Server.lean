import Tenancy.Cluster.Api
import Tenancy.Cluster.Memory
import Tenancy.Json.MergePatch

/-! # An API server in memory

A small server for the requests of `apiClient`. It keeps the documents of tenants and namespaces and
the names of bindings, refuses a name that is taken, refuses the namespace of a tenant that is
forbidden one, and lays a merge patch over a tenant. Every change of a tenant, and of a namespace
that a tenant controls, is news about that tenant.
-/

namespace Tenancy

structure Server where
  /-- The documents of the tenants by name, in increasing order. -/
  tenants : List (String × Json) := []
  /-- The documents of the namespaces by name, in increasing order. -/
  namespaces : List (String × Json) := []
  /-- The bindings, each as `namespace/name`. -/
  bindings : NameSet := []
  /-- The tenants whose namespaces may not be created. -/
  forbidden : NameSet := []
  /-- The tenants about which there is news, the latest first. -/
  news : List String := []

namespace Server

def nameOf (document : Json) : String :=
  ((document.get? "metadata").bind (Json.textAt? "name")).getD ""

/-- The owner that controls an object, as a reference. -/
def controller? (document : Json) : Option Json := do
  let metadata ← document.get? "metadata"
  let owners ← (metadata.get? "ownerReferences").bind Json.items?
  owners.find? fun owner => owner.boolAt? "controller" = some true

/-- The name of the tenant that controls an object. -/
def owner? (document : Json) : Option String := do
  let owner ← controller? document
  if owner.textAt? "kind" = some Tenant.kind then owner.textAt? "name" else none

/-- Adds news about the tenant that controls an object. -/
def tellOwner (document : Json) (s : Server) : Server :=
  { s with news := (owner? document).toList ++ s.news }

def putTenant (document : Json) (s : Server) : Server :=
  let name := nameOf document
  { s with tenants := Json.insert name document s.tenants, news := name :: s.news }

/-- Removes a tenant, which is no news to act on. -/
def deleteTenant (name : String) (s : Server) : Server :=
  { s with tenants := Json.erase name s.tenants }

def deleteNamespace (name : String) (s : Server) : Server :=
  match Json.lookup name s.namespaces with
  | some document => { s with namespaces := Json.erase name s.namespaces }.tellOwner document
  | none => s

def deleteBinding (name : String) (s : Server) : Server :=
  { s with bindings := NameSet.remove name s.bindings }

def holding (code : Nat) (document : Json) : ApiReply := ⟨code, document.render⟩

def refusing (code : Nat) (reason message : String) : ApiReply :=
  holding code (.object [("kind", .string "Status"), ("apiVersion", .string "v1"),
    ("status", .string "Failure"), ("message", .string message), ("reason", .string reason),
    ("code", .int code)])

def getTenant (name : String) (s : Server) : ApiReply × Server :=
  match Json.lookup name s.tenants with
  | some document => (holding 200 document, s)
  | none => (refusing 404 "NotFound" "not found", s)

def createNamespace (document : Json) (s : Server) : ApiReply × Server :=
  let name := nameOf document
  if s.forbidden.any fun tenant => namespaceOf tenant = name then
    (refusing 403 "Forbidden" "forbidden", s)
  else if (Json.lookup name s.namespaces).isSome then
    (refusing 409 "AlreadyExists" "already exists", s)
  else
    (holding 201 document,
      { s with namespaces := Json.insert name document s.namespaces }.tellOwner document)

def createBinding (namespaceName : String) (document : Json) (s : Server) : ApiReply × Server :=
  let key := namespaceName ++ "/" ++ nameOf document
  if key ∈ s.bindings then (refusing 409 "AlreadyExists" "already exists", s)
  else (holding 201 document, { s with bindings := NameSet.add key s.bindings })

def patchTenant (name : String) (patch : Json) (s : Server) : ApiReply × Server :=
  match Json.lookup name s.tenants with
  | some document =>
    let document := document.mergePatch patch
    (holding 200 document, s.putTenant document)
  | none => (refusing 404 "NotFound" "not found", s)

def pathParts (target : String) : List String :=
  (String.ofList (target.toList.takeWhile (· ≠ '?'))).splitOn "/"

def answer (request : ApiRequest) (s : Server) : ApiReply × Server :=
  let body := request.body.getD .null
  match request.method, pathParts request.target with
  | "GET", ["", "apis", _, _, "tenants", name] => s.getTenant name
  | "POST", ["", "api", "v1", "namespaces"] => s.createNamespace body
  | "POST", ["", "apis", _, _, "namespaces", name, "rolebindings"] => s.createBinding name body
  | "PATCH", ["", "apis", _, _, "tenants", name, "status"] => s.patchTenant name body
  | _, _ => (refusing 404 "NotFound" "not found", s)

def transport : Transport Server := fun request s =>
  let (reply, s) := s.answer request
  (.ok reply, s)

end Server

end Tenancy
