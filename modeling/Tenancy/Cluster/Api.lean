import Tenancy.Http.Status
import Tenancy.Http.Target
import Tenancy.Json.Typed
import Tenancy.Reconcile.Client

/-! # Calls over HTTP

Each call to the cluster is one HTTP request. A `Transport` carries requests to something that
replies; `apiClient` makes the requests and reads the replies. An error status is read as the
cluster's account of an error, and where there is none, the text of the reply stands for it.
-/

namespace Tenancy

structure ApiRequest where
  method : String
  /-- The path and the query. -/
  target : String
  contentType : Option String
  body : Option Json
  deriving Repr

structure ApiReply where
  code : Nat
  text : String
  deriving Repr

/-- Carries a request to something with a state, and brings the reply. -/
abbrev Transport (σ : Type) := ApiRequest → σ → Except CallError ApiReply × σ

/-- The name under which the operator writes fields. -/
def fieldManager : String := "genesis-operator"

def managerQuery : String := "?&fieldManager=" ++ fieldManager

namespace Api

def tenantsPath : String := "/apis/" ++ Tenant.apiVersion ++ "/tenants"

def namespacesPath : String := "/api/v1/namespaces"

def bindingsPath (name : String) : String :=
  "/apis/" ++ rbacGroup ++ "/v1/namespaces/" ++ name ++ "/rolebindings"

def errorForm : Json.Schema :=
  .record (.declared "ErrorResponse") (.ofList [
    .required "status" .text,
    .filled "message" (.string "") .text,
    .filled "reason" (.string "") .text,
    .required "code" (.integer ⟨"u16", 0, 0xFFFF⟩)])

/-- The error account that a reply holds, or that stands for it. -/
def errorOf (reply : ApiReply) : ApiError :=
  match errorForm.read (Text.Utf8.encode reply.text) with
  | .ok j =>
    ⟨(j.textAt? "status").getD "", (j.textAt? "message").getD "", (j.textAt? "reason").getD "",
      (((j.get? "code").bind Json.int?).getD 0).toNat⟩
  | .error _ =>
    ⟨Http.describeStatus reply.code, Text.quote reply.text, "Failed to parse error data", reply.code⟩

/-- Reads a reply that should hold a value of the given form. -/
def readReply (form : Json.Schema) (reply : ApiReply) : Except CallError Json :=
  if Http.isErrorStatus reply.code then .error (.refused (errorOf reply))
  else
    let text := Text.Utf8.encode reply.text
    match form.read text with
    | .ok j => .ok j
    | .error e => .error (.unreadable (e.message text))

def send {σ : Type} (transport : Transport σ) (form : Json.Schema) (request : ApiRequest) (s : σ) :
    Except CallError Json × σ :=
  match Http.target? request.target with
  | none => (.error (.unsendable "failed to build request: invalid uri character"), s)
  | some target =>
    let (reply, s) := transport { request with target } s
    (reply >>= readReply form, s)

/-- Refuses a request about something without a name. -/
def namedOnly {α σ : Type} (name : String) (call : σ → Except CallError α × σ) (s : σ) :
    Except CallError α × σ :=
  if name.isEmpty then
    (.error (.unsendable "failed to validate request: A non-empty name is required"), s)
  else call s

/-- A look-up that finds nothing is no error. -/
def foundOrNot : Except CallError Json → Except Failure (Option Tenant)
  | .ok j => .ok (some (.ofNormal j))
  | .error (.refused e) => if e.reason = "NotFound" then .ok none else .error (.call (.refused e))
  | .error e => .error (.call e)

/-- A creation that finds its object there is no error. -/
def createdOrThere (tenant kind name : String) : Except CallError Json → Except Failure Creation
  | .ok _ => .ok .created
  | .error (.refused e) =>
    if e.code = 409 then .ok .alreadyExists
    else .error (.creation tenant kind name (CallError.refused e).message)
  | .error e => .error (.creation tenant kind name e.message)

def statusBody (status : TenantStatus) : Json := .object [("status", status.toJson.expressed)]

end Api

open Api in
/-- The client that makes every call over HTTP. -/
def apiClient {σ : Type} (transport : Transport σ) : Client σ where
  getTenant name s :=
    let request := ⟨"GET", tenantsPath ++ "/" ++ name, none, none⟩
    let (result, s) := namedOnly name (send transport Tenant.form request) s
    (foundOrNot result, s)
  createNamespace tenant object s :=
    let request := ⟨"POST", namespacesPath ++ managerQuery, some "application/json",
      some (Namespace.toJson object)⟩
    let (result, s) := send transport Namespace.form request s
    (createdOrThere tenant "Namespace" object.metadata.anyName result, s)
  createBinding tenant object s :=
    match object.metadata.namespace? with
    | none =>
      (.error (.creation tenant "RoleBinding" object.metadata.anyName "binding has no namespace"), s)
    | some name =>
      let request := ⟨"POST", bindingsPath name ++ managerQuery, some "application/json",
        some (Binding.toJson object)⟩
      let (result, s) := send transport Binding.form request s
      (createdOrThere tenant "RoleBinding" object.metadata.anyName result, s)
  patchStatus name status s :=
    let request := ⟨"PATCH", tenantsPath ++ "/" ++ name ++ "/status" ++ managerQuery,
      some "application/merge-patch+json", some (statusBody status)⟩
    let (result, s) := namedOnly name (send transport Tenant.form request) s
    (match result with
      | .ok _ => .ok ()
      | .error e => .error (.call e), s)

/-- Replies set out in advance, and the requests sent so far, the last one first. -/
structure Script where
  replies : List ApiReply
  sent : List ApiRequest := []

/-- Brings the replies of a script in their order; when they are used up, no connection is made. -/
def Script.transport : Transport Script := fun request script =>
  match script.replies with
  | reply :: rest => (.ok reply, ⟨rest, request :: script.sent⟩)
  | [] => (.error (.unreachable "connection refused"), ⟨[], request :: script.sent⟩)

end Tenancy
