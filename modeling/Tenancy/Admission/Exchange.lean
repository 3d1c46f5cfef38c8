import Tenancy.Admission.Pipeline
import Tenancy.Tenant.Basic

/-! # Admission reviews on the wire

The cluster sends a review that holds a request, and gets a review that holds a response. Of the
request only its identity, the verb and the object count here; the rest of it is read, so that a
broken one is refused, and dropped.
-/

namespace Tenancy.Admission

/-- The type under which a document travels. -/
structure TypeName where
  apiVersion : String
  kind : String
  deriving DecidableEq, Repr

structure Request where
  /-- The type of the review that held the request. -/
  types : TypeName
  uid : String
  verb : Verb
  /-- The object, if there is one. -/
  object : Option Json
  deriving Repr

/-- How an operation went, for the cluster. -/
structure Status where
  isFailure : Bool
  code : Nat
  message : String
  reason : String
  deriving DecidableEq, Repr

structure Response where
  types : TypeName
  uid : String
  allowed : Bool
  status : Status
  /-- The bytes of a patch to carry out before the object is stored. -/
  patch : Option (List UInt8)
  deriving Repr

/-! ## Wire forms -/

/-- An object of any type: its metadata are known, everything else is kept. -/
def objectForm : Json.Schema :=
  .record (.gathered "DynamicObject" .keep) (.ofList [
    .filled "metadata" (.object []) Metadata.form])

/-- A record of three required texts. -/
private def tripleForm (name a b c : String) : Json.Schema :=
  .record (.declared name) (.ofList [.required a .text, .required b .text, .required c .text])

/-- Who asks. -/
def userForm : Json.Schema :=
  .record (.lenient "UserInfo") (.ofList [
    .optional "extra" (.table (.list .text)),
    .optional "groups" (.list .text),
    .optional "uid" .text,
    .optional "username" .text])

def requestForm : Json.Schema :=
  let kind := tripleForm "GroupVersionKind" "group" "version" "kind"
  let resource := tripleForm "GroupVersionResource" "group" "version" "resource"
  .record (.declared "AdmissionRequest") (.ofList [
    .required "uid" .text,
    .required "kind" kind,
    .required "resource" resource,
    .optional "subResource" .text,
    .optional "requestKind" kind,
    .optional "requestResource" resource,
    .optional "requestSubResource" .text,
    .filled "name" (.string "") .text,
    .optional "namespace" .text,
    .required "operation" (.choice (Verb.all.map Verb.wireName)),
    .required "userInfo" userForm,
    .optionalPlaced "object" objectForm,
    .optionalPlaced "oldObject" objectForm,
    .filled "dryRun" (.bool false) .boolean,
    .optional "options" objectForm])

def statusDetailsForm : Json.Schema :=
  let text (name : String) : Json.Field := .filled name (.string "") .text
  .record (.declared "StatusDetails") (.ofList [
    text "name", text "group", text "kind", text "uid",
    .filled "causes" (.array []) (.list (.record (.declared "StatusCause") (.ofList [
      text "reason", text "message", text "field"]))),
    .filled "retryAfterSeconds" (.int 0) (.integer ⟨"u32", 0, 0xFFFFFFFF⟩)])

def statusForm : Json.Schema :=
  .record (.declared "Status") (.ofList [
    .optional "metadata" Metadata.listForm,
    .optional "status" (.choice ["Success", "Failure"]),
    .filled "code" (.int 0) (.integer ⟨"u16", 0, 0xFFFF⟩),
    .filled "message" (.string "") .text,
    .filled "reason" (.string "") .text,
    .optional "details" statusDetailsForm])

def responseForm : Json.Schema :=
  .record (.declared "AdmissionResponse") (.ofList [
    .required "uid" .text,
    .required "allowed" .boolean,
    .required "status" statusForm,
    .optionalPlaced "patch" (.list (.integer ⟨"u8", 0, 255⟩)),
    .optionalPlaced "patchType" (.choice ["JSONPatch"]),
    .filled "auditAnnotations" (.object []) (.table .text),
    .optionalPlaced "warnings" (.list .text)])

def reviewForm : Json.Schema :=
  .record (.gathered "AdmissionReview" .typed) (.ofList [
    .optional "request" requestForm,
    .optional "response" responseForm])

def Request.ofNormal (types : TypeName) (j : Json) : Request where
  types := types
  uid := (j.textAt? "uid").getD ""
  verb := ((j.textAt? "operation").bind Verb.ofWireName?).getD .create
  object := j.get? "object"

def TypeName.ofNormal (j : Json) : TypeName where
  apiVersion := (j.textAt? "apiVersion").getD ""
  kind := (j.textAt? "kind").getD ""

/-- The request that a review in normal form holds. -/
def request? (review : Json) : Option Request :=
  (review.get? "request").map (Request.ofNormal (.ofNormal review))

/-! ## Responses -/

def reasonOfCode (code : Nat) : String :=
  if code = Decision.badRequest then "BadRequest"
  else if code = Decision.forbidden then "Forbidden"
  else "InternalError"

def Decision.status (decision : Decision) : Status :=
  match decision with
  | .allow reason _ => ⟨false, decision.code, reason, ""⟩
  | _ => ⟨true, decision.code, decision.reason, reasonOfCode decision.code⟩

/-- The response that carries a decision, for a way of writing patches. A decision whose patch cannot be
written counts as failed. -/
def Decision.respondWith (write : Json.Patch → Except String (List UInt8)) (decision : Decision)
    (request : Request) : Response :=
  let respond (decision : Decision) (patch : Option (List UInt8)) : Response :=
    ⟨request.types, request.uid, decision.isAllowed, decision.status, patch⟩
  match decision.patch?.map write with
  | none => respond decision none
  | some (.ok bytes) => respond decision (some bytes)
  | some (.error e) => respond (.failed ("patch serialization error: " ++ e)) none

/-- The response that carries a decision. Its patch is a document, and every document has a text. -/
def Decision.respond (decision : Decision) (request : Request) : Response :=
  decision.respondWith (fun patch => .ok patch.toJson.encode) request

/-- The response to a review without a request. -/
def Response.noRequest : Response where
  types := ⟨"admission.k8s.io/v1beta1", "AdmissionReview"⟩
  uid := ""
  allowed := false
  status := ⟨true, 0, "failed to convert AdmissionReview into AdmissionRequest", "InvalidRequest"⟩
  patch := none

/-- A status as a document; what is empty is left out. -/
def Status.toJson (s : Status) : Json :=
  let text (s : String) : Option Json := if s.isEmpty then none else some (.string s)
  .record [
    ("status", if s.isFailure then some (.string "Failure") else none),
    ("code", if s.code = 0 then none else some (.int s.code)),
    ("message", text s.message),
    ("reason", text s.reason)]

/-- A review that holds the response, as a document. -/
def Response.toJson (r : Response) : Json :=
  .object [
    ("apiVersion", .string r.types.apiVersion),
    ("kind", .string r.types.kind),
    ("response", .record [
      ("uid", some (.string r.uid)),
      ("allowed", some (.bool r.allowed)),
      ("status", some r.status.toJson),
      ("patch", r.patch.map fun bytes => .array (bytes.map fun b => .int b.toNat)),
      ("patchType", r.patch.map fun _ => .string "JSONPatch")])]

/-- The text of a request's object, empty if there is none. -/
def Request.text (request : Request) : List UInt8 :=
  match request.object with
  | some object => object.encode
  | none => []

def answer (stage : Stage) (review : Json) : Response :=
  match request? review with
  | none => .noRequest
  | some request => (stage.run request.verb request.text).respond request

end Tenancy.Admission
