import Tenancy.Admission.Exchange
import Tenancy.Http.MediaType
import Tenancy.Json.Typed

/-! # The admission endpoints

Two endpoints take reviews, one for each stage, and one tells that the service is alive. What is no
review is answered with a text that says why.
-/

namespace Tenancy.Admission

def mutatePath : String := "/mutate-tenant"

def validatePath : String := "/validate-tenant"

def healthPath : String := "/healthz"

/-- A request over HTTP. The path may carry a query. -/
structure Visit where
  method : String
  path : String
  contentType : Option String
  body : List UInt8

inductive Content where
  | text (text : String)
  | review (response : Response)
  deriving Repr

structure Reply where
  code : Nat
  contentType : Option String := none
  /-- The methods that would have been allowed. -/
  allow : Option String := none
  content : Content
  deriving Repr

/-- The most bytes that a body may have. -/
def bodyLimit : Nat := 2097152

def plain (code : Nat) (text : String) : Reply :=
  { code, contentType := some "text/plain; charset=utf-8", content := .text text }

/-- The reply to a body that is no review. A broken text is a bad request, and one that holds
something else cannot be processed. -/
def refuseBody (body : List UInt8) (e : Json.ReadError) : Reply :=
  let why := e.messageWithPath body
  if e.cause.isFlaw then plain 400 ("Failed to parse the request body as JSON: " ++ why)
  else plain 422 ("Failed to deserialize the JSON body into the target type: " ++ why)

def announcesJson (contentType : Option String) : Bool :=
  match contentType.bind Http.MediaType.read? with
  | some m => m.isJson
  | none => false

/-- Answers a body sent to a stage. -/
def receive (stage : Stage) (visit : Visit) : Reply :=
  if !announcesJson visit.contentType then
    plain 415 "Expected request with \x60Content-Type: application/json\x60"
  else if bodyLimit < visit.body.length then
    plain 413 "Failed to buffer the request body: length limit exceeded"
  else
    match reviewForm.read visit.body with
    | .error e => refuseBody visit.body e
    | .ok review =>
      { code := 200, contentType := some "application/json", content := .review (answer stage review) }

def withoutQuery (path : String) : String :=
  String.ofList (path.toList.takeWhile (· ≠ '?'))

def stageAt? (path : String) : Option Stage :=
  if path = mutatePath then some .defaulting
  else if path = validatePath then some .validation
  else none

def serve (visit : Visit) : Reply :=
  let path := withoutQuery visit.path
  match stageAt? path with
  | some stage =>
    if visit.method = "POST" then receive stage visit
    else { code := 405, allow := some "POST", content := .text "" }
  | none =>
    if path = healthPath then
      if visit.method = "GET" then plain 200 "ok"
      else if visit.method = "HEAD" then plain 200 ""
      else { code := 405, allow := some "GET,HEAD", content := .text "" }
    else { code := 404, content := .text "" }

end Tenancy.Admission
