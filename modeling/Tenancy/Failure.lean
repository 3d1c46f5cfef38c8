import Tenancy.Text.Quoted

/-! # Failures

What can go wrong outside the admission stages: a call to the cluster, the creation of an object that
belongs to a tenant, the reading or writing of a document, or the operator itself. A failure carries
the tenant or the part of the operator that it concerns.
-/

namespace Tenancy

/-- The cluster's own account of an error. -/
structure ApiError where
  status : String
  message : String
  reason : String
  code : Nat
  deriving DecidableEq, Repr

/-- An error account, word by word. -/
def ApiError.describe (e : ApiError) : String :=
  "ErrorResponse \x7b status: " ++ Text.quote e.status ++ ", message: " ++ Text.quote e.message
    ++ ", reason: " ++ Text.quote e.reason ++ ", code: " ++ toString e.code ++ " \x7d"

/-- Why a call to the cluster failed. -/
inductive CallError where
  /-- The cluster answered with an error. -/
  | refused (error : ApiError)
  /-- The cluster could not be reached. -/
  | unreachable (reason : String)
  /-- The cluster's answer could not be read. -/
  | unreadable (reason : String)
  /-- There was no call, for the request could not be made. -/
  | unsendable (reason : String)
  deriving DecidableEq, Repr

def CallError.message : CallError → String
  | .refused e => "ApiError: " ++ e.message ++ ": " ++ e.reason ++ " (" ++ e.describe ++ ")"
  | .unreachable reason => "ServiceError: " ++ reason
  | .unreadable reason => "Error deserializing response: " ++ reason
  | .unsendable reason => "Failed to build request: " ++ reason

/-- Something that went wrong. -/
inductive Failure where
  /-- A call to the cluster failed. -/
  | call (error : CallError)
  /-- An object of a tenant could not be created. -/
  | creation (tenant kind name reason : String)
  /-- A document could not be read or written; of some type, where that is known. -/
  | document (reason : String) (kind : Option String)
  /-- A part of the operator failed. -/
  | internal (context reason : String)
  deriving DecidableEq, Repr

namespace Failure

def message : Failure → String
  | call e => "kubernetes error: " ++ e.message
  | creation tenant kind name reason =>
    "failed to create " ++ kind ++ " " ++ name ++ " for tenant " ++ tenant ++ ": " ++ reason
  | document reason _ => "serialization error: " ++ reason
  | internal context reason => "internal error [" ++ context ++ "]: " ++ reason

def label : Failure → String
  | call _ => "kube"
  | creation _ _ _ _ => "resource_create"
  | document _ _ => "serialization"
  | internal _ _ => "internal"

/-- The tenant that a failure concerns, where it is known. -/
def tenant? : Failure → Option String
  | creation tenant _ _ _ => some tenant
  | _ => none

/-- The part of the operator that failed. -/
def context? : Failure → Option String
  | internal context _ => some context
  | _ => none

end Failure

/-- Why telemetry could not be set up. -/
inductive TelemetryFailure where
  | tracer (reason : String)
  | metrics (reason : String)
  | subscriber (reason : String)
  deriving DecidableEq, Repr

def TelemetryFailure.message : TelemetryFailure → String
  | .tracer reason => "failed to initialize tracer: " ++ reason
  | .metrics reason => "failed to initialize metrics exporter: " ++ reason
  | .subscriber reason => "failed to initialize tracing subscriber: " ++ reason

end Tenancy
