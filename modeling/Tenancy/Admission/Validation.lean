import Tenancy.Admission.Defaults

/-! # Validation

The second stage of the admission checks a specification. The rules are checked in a fixed order and
the first one broken gives the reason.
-/

namespace Tenancy.Admission

/-- A rule that a document breaks. -/
inductive Violation where
  | noSpec
  | noDisplayName
  | noIsolation
  | unknownIsolation
  deriving DecidableEq, Repr

/-- The wording of a broken rule. -/
def Violation.message : Violation → String
  | .noSpec => "spec is required"
  | .noDisplayName => "spec.displayName is required and must be non-empty"
  | .noIsolation => "spec.isolation is required"
  | .unknownIsolation => "spec.isolation must be one of: " ++ ", ".intercalate IsolationMode.names

/-- Checks a document, and gives the isolation mode of one that breaks no rule. -/
def checkTenant (document : Json) : Except Violation IsolationMode := do
  let spec ← match document.get? "spec" with
    | some (.object spec) => .ok spec
    | _ => .error .noSpec
  match Json.lookup "displayName" spec with
  | some (.string name) => if name.isEmpty then .error .noDisplayName
  | _ => .error .noDisplayName
  match Json.lookup "isolation" spec with
  | some (.string isolation) =>
    match IsolationMode.ofName? isolation with
    | some mode => .ok mode
    | none => .error .unknownIsolation
  | _ => .error .noIsolation

def validation (verb : Verb) (raw : List UInt8) : Decision :=
  if verb = .delete then .pass "delete permitted"
  else if raw.isEmpty then .refuse "empty object"
  else
    match Json.read raw with
    | .error e => .malformed (unreadable raw e)
    | .ok document =>
      match checkTenant document with
      | .ok _ => .pass "tenant validated"
      | .error violation => .refuse violation.message

end Tenancy.Admission
