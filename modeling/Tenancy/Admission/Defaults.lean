import Tenancy.Admission.Decision
import Tenancy.Json.Reader
import Tenancy.Tenant.Isolation

/-! # Defaults

The first stage of the admission fills in the fields of a specification that are absent. It only
ever adds: a field that is present, even as null, stays as it is. A specification that is absent or
no object becomes an empty one first, so that the second stage can say what it lacks.
-/

namespace Tenancy.Admission

/-- The sizing class of a tenant that names none. -/
def defaultQuota : String := "medium"

/-- The isolation mode of a tenant that names none. -/
def defaultIsolation : IsolationMode := .namespaced

/-- Whether reports are made for a tenant that does not say. -/
def defaultEsg : Bool := false

/-- The fields with defaults, in the order in which they are filled in. -/
def specDefaults : List (String × Json) := [
  ("quota", .string defaultQuota),
  ("isolation", .string defaultIsolation.name),
  ("esgEnabled", .bool defaultEsg)]

/-- The defaults whose fields are absent. -/
def missingDefaults (spec : List (String × Json)) : List (String × Json) :=
  specDefaults.filter fun field => (Json.lookup field.1 spec).isNone

/-- The specification with its absent fields filled in. -/
def fillSpec (spec : List (String × Json)) : List (String × Json) :=
  (missingDefaults spec).foldl (fun spec field => Json.insert field.1 field.2 spec) spec

/-- The members of the specification, and whether it had to be made. -/
def specOrEmpty (members : List (String × Json)) : List (String × Json) × Bool :=
  match Json.lookup "spec" members with
  | some (.object spec) => (spec, false)
  | _ => ([], true)

/-- The document with defaults, and the names of the fields that were set. What is no object is left
as it is. -/
def applyDefaults : Json → Json × List String
  | .object members =>
    let (spec, fresh) := specOrEmpty members
    let applied := (missingDefaults spec).map (·.1)
    (.object (Json.insert "spec" (.object (fillSpec spec)) members),
      if fresh then "spec" :: applied else applied)
  | document => (document, [])

/-- The wording for a text that is no document. -/
def unreadable (text : List UInt8) (e : Json.ReadError) : String :=
  "invalid JSON: " ++ e.message text

def defaulting (verb : Verb) (raw : List UInt8) : Decision :=
  if verb = .delete then .pass "delete permitted"
  else
    match Json.read raw with
    | .error e => .malformed (unreadable raw e)
    | .ok document =>
      let (mutated, applied) := applyDefaults document
      if applied.isEmpty then .pass "no defaults applied"
      else .amend ("defaulted " ++ ", ".intercalate applied) (Json.diff document mutated)

end Tenancy.Admission
