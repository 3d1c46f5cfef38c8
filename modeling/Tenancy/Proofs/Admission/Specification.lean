import Tenancy.Admission.Defaults

/-! # The specification of a document

Both stages look at one member of a document only, and there at an object. A document without such a
specification is treated as one whose specification has no members.
-/

namespace Tenancy.Admission

open Json (lookup)

variable {document : Json} {name : String} {spec members : List (String × Json)}

/-- Whether the document has a specification that is an object. -/
def hasSpec (document : Json) : Bool := ((document.get? "spec").bind Json.members?).isSome

/-- The members of the specification; none without one. -/
def specMembers (document : Json) : List (String × Json) :=
  ((document.get? "spec").bind Json.members?).getD []

def specMember? (name : String) (document : Json) : Option Json := lookup name (specMembers document)

def specText? (name : String) (document : Json) : Option String :=
  (specMember? name document).bind Json.text?

theorem hasSpec_of_object (held : document.get? "spec" = some (.object spec)) : hasSpec document := by
  rw [hasSpec, held]
  rfl

theorem specMembers_of_object (held : document.get? "spec" = some (.object spec)) :
    specMembers document = spec := by
  rw [specMembers, held]
  rfl

theorem get?_spec_of_hasSpec (has : hasSpec document) :
    document.get? "spec" = some (.object (specMembers document)) := by
  obtain ⟨spec, found⟩ := Option.isSome_iff_exists.mp has
  obtain ⟨value, held, isObject⟩ := Option.bind_eq_some_iff.mp found
  cases value with
  | object members => rw [specMembers_of_object held, held]
  | _ => cases isObject

theorem specOrEmpty_eq : specOrEmpty members =
    (specMembers (.object members), !hasSpec (.object members)) := by
  rw [specOrEmpty, specMembers, hasSpec, Json.get?]
  cases lookup "spec" members with
  | none => rfl
  | some value => cases value <;> rfl

end Tenancy.Admission
