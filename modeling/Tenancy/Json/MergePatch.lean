import Tenancy.Json.Basic

/-! # Merging documents

A merge patch is a document laid over another one: its members replace those of the same name, null
takes a member away, and what is no object replaces everything.
-/

namespace Tenancy.Json

mutual

def mergePatch (target : Json) : Json → Json
  | .object patch => .object (mergeMembers ((target.members?).getD []) patch)
  | value => value

/-- Lays the members of a patch over those of an object, in increasing order. -/
def mergeMembers (members : List (String × Json)) : List (String × Json) → List (String × Json)
  | [] => members
  | (name, .null) :: rest => mergeMembers (erase name members) rest
  | (name, value) :: rest =>
    mergeMembers (insert name (mergePatch ((lookup name members).getD .null) value) members) rest

end

end Tenancy.Json
