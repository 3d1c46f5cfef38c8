import Tenancy.Json.MergePatch
import Tenancy.Proofs.Json.Document

/-! # Laying values over an object

A member of a patch that is neither null nor an object takes the place of the member of that name. A patch of
such members only sets what it names: `lookup_mergeMembers` says what each member is afterwards, and laying the
patch over the result once more changes nothing.
-/

namespace Tenancy.Json

variable {value target : Json} {members patch : List (String × Json)} {name : String}

/-- Whether a merge puts the value in place as it is: it takes no member away, and is no object whose members
are merged in their turn. -/
def replaces : Json → Bool
  | .null | .object _ => false
  | _ => true

/-- A plain value takes the place of what it is merged into. -/
theorem mergePatch_of_replaces (plain : value.replaces) : target.mergePatch value = value := by
  cases value with
  | object members => cases plain
  | _ => rfl

theorem mergeMembers_cons (plain : value.replaces) :
    mergeMembers members ((name, value) :: patch) = mergeMembers (insert name value members) patch := by
  have placed (target : Json) : target.mergePatch value = value := mergePatch_of_replaces plain
  cases value with
  | null => cases plain
  | _ => rw [mergeMembers, placed]; exact Json.noConfusion

/-- Merging plain members is inserting them one after the other. -/
theorem mergeMembers_eq_foldl (plain : ∀ m ∈ patch, m.2.replaces) :
    mergeMembers members patch = patch.foldl (fun sorted m => insert m.1 m.2 sorted) members := by
  induction patch generalizing members with
  | nil => rfl
  | cons m patch ih =>
    rw [List.forall_mem_cons] at plain
    rw [mergeMembers_cons plain.1, ih plain.2]
    rfl

/-- Every member is the one of the patch, if there is one, and otherwise what it was. -/
theorem lookup_mergeMembers (plain : ∀ m ∈ patch, m.2.replaces) (distinct : (patch.map Prod.fst).Nodup) :
    lookup name (mergeMembers members patch) = (lookup name patch).or (lookup name members) := by
  rw [mergeMembers_eq_foldl plain, lookup_foldl_insert, lookup_reverse distinct]

theorem Increasing.mergeMembers (ordered : Increasing members) (plain : ∀ m ∈ patch, m.2.replaces) :
    Increasing (mergeMembers members patch) := by
  rw [mergeMembers_eq_foldl plain]
  exact ordered.foldl_insert

/-- Merging the same plain members twice is merging them once. -/
theorem mergeMembers_mergeMembers (ordered : Increasing members) (plain : ∀ m ∈ patch, m.2.replaces)
    (distinct : (patch.map Prod.fst).Nodup) :
    mergeMembers (mergeMembers members patch) patch = mergeMembers members patch := by
  have once := ordered.mergeMembers plain
  apply (once.mergeMembers plain).ext once
  intro name
  rw [lookup_mergeMembers plain distinct, lookup_mergeMembers plain distinct, ← Option.or_assoc,
    Option.or_self]

end Tenancy.Json
