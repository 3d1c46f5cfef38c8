import Tenancy.Admission.Endpoint
import Tenancy.Proofs.Admission.Review
import Tenancy.Proofs.Json.Typing

/-! # The object of a request

The object that a request carries has gone through a form: its metadata are those that are known, and
its other members were kept. It is written once more for a stage, and what the stage reads then has
the same specification.
-/

namespace Tenancy.Admission

open Json (lookup)

variable {fuel depth : Nat} {body : List UInt8} {review object : Json} {request : Request}

/-- An object whose text is not too deep, and whose specification is the same when it is sorted. -/
structure Carried (object : Json) : Prop where
  isObject : ∃ members, object = .object members
  shallow : object.depth < Json.depthLimit
  spec : object.sorted.get? "spec" = object.get? "spec"

/-- The check looks at the `spec` member alone. -/
theorem checkTenant_congr {a b : Json} (same : a.get? "spec" = b.get? "spec") :
    checkTenant a = checkTenant b := by
  rw [checkTenant, checkTenant, same]

theorem verdict_congr {a b : Json} (same : a.get? "spec" = b.get? "spec") : verdict a = verdict b := by
  rw [verdict, verdict, checkTenant_congr same]

private theorem objectForm_isShallow : objectForm.isShallow := by decide

/-- What was read as an object is carried without loss. -/
theorem carried_of_reads (room : 0 < depth) (limited : depth < Json.depthLimit)
    (reads : Json.Reads fuel objectForm depth object) : Carried object := by
  obtain ⟨less, -, input, rest, found⟩ := reads
  have shallow := Json.depth_of_readTyped less objectForm_isShallow room found
  cases less with
  | zero => rw [Json.readTyped] at found; exact absurd found Json.stop_ne_ok
  | succ less =>
    obtain ⟨-, types, known, left, rfl, knows, increasing, surplus⟩ := Json.recordOf_of_readTyped found
    refine ⟨⟨_, rfl⟩, lt_of_le_of_lt shallow limited, ?_⟩
    have others : ∀ m ∈ (types.map Json.typeMembers).getD [] ++ known, m.1 ≠ "spec" := by
      refine List.forall_mem_append.mpr ?_
      constructor
      · intro m isType
        rcases Json.typeMembers_name types m isType with same | same <;> rw [same] <;> decide
      · intro m among
        rcases knows m among with ⟨field, described, named, -⟩ | filled
        · rw [← named, List.mem_singleton.mp described]
          decide
        · rw [List.mem_singleton.mp filled]
          decide
    have backwards : ∀ m ∈ ((types.map Json.typeMembers).getD [] ++ known).reverse, m.1 ≠ "spec" :=
      fun m present => others m (List.mem_reverse.mp present)
    have ordered : ∀ spec, lookup "spec" left = some spec → spec.sorted = spec := fun spec found =>
      Json.sorted_eq_self spec (surplus _ (Json.mem_of_lookup found)).2.1
    rw [Json.sorted_object, Json.get?, Json.get?, Json.lookup_ofMembers, ← List.map_reverse,
      Json.lookup_map, List.reverse_append, Json.lookup_append,
      Json.lookup_eq_none_iff.mpr backwards, Option.or_none, Json.lookup_reverse increasing.nodup,
      Json.lookup_append_of_ne others]
    cases found : lookup "spec" left with
    | none => rfl
    | some spec => rw [Option.map_some, ordered spec found]

/-! ## Reviews -/

/-- The object of a decoded request is carried without loss. -/
theorem carried_of_request (decoded : reviewForm.read body = .ok review)
    (held : request? review = some request) (present : request.object = some object) :
    Carried object := by
  rw [Json.Schema.read] at decoded
  obtain ⟨⟨value, rest⟩, read, decoded⟩ := bind_eq_ok.mp decoded
  obtain ⟨-, -, same⟩ := bind_eq_ok.mp decoded
  cases same
  rw [request?, Option.map_eq_some_iff] at held
  obtain ⟨inner, found, rfl⟩ := held
  obtain ⟨-, less, -, input, rest, read⟩ := Json.reads_of_get? (.optional "request" requestForm)
    read found rfl (by decide) (by decide) (by decide)
  cases less with
  | zero => rw [Json.readTyped] at read; exact absurd read Json.stop_ne_ok
  | succ less =>
    obtain ⟨-, reads⟩ := Json.reads_of_get? (.optionalPlaced "object" objectForm) read present rfl
      (by decide) (by decide) (by decide)
    exact carried_of_reads (by decide) (by decide) reads

end Tenancy.Admission
