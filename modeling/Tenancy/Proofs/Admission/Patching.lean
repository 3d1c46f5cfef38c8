import Tenancy.Proofs.Admission.Additions

/-! # The patch with the defaults

The first stage tells what it did as a patch, found by comparing two documents. The comparison is exact:
however deep the document is, nothing but the specification is changed, and there either one whole
specification is put in place or the fields that are absent are added one by one, in order of name. The
review can therefore always carry the patch out.
-/

namespace Tenancy

open Json (Increasing lookup ofMembers)

/-- The places that an operation reads or changes. -/
def Json.Operation.places : Json.Operation → List Json.Pointer
  | .add path _ | .remove path | .replace path _ | .test path _ => [path]
  | .move source path | .copy source path => [source, path]

namespace Admission

variable {document : Json} {spec members : List (String × Json)} {verb : Verb} {raw : List UInt8}
  {op : Json.Operation} {place : Json.Pointer}

/-! ## The shape of the patch -/

def orderedDefaults : List (String × Json) :=
  [("esgEnabled", .bool false), ("isolation", .string "namespace"), ("quota", .string "medium")]

theorem orderedDefaults_eq : orderedDefaults = ofMembers specDefaults := by decide

theorem fillSpec_nil : fillSpec [] = orderedDefaults := by decide

/-- The missing defaults in the order of their names, which is the order the patch adds them in. -/
theorem ofMembers_missingDefaults : ofMembers (missingDefaults spec) =
    orderedDefaults.filter fun m => (lookup m.1 spec).isNone := by
  have increasing : Increasing orderedDefaults := by decide
  apply (Json.increasing_ofMembers _).ext (increasing.sublist List.filter_sublist)
  intro name
  have same : lookup name orderedDefaults = lookup name specDefaults := by
    rw [orderedDefaults_eq]
    exact Json.lookup_ofMembers_of_nodup (by decide)
  rw [Json.lookup_ofMembers_of_nodup nodup_missingDefaults, lookup_missingDefaults,
    Json.lookup_filter fun name => (lookup name spec).isNone, same]

/-- Into a spec that is an object the patch adds each missing default, one operation each. -/
theorem specPatch_object : specPatch (some (.object spec)) =
    (orderedDefaults.filter fun m => (lookup m.1 spec).isNone).map fun m => .add ⟨["spec", m.1]⟩ m.2 := by
  rw [specPatch, ofMembers_missingDefaults]

/-- A spec that is not an object is replaced by one that holds the defaults alone. -/
theorem specPatch_of_no_object {value : Json} (plain : value.members? = none) :
    specPatch (some value) = [.replace ⟨["spec"]⟩ (.object orderedDefaults)] := by
  cases value with
  | object members => cases plain
  | _ => simp only [specPatch, fillSpec_nil]

/-- An absent spec is added, again with the defaults alone. -/
theorem specPatch_none : specPatch none = [.add ⟨["spec"]⟩ (.object orderedDefaults)] := by
  rw [specPatch, fillSpec_nil]

/-- Every place in the patch is the specification that has to be made, or a field that it lacks. -/
theorem place_of_mem_defaultPatch (among : op ∈ defaultPatch document) (touched : place ∈ op.places) :
    (hasSpec document = false ∧ place.tokens = ["spec"]) ∨
      ∃ name, place.tokens = ["spec", name] ∧ hasSpec document ∧ specMember? name document = none := by
  cases document with
  | object members =>
    rw [defaultPatch] at among
    cases held : lookup "spec" members with
    | none =>
      rw [held, specPatch_none] at among
      obtain rfl := List.mem_singleton.mp among
      obtain rfl := List.mem_singleton.mp touched
      left
      rw [hasSpec, Json.get?, held]
      exact ⟨rfl, rfl⟩
    | some value =>
      rw [held] at among
      cases isObject : value.members? with
      | none =>
        rw [specPatch_of_no_object isObject] at among
        obtain rfl := List.mem_singleton.mp among
        obtain rfl := List.mem_singleton.mp touched
        left
        rw [hasSpec, Json.get?, held, Option.bind_some, isObject]
        exact ⟨rfl, rfl⟩
      | some spec =>
        obtain rfl : value = .object spec := by
          cases value with
          | object fields => exact congrArg _ (Option.some.inj isObject)
          | _ => cases isObject
        rw [specPatch_object] at among
        obtain ⟨m, missing, rfl⟩ := List.mem_map.mp among
        obtain rfl := List.mem_singleton.mp touched
        have absent : lookup m.1 spec = none := Option.isNone_iff_eq_none.mp (List.mem_filter.mp missing).2
        have has : (Json.object members).get? "spec" = some (.object spec) := held
        right
        refine ⟨m.1, rfl, hasSpec_of_object has, ?_⟩
        rw [specMember?, specMembers_of_object has, absent]
  | _ => exact absurd among List.not_mem_nil

/-- The patch is empty exactly when defaulting changes nothing. -/
theorem defaultPatch_eq_nil_iff (ordered : document.isOrdered) :
    defaultPatch document = [] ↔ (applyDefaults document).1 = document := by
  constructor
  · intro empty
    have carried := carryOut_defaultPatch ordered
    rw [empty] at carried
    exact (Option.some.inj carried).symm
  · intro unchanged
    rw [← diff_applyDefaults ordered, unchanged, Json.diff_self ordered]

/-! ## The first stage and the review -/

theorem patch_defaulting_eq (other : verb ≠ .delete) (read : Json.read raw = .ok document) :
    (defaulting verb raw).patch? =
      if (applyDefaults document).1 = document then none
      else some (Json.diff document (applyDefaults document).1) := by
  have ordered := (Json.wellRead_of_read read).1
  rw [patch_defaulting other read, diff_applyDefaults ordered]
  simp only [List.isEmpty_iff, defaultPatch_eq_nil_iff ordered]

/-- Defaulting never reports that it could not apply its own patch. -/
theorem defaulting_ne_failed (reason : String) : defaulting verb raw ≠ .failed reason := by
  intro failed
  rw [defaulting] at failed
  split_ifs at failed
  · cases failed
  · split at failed
    · cases failed
    · dsimp only at failed
      split_ifs at failed
      · cases failed
      · cases failed

/-- The review tells what the first stage said, whether it goes on or not. -/
theorem defaulting_review : (review verb raw).defaulting = defaulting verb raw := by
  cases found : Json.read raw with
  | ok document => rw [review_eq_stored verb found]
  | error e =>
    simp only [review, found]
    split_ifs <;> rfl

/-- The patch of the first stage turns a document into the one with defaults and has one of two shapes: one
operation that puts a whole specification in place, or one addition for each field that is absent. There is
no patch exactly when there is nothing to do, and the review can always carry it out. -/
theorem default_patch_exact (document : Json) (ordered : document.isOrdered) :
    (Json.diff document (applyDefaults document).1 = [] ↔ (applyDefaults document).1 = document) ∧
    (Json.diff document (applyDefaults document).1).carryOut? document =
      some (applyDefaults document).1 ∧
    (∀ members, document = .object members →
      (lookup "spec" members = none → Json.diff document (applyDefaults document).1 =
        [.add ⟨["spec"]⟩ (.object orderedDefaults)]) ∧
      (∀ value, lookup "spec" members = some value → value.members? = none →
        Json.diff document (applyDefaults document).1 =
          [.replace ⟨["spec"]⟩ (.object orderedDefaults)]) ∧
      (∀ spec, lookup "spec" members = some (.object spec) →
        Json.diff document (applyDefaults document).1 =
          (orderedDefaults.filter fun m => (lookup m.1 spec).isNone).map
            fun m => .add ⟨["spec", m.1]⟩ m.2)) ∧
    (∀ op ∈ Json.diff document (applyDefaults document).1, ∀ place ∈ op.places,
      (hasSpec document = false ∧ place.tokens = ["spec"]) ∨
        ∃ name, place.tokens = ["spec", name] ∧ hasSpec document ∧ specMember? name document = none) ∧
    (∀ verb raw, verb ≠ .delete → Json.read raw = .ok document →
      (defaulting verb raw).isAllowed ∧
      (defaulting verb raw).patch? =
        (if (applyDefaults document).1 = document then none
          else some (Json.diff document (applyDefaults document).1)) ∧
      (review verb raw).object = some (applyDefaults document).1) ∧
    (∀ verb raw, (review verb raw).defaulting = defaulting verb raw ∧
      ∀ reason, (review verb raw).defaulting ≠ .failed reason) := by
  rw [diff_applyDefaults ordered]
  refine ⟨defaultPatch_eq_nil_iff ordered, carryOut_defaultPatch ordered, ?_, ?_, ?_, ?_⟩
  · rintro members rfl
    rw [defaultPatch]
    refine ⟨?_, ?_, ?_⟩
    · intro lacks
      rw [lacks, specPatch_none]
    · intro value held plain
      rw [held, specPatch_of_no_object plain]
    · intro spec held
      rw [held, specPatch_object]
  · intro op among place touched
    exact place_of_mem_defaultPatch among touched
  · intro verb raw other read
    refine ⟨isAllowed_defaulting read, ?_, ?_⟩
    · rw [patch_defaulting_eq other read, diff_applyDefaults ordered]
    · rw [review_eq_stored verb read, stored, if_neg other]
  · intro verb raw
    rw [defaulting_review]
    exact ⟨rfl, fun reason => defaulting_ne_failed reason⟩

/-- A tenant whose specification is a list. -/
def listedTenant : Json := .object [("spec", .array [.string "acme"])]

theorem default_patch_exact_listed :
    Json.diff stubbornTenant (applyDefaults stubbornTenant).1 =
      [.add ⟨["spec", "quota"]⟩ (.string "medium")] ∧
    Json.diff listedTenant (applyDefaults listedTenant).1 =
      [.replace ⟨["spec"]⟩ (.object orderedDefaults)] ∧
    (defaulting .create listedTenant.encode).patch? =
      some [.replace ⟨["spec"]⟩ (.object orderedDefaults)] ∧
    (review .create listedTenant.encode).object = some (applyDefaults listedTenant).1 := by
  have read : Json.read listedTenant.encode = .ok listedTenant :=
    Json.read_encode (by decide) (by decide) (by decide)
  obtain ⟨-, -, shapes, -⟩ := default_patch_exact stubbornTenant (by decide)
  obtain ⟨-, -, shapes', -, text, -⟩ := default_patch_exact listedTenant (by decide)
  obtain ⟨-, patch, reviewed⟩ := text .create _ (by decide) read
  have replaced := (shapes' _ rfl).2.1 _ rfl rfl
  have changed : (applyDefaults listedTenant).1 ≠ listedTenant := by decide
  rw [if_neg changed, replaced] at patch
  exact ⟨(shapes _ rfl).2.2 _ rfl, replaced, patch, reviewed⟩

end Admission

end Tenancy
