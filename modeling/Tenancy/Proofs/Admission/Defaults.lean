import Tenancy.Admission.Pipeline
import Tenancy.Proofs.Json.Diff
import Tenancy.Proofs.Json.Reading

/-! # What the first stage does

The specification with defaults holds what it held before and, of the defaults, those that were
absent. The patch that says so depends on the specification alone, and on every object with that
specification it can be carried out and gives the object with defaults.
-/

namespace Tenancy.Admission

open Json (Increasing lookup ofMembers)

variable {name : String} {spec members : List (String × Json)} {document : Json}
  {limit : Nat}

/-! ## The specification -/

/-- A default is missing exactly when the spec has no member of its name, whatever value that member has. -/
theorem lookup_missingDefaults : lookup name (missingDefaults spec) =
    if (lookup name spec).isNone then lookup name specDefaults else none :=
  Json.lookup_filter fun name => (lookup name spec).isNone

theorem nodup_missingDefaults : ((missingDefaults spec).map Prod.fst).Nodup :=
  (List.filter_sublist.map Prod.fst).nodup (by decide : (specDefaults.map Prod.fst).Nodup)

/-- In a filled spec a member of the spec comes before a default of the same name. -/
theorem lookup_fillSpec : lookup name (fillSpec spec) =
    (lookup name spec).or (lookup name specDefaults) := by
  rw [fillSpec, Json.lookup_foldl_insert, Json.lookup_reverse nodup_missingDefaults,
    lookup_missingDefaults]
  cases lookup name spec with
  | none => rw [Option.isNone_none, if_pos rfl, Option.or_none, Option.none_or]
  | some value => rfl

/-- What a specification has is not overwritten. -/
theorem lookup_fillSpec_of_present {value : Json} (found : lookup name spec = some value) :
    lookup name (fillSpec spec) = some value := by
  rw [lookup_fillSpec, found, Option.some_or]

theorem lookup_fillSpec_of_not_default (other : lookup name specDefaults = none) :
    lookup name (fillSpec spec) = lookup name spec := by
  rw [lookup_fillSpec, other, Option.or_none]

theorem increasing_fillSpec (increasing : Increasing spec) : Increasing (fillSpec spec) :=
  increasing.foldl_insert

/-- Nothing else gets into a spec: each member was there, or is one of the defaults. -/
theorem mem_fillSpec {m : String × Json} (present : m ∈ fillSpec spec) :
    m ∈ spec ∨ m ∈ specDefaults := by
  rcases Json.mem_foldl_insert present with filled | kept
  · exact .inr (List.mem_of_mem_filter filled)
  · exact .inl kept

/-- The same, with the absent fields put in in order of name. -/
theorem fillSpec_eq_foldl_ofMembers (increasing : Increasing spec) : fillSpec spec =
    (ofMembers (missingDefaults spec)).foldl (fun spec m => Json.insert m.1 m.2 spec) spec := by
  apply (increasing_fillSpec increasing).ext increasing.foldl_insert
  intro name
  have distinct := (Json.increasing_ofMembers (missingDefaults spec)).nodup
  rw [fillSpec, Json.lookup_foldl_insert, Json.lookup_foldl_insert, Json.lookup_reverse distinct,
    Json.lookup_ofMembers]

/-! ## The object -/

theorem applyDefaults_object : (applyDefaults (.object members)).1 =
    .object (Json.insert "spec" (.object (fillSpec (specOrEmpty members).1)) members) := rfl

/-- Every member of the specification with defaults was in the object's, or is a default. -/
theorem mem_filled {m : String × Json} (present : m ∈ fillSpec (specOrEmpty members).1) :
    (∃ spec, lookup "spec" members = some (.object spec) ∧ m ∈ spec) ∨ m ∈ specDefaults := by
  rcases mem_fillSpec present with held | added
  · rw [specOrEmpty] at held
    split at held
    · exact .inl ⟨_, ‹_›, held⟩
    · exact absurd held List.not_mem_nil
  · exact .inr added

private theorem mem_applied {m : String × Json}
    (present : m ∈ Json.insert "spec" (.object (fillSpec (specOrEmpty members).1)) members) :
    m.2 = .object (fillSpec (specOrEmpty members).1) ∨ m ∈ members := by
  rcases Json.mem_insert present with rfl | kept
  · exact .inl rfl
  · exact .inr kept

theorem isIntegral_applyDefaults (integral : document.isIntegral) :
    (applyDefaults document).1.isIntegral := by
  cases document with
  | object members =>
    rw [Json.isIntegral_object] at integral
    rw [applyDefaults_object, Json.isIntegral_object]
    intro m present
    rcases mem_applied present with filled | kept
    · rw [filled, Json.isIntegral_object]
      intro m present
      rcases mem_filled present with ⟨spec, found, held⟩ | added
      · exact Json.isIntegral_object.mp (integral _ (Json.mem_of_lookup found)) m held
      · exact (by decide : ∀ m ∈ specDefaults, m.2.isIntegral) m added
    · exact integral m kept
  | _ => exact integral

theorem isOrdered_applyDefaults (ordered : document.isOrdered) :
    (applyDefaults document).1.isOrdered := by
  cases document with
  | object members =>
    rw [Json.isOrdered_object] at ordered
    rw [applyDefaults_object, Json.isOrdered_object]
    refine ⟨ordered.1.insert, fun m present => ?_⟩
    rcases mem_applied present with filled | kept
    · rw [filled, Json.isOrdered_object]
      refine ⟨increasing_fillSpec ?_, fun m present => ?_⟩
      · rw [specOrEmpty]
        split
        · exact (Json.isOrdered_object.mp (ordered.2 _ (Json.mem_of_lookup ‹_›))).1
        · exact Json.increasing_nil
      · rcases mem_filled present with ⟨spec, found, held⟩ | added
        · exact (Json.isOrdered_object.mp (ordered.2 _ (Json.mem_of_lookup found))).2 m held
        · exact (by decide : ∀ m ∈ specDefaults, m.2.isOrdered) m added
    · exact ordered.2 m kept
  | _ => exact ordered

/-- The defaults open a specification in the object, so that two containers may become necessary. -/
theorem depth_applyDefaults (shallow : document.depth ≤ limit + 2) :
    (applyDefaults document).1.depth ≤ limit + 2 := by
  cases document with
  | object members =>
    rw [Json.depth_object_le_succ] at shallow
    rw [applyDefaults_object, Json.depth_object_le_succ]
    intro m present
    rcases mem_applied present with filled | kept
    · rw [filled, Json.depth_object_le_succ]
      intro m present
      rcases mem_filled present with ⟨spec, found, held⟩ | added
      · exact Json.depth_object_le_succ.mp (shallow _ (Json.mem_of_lookup found)) m held
      · have flat := (by decide : ∀ m ∈ specDefaults, m.2.depth = 0) m added
        omega
    · exact shallow m kept
  | _ => exact shallow

/-! ## The patch -/

/-- The patch that gives an object its defaults, told by the specification that the object holds. -/
def specPatch : Option Json → Json.Patch
  | some (.object spec) =>
    (ofMembers (missingDefaults spec)).map fun m => .add ⟨["spec", m.1]⟩ m.2
  | some _ => [.replace ⟨["spec"]⟩ (.object (fillSpec []))]
  | none => [.add ⟨["spec"]⟩ (.object (fillSpec []))]

def defaultPatch (document : Json) : Json.Patch :=
  match document with
  | .object members => specPatch (lookup "spec" members)
  | _ => []

/-- What the filled specification has and the specification has not, are the absent defaults. -/
private theorem filter_fillSpec (increasing : Increasing spec) :
    (fillSpec spec).filter (fun m => (lookup m.1 spec).isNone) = ofMembers (missingDefaults spec) := by
  have ordered : Increasing ((fillSpec spec).filter fun m => (lookup m.1 spec).isNone) :=
    (increasing_fillSpec increasing).sublist List.filter_sublist
  apply ordered.ext (Json.increasing_ofMembers _)
  intro name
  rw [Json.lookup_filter fun name => (lookup name spec).isNone, lookup_fillSpec,
    Json.lookup_ofMembers_of_nodup nodup_missingDefaults, lookup_missingDefaults]
  cases lookup name spec <;> rfl

/-- The comparison with the defaulted document finds this patch. -/
theorem diff_applyDefaults (ordered : document.isOrdered) :
    Json.diff document (applyDefaults document).1 = defaultPatch document := by
  cases document with
  | object members =>
    rw [Json.diff, applyDefaults_object, Json.diffAt_insert ordered, defaultPatch, Json.changes]
    cases found : lookup "spec" members with
    | none => rw [specOrEmpty, found]; rfl
    | some before =>
      have held := (Json.isOrdered_object.mp ordered).2 _ (Json.mem_of_lookup found)
      cases before with
      | object spec =>
        have increasing := (Json.isOrdered_object.mp held).1
        have extended : ∀ name before, lookup name spec = some before →
            lookup name (fillSpec spec) = some before := fun _ _ => lookup_fillSpec_of_present
        simp only [specOrEmpty, found, specPatch]
        rw [Json.diffAt_extension held (increasing_fillSpec increasing) extended,
          filter_fillSpec increasing]
        rfl
      | _ => simp only [specOrEmpty, found, specPatch]; rfl
  | _ => exact Json.diff_self ordered

/-- Where no field was set, nothing is to do. -/
theorem defaultPatch_of_nothing_applied (unchanged : (applyDefaults document).2 = []) :
    defaultPatch document = [] := by
  cases document with
  | object members =>
    rw [applyDefaults, specOrEmpty] at unchanged
    rw [defaultPatch]
    cases found : lookup "spec" members with
    | none => rw [found] at unchanged; cases unchanged
    | some before =>
      rw [found] at unchanged
      cases before with
      | object spec =>
        simp only [Bool.false_eq_true, if_false, List.map_eq_nil_iff] at unchanged
        rw [specPatch, unchanged]
        rfl
      | _ => cases unchanged
  | _ => rfl

/-- A member added to the specification of an object. -/
private theorem add_field {value : Json} (found : lookup "spec" members = some (.object spec)) :
    (Json.Operation.add ⟨["spec", name]⟩ value).carryOut? (.object members) =
      some (.object (Json.insert "spec" (.object (Json.insert name value spec)) members)) := by
  simp [Json.Operation.carryOut?, Json.Operation.carryOut, Json.add?, Json.edit?, Json.child?, found,
    Json.addChild?, Json.setChild?]

/-- Members added one after the other to the specification of an object. -/
private theorem add_fields (fields : List (String × Json)) (increasing : Increasing members)
    (found : lookup "spec" members = some (.object spec)) :
    Json.Patch.carryOut? (.object members) (fields.map fun m => .add ⟨["spec", m.1]⟩ m.2) =
      some (.object (Json.insert "spec"
        (.object (fields.foldl (fun spec m => Json.insert m.1 m.2 spec) spec)) members)) := by
  induction fields generalizing members spec with
  | nil => rw [List.foldl_nil, increasing.insert_eq_self found]; rfl
  | cons m fields ih =>
    rw [List.map_cons, Json.carryOut?_cons, add_field found, Option.bind_some,
      ih increasing.insert Json.lookup_insert_self, Json.insert_insert_self, List.foldl_cons]

/-- On every object in order the patch can be carried out, and gives the object its defaults. -/
theorem carryOut_defaultPatch (ordered : document.isOrdered) :
    (defaultPatch document).carryOut? document = some (applyDefaults document).1 := by
  cases document with
  | object members =>
    have increasing := (Json.isOrdered_object.mp ordered).1
    rw [applyDefaults_object, defaultPatch, specOrEmpty]
    cases found : lookup "spec" members with
    | none => rfl
    | some before =>
      have held := (Json.isOrdered_object.mp ordered).2 _ (Json.mem_of_lookup found)
      cases before with
      | object spec =>
        simp only [specPatch]
        rw [add_fields _ increasing found,
          ← fillSpec_eq_foldl_ofMembers (Json.isOrdered_object.mp held).1]
      | _ =>
        simp [specPatch, Json.Patch.carryOut?, Json.Patch.carryOut, Json.Patch.carryOutFrom,
          Json.Operation.carryOut, Json.Operation.Refusal.unless, Json.replace?, Json.edit?,
          Json.replaceChild?, Json.child?, found, Json.setChild?]
  | _ => rfl

end Tenancy.Admission
