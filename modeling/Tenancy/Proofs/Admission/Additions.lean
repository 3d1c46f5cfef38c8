import Tenancy.Proofs.Admission.Review
import Tenancy.Proofs.Admission.Specification

/-! # Defaults only add

A document with its defaults holds every member that it held, and of the defaults those that were absent;
being present is what counts, not the value. The names that are told are those of the members that were
set, so that none is told exactly when nothing was done. Nothing is left to do on a document that has its
defaults, nor on its text.
-/

namespace Tenancy.Admission

open Json (lookup)

variable {document : Json} {name : String} {value : Json} {spec members : List (String × Json)}
  {verb again : Verb} {raw : List UInt8}

/-! ## Filling a specification -/

/-- A spec that misses no default is left as it is. -/
theorem fillSpec_of_complete (complete : missingDefaults spec = []) : fillSpec spec = spec := by
  rw [fillSpec, complete, List.foldl_nil]

/-- Filling once is enough: a filled spec misses nothing. -/
theorem missingDefaults_fillSpec : missingDefaults (fillSpec spec) = [] := by
  rw [missingDefaults, List.filter_eq_nil_iff]
  intro field default absent
  have known : lookup field.1 specDefaults ≠ none := fun unknown =>
    Json.lookup_eq_none_iff.mp unknown field default rfl
  rw [Option.isNone_iff_eq_none, lookup_fillSpec, Option.or_eq_none_iff] at absent
  exact known absent.2

theorem names_missingDefaults : (missingDefaults spec).map Prod.fst =
    ["quota", "isolation", "esgEnabled"].filter fun field => (lookup field spec).isNone := by
  have names : ["quota", "isolation", "esgEnabled"] = specDefaults.map Prod.fst := rfl
  rw [missingDefaults, names, List.filter_map]
  rfl

/-! ## Filling a document -/

theorem applyDefaults_of_no_object (plain : ∀ members, document ≠ .object members) :
    applyDefaults document = (document, []) := by
  cases document with
  | object members => exact absurd rfl (plain members)
  | _ => rfl

/-- The names reported for a document that is an object: `spec` when it had to be made, then each default it
lacked. -/
theorem applied_object : (applyDefaults (.object members)).2 =
    (if hasSpec (.object members) then [] else ["spec"]) ++
      (missingDefaults (specMembers (.object members))).map Prod.fst := by
  rw [applyDefaults, specOrEmpty_eq]
  cases hasSpec (.object members) <;> rfl

theorem get?_spec_applyDefaults : (applyDefaults (.object members)).1.get? "spec" =
    some (.object (fillSpec (specMembers (.object members)))) := by
  rw [applyDefaults_object, specOrEmpty_eq]
  exact Json.lookup_insert_self

/-- No member but `spec` is touched. -/
theorem get?_applyDefaults (other : name ≠ "spec") :
    (applyDefaults document).1.get? name = document.get? name := by
  cases document with
  | object members =>
    rw [applyDefaults_object]
    exact Json.lookup_insert_of_ne other
  | _ => rfl

/-- No name is told exactly when nothing was done. -/
theorem applied_eq_nil_iff (ordered : document.isOrdered) :
    (applyDefaults document).2 = [] ↔ (applyDefaults document).1 = document := by
  cases document with
  | object members =>
    rw [applied_object, List.append_eq_nil_iff, List.map_eq_nil_iff]
    constructor
    · rintro ⟨old, complete⟩
      have has : hasSpec (.object members) := by
        by_contra lacks
        rw [if_neg lacks] at old
        cases old
      have held : lookup "spec" members = some (.object (specMembers (.object members))) :=
        get?_spec_of_hasSpec has
      rw [applyDefaults_object, specOrEmpty_eq, fillSpec_of_complete complete,
        (Json.isOrdered_object.mp ordered).1.insert_eq_self held]
    · intro unchanged
      have held : (applyDefaults (.object members)).1.get? "spec" = _ := get?_spec_applyDefaults
      rw [unchanged] at held
      constructor
      · rw [if_pos (hasSpec_of_object held)]
      · rw [specMembers_of_object held]
        exact missingDefaults_fillSpec
  | _ => exact ⟨fun _ => rfl, fun _ => rfl⟩

/-- A document with its defaults is left as it is. -/
theorem applyDefaults_applyDefaults (ordered : document.isOrdered) :
    applyDefaults (applyDefaults document).1 = ((applyDefaults document).1, []) := by
  have nothing : (applyDefaults (applyDefaults document).1).2 = [] := by
    cases document with
    | object members =>
      have held : (applyDefaults (.object members)).1.get? "spec" = _ := get?_spec_applyDefaults
      rw [applyDefaults_object] at held ⊢
      rw [applied_object, if_pos (hasSpec_of_object held), specMembers_of_object held,
        missingDefaults_fillSpec]
      rfl
    | _ => rfl
  exact Prod.ext ((applied_eq_nil_iff (isOrdered_applyDefaults ordered)).mp nothing) nothing

/-! ## Filling a text -/

/-- The text of a document with its defaults gets no patch, whether it can be read or is too deep. -/
theorem patch_defaulting_encode (ordered : document.isOrdered) (integral : document.isIntegral) :
    (defaulting again (applyDefaults document).1.encode).patch? = none := by
  have ordered' := isOrdered_applyDefaults ordered
  have integral' := isIntegral_applyDefaults integral
  rw [defaulting]
  split_ifs with deletes
  · rfl
  · by_cases shallow : (applyDefaults document).1.depth < Json.depthLimit
    · simp only [Json.read_encode integral' ordered' shallow, applyDefaults_applyDefaults ordered,
        List.isEmpty_nil, if_true]
      rfl
    · obtain ⟨e, broken⟩ := Json.read_encode_of_deep integral' ordered' (Nat.not_lt.mp shallow)
      simp only [broken]
      rfl

/-- The output of the first stage is allowed as it is by the same stage. -/
theorem defaulting_output (other : verb ≠ .delete) (read : Json.read raw = .ok document)
    (integral : document.isIntegral) : ∃ output, amended? (defaulting verb raw) document = some output ∧
      (defaulting again output.encode).isAllowed ∧ (defaulting again output.encode).patch? = none := by
  obtain ⟨ordered, shallow⟩ := Json.wellRead_of_read read
  have output : amended? (defaulting verb raw) document = _ := amended_stored read
  have stays := depth_stored verb shallow
  rw [stored, if_neg other] at output stays
  have back : Json.read (applyDefaults document).1.encode = .ok (applyDefaults document).1 :=
    Json.read_encode (isIntegral_applyDefaults integral) (isOrdered_applyDefaults ordered) stays
  exact ⟨_, output, isAllowed_defaulting back, patch_defaulting_encode ordered integral⟩

/-! ## Both together -/

/-- Defaults are added to a document and nothing else happens to it; the names that are told are those of
the members that were set; and on a document with its defaults, or on the output of the first stage,
nothing is left to do. -/
theorem defaults_additive (document : Json) :
    ((∀ members, document ≠ .object members) → applyDefaults document = (document, [])) ∧
    (∀ members, document = .object members →
      (∀ name, name ≠ "spec" → (applyDefaults document).1.get? name = lookup name members) ∧
      (∃ spec, (applyDefaults document).1.get? "spec" = some (.object spec) ∧
        (∀ name value, specMember? name document = some value → lookup name spec = some value) ∧
        (∀ name, specMember? name document = none → lookup name spec = lookup name
          [("quota", .string "medium"), ("isolation", .string "namespace"), ("esgEnabled", .bool false)])) ∧
      (applyDefaults document).2 = (if hasSpec document then [] else ["spec"]) ++
        ["quota", "isolation", "esgEnabled"].filter fun field => (specMember? field document).isNone) ∧
    (document.isOrdered → (applyDefaults document).1.isOrdered ∧
      ((applyDefaults document).2 = [] ↔ (applyDefaults document).1 = document) ∧
      applyDefaults (applyDefaults document).1 = ((applyDefaults document).1, [])) ∧
    (document.isOrdered → document.isIntegral →
      ∀ again, (defaulting again (applyDefaults document).1.encode).patch? = none) ∧
    (∀ verb raw, verb ≠ .delete → Json.read raw = .ok document → document.isIntegral →
      ∀ again, ∃ output, amended? (defaulting verb raw) document = some output ∧
        (defaulting again output.encode).isAllowed ∧ (defaulting again output.encode).patch? = none) := by
  refine ⟨applyDefaults_of_no_object, ?_, ?_, ?_, ?_⟩
  · rintro members rfl
    refine ⟨fun name => get?_applyDefaults, ⟨_, get?_spec_applyDefaults, ?_, ?_⟩, ?_⟩
    · intro name value held
      rw [specMember?] at held
      rw [lookup_fillSpec, held, Option.some_or]
    · intro name absent
      rw [specMember?] at absent
      rw [lookup_fillSpec, absent, Option.none_or]
      rfl
    · rw [applied_object, names_missingDefaults]
      rfl
  · intro ordered
    exact ⟨isOrdered_applyDefaults ordered, applied_eq_nil_iff ordered,
      applyDefaults_applyDefaults ordered⟩
  · intro ordered integral again
    exact patch_defaulting_encode ordered integral
  · intro verb raw other read integral again
    exact defaulting_output other read integral

/-- A tenant that says falsehoods where others say nothing. -/
def stubbornTenant : Json := .object [("metadata", .null),
  ("spec", .object [("esgEnabled", .bool true), ("isolation", .null), ("labels", .array [])])]

theorem defaults_additive_stubborn :
    (applyDefaults .null = (.null, [])) ∧
    ((applyDefaults stubbornTenant).1.get? "metadata" = some .null ∧
      (applyDefaults stubbornTenant).2 = ["quota"]) ∧
    applyDefaults (applyDefaults stubbornTenant).1 = ((applyDefaults stubbornTenant).1, []) ∧
    (∃ output, amended? (defaulting .create stubbornTenant.encode) stubbornTenant = some output ∧
      (defaulting .update output.encode).patch? = none) ∧
    (defaulting .connect (applyDefaults stubbornTenant).1.encode).patch? = none := by
  have read : Json.read stubbornTenant.encode = .ok stubbornTenant :=
    Json.read_encode (by decide) (by decide) (by decide)
  obtain ⟨-, object, ordered, again, text⟩ := defaults_additive stubbornTenant
  obtain ⟨kept, -, told⟩ := object _ rfl
  obtain ⟨output, amended, -, unpatched⟩ :=
    text .create stubbornTenant.encode (by decide) read (by decide) .update
  refine ⟨(defaults_additive .null).1 (by simp), ⟨kept "metadata" (by decide), told⟩,
    (ordered (by decide)).2.2, ⟨output, amended, unpatched⟩, again (by decide) (by decide) .connect⟩

end Tenancy.Admission
