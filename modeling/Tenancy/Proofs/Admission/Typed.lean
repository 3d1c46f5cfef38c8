import Tenancy.Proofs.Admission.Additions
import Tenancy.Proofs.Admission.Validation
import Tenancy.Proofs.Tenant.Decoding

/-! # Admission and the typed form

The stages of the admission look at members of a document, one name at a time; the controller decodes the
specification as a whole. Where the optional fields are well typed, the second stage admits exactly what
decodes with a name that is not empty, in the mode that it decodes to. The first stage leaves the meaning of a
specification as it is, but for the fields that it fills in.
-/

namespace Tenancy.Admission

open Json (lookup Suits)

variable {document : Json} {mode : IsolationMode} {spec : List (String × Json)} {decoded : TenantSpec}

/-! ## What is admitted can be decoded -/

/-- No member of the specification has a type that its field does not take. The name may be anything, and so
may the members that no field describes. -/
structure WellTyped (spec : List (String × Json)) : Prop where
  isolation : ∀ value, lookup "isolation" spec = some value → ∃ name, value = .string name
  quota : Suits .string (lookup "quota" spec)
  oidcGroup : Suits .string (lookup "oidcGroup" spec)
  esgEnabled : Suits .bool (lookup "esgEnabled" spec)
  complianceFrameworks : Suits (fun texts : List String => .array (texts.map .string))
    (lookup "complianceFrameworks" spec)

/-- With its name and its mode, a well-typed specification is complete. -/
theorem WellTyped.exists_heldBy (typed : WellTyped spec) {name : String}
    (named : lookup "displayName" spec = some (.string name))
    (isolated : lookup "isolation" spec = some (.string mode.name)) :
    ∃ decoded : TenantSpec, decoded.HeldBy spec ∧ decoded.displayName = name ∧ decoded.isolation = mode := by
  obtain ⟨quota, sized⟩ := Json.exists_spells typed.quota
  obtain ⟨oidcGroup, grouped⟩ := Json.exists_spells typed.oidcGroup
  obtain ⟨esgEnabled, reporting⟩ := Json.exists_spells typed.esgEnabled
  obtain ⟨complianceFrameworks, complying⟩ := Json.exists_spells typed.complianceFrameworks
  exact ⟨⟨name, quota, oidcGroup, mode, esgEnabled, complianceFrameworks⟩,
    ⟨named, sized, grouped, ⟨_, isolated, .text⟩, reporting, complying⟩, rfl, rfl⟩

/-- The second stage admits exactly the specifications that decode with a name that is not empty, and finds
the mode that they decode to. Reading the text of the specification comes to the same. -/
theorem checkTenant_eq_ok_iff_decodes (ordered : document.isOrdered)
    (held : document.get? "spec" = some (.object spec)) (typed : WellTyped spec) :
    (checkTenant document = .ok mode ↔ ∃ decoded, TenantSpec.decode (.object spec) = .ok decoded ∧
      decoded.displayName ≠ "" ∧ decoded.isolation = mode) ∧
    (document.isIntegral → (checkTenant document = .ok mode ↔
      ∃ decoded, TenantSpec.ofText (Json.object spec).encode = .ok decoded ∧
        decoded.displayName ≠ "" ∧ decoded.isolation = mode)) := by
  have orderedSpec : (Json.object spec).isOrdered := Json.isOrdered_of_get? ordered held
  have decodes : checkTenant document = .ok mode ↔
      ∃ decoded, TenantSpec.decode (.object spec) = .ok decoded ∧
        decoded.displayName ≠ "" ∧ decoded.isolation = mode := by
    simp only [TenantSpec.decode_object_iff orderedSpec]
    rw [checkTenant_eq_ok_iff]
    constructor
    · rintro ⟨_, same, ⟨name, named, filled⟩, isolated⟩
      cases held.symm.trans same
      obtain ⟨decoded, holds, rfl, rfl⟩ := typed.exists_heldBy named isolated
      exact ⟨decoded, holds, filled, rfl⟩
    · rintro ⟨decoded, holds, filled, rfl⟩
      exact ⟨spec, held, ⟨_, holds.displayName, filled⟩, holds.isolation_of_text typed.isolation⟩
  refine ⟨decodes, fun integral => ?_⟩
  simp only [decodes, TenantSpec.ofText_object_iff (Json.isIntegral_of_get? integral held) orderedSpec]

/-- A tenant with a member that no field describes, whose quota is null. -/
def labelledTenant : Json := .object [("spec", .object [("complianceFrameworks", .array [.string "SOC2"]),
  ("displayName", .string "Acme"), ("isolation", .string "cluster"), ("labels", .array [.null]),
  ("quota", .null)])]

def labelledSpec : List (String × Json) := specMembers labelledTenant

theorem checkTenant_labelledTenant : labelledTenant.isOrdered ∧
    labelledTenant.get? "spec" = some (.object labelledSpec) ∧ WellTyped labelledSpec ∧
    labelledTenant.isIntegral ∧
    (∃ decoded, TenantSpec.decode (.object labelledSpec) = .ok decoded ∧
      decoded.displayName ≠ "" ∧ decoded.isolation = .cluster) ∧
    (∃ decoded, TenantSpec.ofText (Json.object labelledSpec).encode = .ok decoded ∧
      decoded.displayName ≠ "" ∧ decoded.isolation = .cluster) ∧
    ¬∃ decoded, TenantSpec.decode (.object labelledSpec) = .ok decoded ∧
      decoded.displayName ≠ "" ∧ decoded.isolation = .network := by
  have ordered : labelledTenant.isOrdered := by decide
  have typed : WellTyped labelledSpec := by
    constructor
    · rintro _ ⟨⟩; exact ⟨"cluster", rfl⟩
    · rintro _ ⟨⟩; exact .inl rfl
    · rintro _ ⟨⟩
    · rintro _ ⟨⟩
    · rintro _ ⟨⟩; exact .inr ⟨["SOC2"], rfl⟩
  have passed : checkTenant labelledTenant = .ok .cluster := rfl
  have agree (mode : IsolationMode) := @checkTenant_eq_ok_iff_decodes _ mode _ ordered rfl typed
  refine ⟨ordered, rfl, typed, by decide, (agree .cluster).1.mp passed,
    ((agree .cluster).2 (by decide)).mp passed, fun found => ?_⟩
  have passes := (agree .network).1.mpr found
  rw [passed] at passes
  cases passes

/-! ## Defaults keep the meaning -/

/-- What becomes of a decoded specification when the absent fields of its object are filled in. -/
def withDefaults (spec : List (String × Json)) (decoded : TenantSpec) : TenantSpec :=
  { decoded with
    quota := if (lookup "quota" spec).isNone then some defaultQuota else decoded.quota
    esgEnabled := if (lookup "esgEnabled" spec).isNone then some defaultEsg else decoded.esgEnabled }

/-- Filling a spec changes what it decodes to by the defaults and nothing else. -/
theorem heldBy_fillSpec (held : decoded.HeldBy spec) :
    (withDefaults spec decoded).HeldBy (fillSpec spec) where
  displayName := by
    rw [lookup_fillSpec_of_not_default rfl]
    exact held.displayName
  quota := by
    rw [lookup_fillSpec]
    exact held.quota.or_default defaultQuota
  oidcGroup := by
    rw [lookup_fillSpec_of_not_default rfl]
    exact held.oidcGroup
  isolation := by
    obtain ⟨value, found, named⟩ := held.isolation
    exact ⟨value, lookup_fillSpec_of_present found, named⟩
  esgEnabled := by
    rw [lookup_fillSpec]
    exact held.esgEnabled.or_default defaultEsg
  complianceFrameworks := by
    rw [lookup_fillSpec_of_not_default rfl]
    exact held.complianceFrameworks

/-- Whether reports are made stays as it is: not saying so was a no. -/
theorem reportsEsg_withDefaults (held : decoded.HeldBy spec) :
    (withDefaults spec decoded).reportsEsg = decoded.reportsEsg := by
  have reporting := held.esgEnabled
  simp only [TenantSpec.reportsEsg, withDefaults]
  generalize lookup "esgEnabled" spec = member?, decoded.esgEnabled = value? at reporting ⊢
  cases reporting <;> rfl

/-- A spec that decodes states its isolation mode, so the default for it is never reported as applied. -/
theorem isolation_not_applied (has : document.get? "spec" = some (.object spec))
    (held : decoded.HeldBy spec) : "isolation" ∉ (applyDefaults document).2 := by
  cases document with
  | object members =>
    obtain ⟨value, found, -⟩ := held.isolation
    rw [applied_object, if_pos (hasSpec_of_object has), List.nil_append, names_missingDefaults,
      specMembers_of_object has]
    intro told
    have absent := (List.mem_filter.mp told).2
    rw [found] at absent
    cases absent
  | _ => cases has

/-- A specification that decodes still decodes when it has its defaults, and to the same but for the quota and
the reports, where they were absent; a null stays nothing. Its mode is never filled in. -/
theorem decode_applyDefaults (ordered : document.isOrdered)
    (has : document.get? "spec" = some (.object spec))
    (found : TenantSpec.decode (.object spec) = .ok decoded) :
    ∃ filled after, (applyDefaults document).1.get? "spec" = some (.object filled) ∧
      TenantSpec.decode (.object filled) = .ok after ∧
      after.displayName = decoded.displayName ∧ after.oidcGroup = decoded.oidcGroup ∧
      after.isolation = decoded.isolation ∧
      after.complianceFrameworks = decoded.complianceFrameworks ∧
      after.quota = (if (lookup "quota" spec).isNone then some "medium" else decoded.quota) ∧
      after.esgEnabled = (if (lookup "esgEnabled" spec).isNone then some false else decoded.esgEnabled) ∧
      (lookup "quota" spec = some .null → after.quota = none) ∧
      (lookup "esgEnabled" spec = some .null → after.esgEnabled = none) ∧
      after.reportsEsg = decoded.reportsEsg ∧ after.compliance = decoded.compliance ∧
      lookup "isolation" filled = lookup "isolation" spec ∧ "isolation" ∉ (applyDefaults document).2 := by
  have held : decoded.HeldBy spec :=
    (TenantSpec.decode_object_iff (Json.isOrdered_of_get? ordered has)).mp found
  have filled : (applyDefaults document).1.get? "spec" = some (.object (fillSpec spec)) := by
    cases document with
    | object members => rw [get?_spec_applyDefaults, specMembers_of_object has]
    | _ => cases has
  have orderedFilled : (Json.object (fillSpec spec)).isOrdered :=
    Json.isOrdered_of_get? (isOrdered_applyDefaults ordered) filled
  have isolation : lookup "isolation" (fillSpec spec) = lookup "isolation" spec := by
    obtain ⟨value, present, -⟩ := held.isolation
    rw [present, lookup_fillSpec_of_present present]
  refine ⟨fillSpec spec, withDefaults spec decoded, filled,
    (TenantSpec.decode_object_iff orderedFilled).mpr (heldBy_fillSpec held),
    rfl, rfl, rfl, rfl, rfl, rfl, ?_, ?_, reportsEsg_withDefaults held, rfl, isolation,
    isolation_not_applied has held⟩
  · intro null
    exact (heldBy_fillSpec held).quota.eq_none_of_null nofun (lookup_fillSpec_of_present null)
  · intro null
    exact (heldBy_fillSpec held).esgEnabled.eq_none_of_null nofun (lookup_fillSpec_of_present null)

def labelledWanted : TenantSpec where
  displayName := "Acme"
  quota := none
  oidcGroup := none
  isolation := .cluster
  esgEnabled := none
  complianceFrameworks := some ["SOC2"]

theorem decode_applyDefaults_labelledTenant : labelledTenant.isOrdered ∧
    labelledTenant.get? "spec" = some (.object labelledSpec) ∧
    TenantSpec.decode (.object labelledSpec) = .ok labelledWanted ∧
    ∃ filled after, (applyDefaults labelledTenant).1.get? "spec" = some (.object filled) ∧
      TenantSpec.decode (.object filled) = .ok after ∧ after.quota = none ∧
      after.esgEnabled = some false ∧ after.isolation = .cluster ∧
      "isolation" ∉ (applyDefaults labelledTenant).2 := by
  have ordered : labelledTenant.isOrdered := by decide
  have found : TenantSpec.decode (.object labelledSpec) = .ok labelledWanted := rfl
  obtain ⟨filled, after, held, decodes, -, -, mode, -, -, reporting, sized, -, -, -, -, untold⟩ :=
    decode_applyDefaults ordered rfl found
  exact ⟨ordered, rfl, found, filled, after, held, decodes, sized rfl, reporting, mode, untold⟩

end Tenancy.Admission
