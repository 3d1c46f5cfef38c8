import Tenancy.Proofs.Tenant.Normalization
import Tenancy.Proofs.Text.Order

/-! # Compliance frameworks as a set

A specification lists its compliance frameworks in any order and may repeat them, and on the wire the list
stays as it is. Where it is asked which frameworks apply, the answer is the set of what is listed, in the one
form that it has: in the order of the bytes, each framework once. So two answers are equal exactly if the same
frameworks are listed.
-/

namespace Tenancy.TenantSpec

open Json (lookup Spells)

variable {a b spec : TenantSpec} {framework : String}

/-- The specification has a list of frameworks, and this is one of them. -/
def Lists (spec : TenantSpec) (framework : String) : Prop :=
  ∃ frameworks, spec.complianceFrameworks = some frameworks ∧ framework ∈ frameworks

/-! ## The set -/

/-- The frameworks of the set are those of the list, of which an absent one has none. -/
theorem mem_compliance : framework ∈ spec.compliance ↔ spec.Lists framework := by
  have entered (frameworks : List String) :
      ((frameworks.map fun c => (c, Json.null)).map Prod.fst) = frameworks := by
    rw [List.map_map]
    exact List.map_id _
  have kept : framework ∈ spec.compliance ↔ framework ∈ spec.complianceFrameworks.getD [] := by
    rw [← entered (spec.complianceFrameworks.getD [])]
    exact Json.mem_names_ofMembers
  rw [kept, Lists]
  cases spec.complianceFrameworks with
  | none => simp
  | some frameworks => simp

theorem compliance_increasing : spec.compliance.Pairwise (· < ·) :=
  List.pairwise_map.mpr (Json.increasing_ofMembers _)

-- In UTF-16 the last two would change places.
example : TenantSpec.compliance { looseWanted with complianceFrameworks := some ["😀", "～", "é", "z", "😀"] } =
    ["z", "é", "～", "😀"] := by decide

/-- A set in increasing order is told by its elements. -/
theorem compliance_eq_iff : a.compliance = b.compliance ↔
    ∀ framework, a.Lists framework ↔ b.Lists framework := by
  simp only [← mem_compliance]
  constructor
  · intro same framework
    rw [same]
  · intro same
    exact compliance_increasing.eq_of_mem_iff compliance_increasing same

/-! ## The list -/

/-- On the wire the frameworks are written as they were given. -/
theorem get?_toJson_complianceFrameworks : spec.toJson.get? "complianceFrameworks" =
    spec.complianceFrameworks.map fun frameworks => .array (frameworks.map .string) := by
  have given : ("complianceFrameworks", _) ∈ spec.written := List.mem_of_getLast? rfl
  exact Json.lookup_present nodup_written given

/-- The compliance of a specification is the set of its list: the frameworks listed and no others, each once
and in the order of their bytes, and none without a list. Specifications have the same set exactly if they list
the same frameworks. The list itself is written as it is, read back from the text as it was, and decoded from
an object as it stands there. -/
theorem compliance_canonical :
    (∀ spec : TenantSpec,
      (∀ framework, framework ∈ spec.compliance ↔ spec.Lists framework) ∧ spec.compliance.Nodup ∧
      spec.compliance.Pairwise (fun s t => Text.Utf8.encode s < Text.Utf8.encode t) ∧
      (spec.complianceFrameworks = none → spec.compliance = [])) ∧
    (∀ a b : TenantSpec, a.compliance = b.compliance ↔ ∀ framework, a.Lists framework ↔ b.Lists framework) ∧
    (∀ spec : TenantSpec,
      spec.toJson.get? "complianceFrameworks" =
        spec.complianceFrameworks.map (fun frameworks => .array (frameworks.map .string)) ∧
      (ofText spec.toJson.encode).map complianceFrameworks = .ok spec.complianceFrameworks) ∧
    (∀ (members : List (String × Json)) (spec : TenantSpec), (Json.object members).isOrdered →
      decode (.object members) = .ok spec →
        Spells (fun frameworks => .array (frameworks.map .string)) (lookup "complianceFrameworks" members)
          spec.complianceFrameworks) := by
  refine ⟨fun spec => ⟨fun _ => mem_compliance, ?_, ?_, ?_⟩, fun a b => compliance_eq_iff, ?_, ?_⟩
  · exact compliance_increasing.imp fun less => ne_of_lt less
  · exact compliance_increasing.imp fun less => Text.Utf8.encode_lt_encode less
  · intro absent
    rw [compliance, absent]
    rfl
  · intro spec
    rw [ofText_encode]
    exact ⟨get?_toJson_complianceFrameworks, rfl⟩
  · intro members spec ordered found
    exact ((decode_object_iff ordered).mp found).complianceFrameworks

/-- The frameworks of the object that names one of them twice, each once and the other way round. -/
def rearrangedWanted : TenantSpec := { looseWanted with complianceFrameworks := some ["GDPR", "SOC2"] }

theorem compliance_canonical_rearranged :
    (looseWanted.compliance = rearrangedWanted.compliance ∧
      looseWanted.complianceFrameworks ≠ rearrangedWanted.complianceFrameworks) ∧
    (bareSpec.complianceFrameworks = none ∧ bareSpec.compliance = []) ∧
    (Json.object looseSpec).isOrdered ∧ decode (.object looseSpec) = .ok looseWanted ∧
    Spells (fun frameworks => .array (frameworks.map .string)) (lookup "complianceFrameworks" looseSpec)
      (some ["SOC2", "GDPR", "SOC2"]) := by
  obtain ⟨sets, same, -, read⟩ := compliance_canonical
  obtain ⟨-, -, -, empty⟩ := sets bareSpec
  have listed (framework : String) : looseWanted.Lists framework ↔ rearrangedWanted.Lists framework := by
    grind [Lists, looseWanted, rearrangedWanted]
  have ordered : (Json.object looseSpec).isOrdered := by decide
  have found : decode (.object looseSpec) = .ok looseWanted := rfl
  exact ⟨⟨(same _ _).mpr listed, by decide⟩, ⟨rfl, empty rfl⟩, ordered, found, read _ _ ordered found⟩

end Tenancy.TenantSpec
