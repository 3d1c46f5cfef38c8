import Tenancy.Proofs.Tenant.Decoding

/-! # Writing what was decoded

A specification that was decoded from an object and is written again is what the object said in the fields
of a specification: the nulls are gone, and so is whatever no field describes. Nothing is filled in and
nothing is changed, so that writing once more gives the same.
-/

namespace Tenancy

open Json (lookup Increasing)

variable {members : List (String × Json)} {values : List (String × Option Json)} {spec : TenantSpec}

/-- What a record says of an object is in order already. -/
private theorem sorted_of_said (within : ∀ m ∈ members, m.2.isOrdered)
    (said : ∀ v ∈ values, v.2 = (lookup v.1 members).filter (· ≠ .null)) :
    ∀ m ∈ Json.present values, m.2.sorted = m.2 := by
  intro m among
  obtain ⟨v, given, here⟩ := List.mem_filterMap.mp among
  obtain ⟨value, found, rfl⟩ := Option.map_eq_some_iff.mp here
  rw [said v given] at found
  have held := Json.mem_of_lookup (Option.filter_eq_some_iff.mp found).1
  exact Json.sorted_eq_self value (within _ held)

/-- A record of what an object says for some names is, in order of name, the object without its other members
and its nulls. -/
theorem Json.sorted_record (ordered : (Json.object members).isOrdered)
    (distinct : (values.map Prod.fst).Nodup)
    (said : ∀ v ∈ values, v.2 = (lookup v.1 members).filter (· ≠ .null)) :
    (Json.record values).sorted =
      .object (members.filter fun m => m.1 ∈ values.map Prod.fst ∧ m.2 ≠ .null) := by
  obtain ⟨increasing, within⟩ := Json.isOrdered_object.mp ordered
  have same : ((Json.present values).map fun m => (m.1, m.2.sorted)) = Json.present values := by
    rw [List.map_congr_left fun m among => by rw [sorted_of_said within said m among], List.map_id']
  rw [Json.record_eq_object, Json.sorted_object, same]
  congr 1
  -- both are in order, so that it is enough to look for every name
  apply (Json.increasing_ofMembers _).ext (increasing.sublist List.filter_sublist)
  intro name
  have apart : ((Json.present values).map Prod.fst).Nodup := Json.names_present_sublist.nodup distinct
  rw [Json.lookup_ofMembers_of_nodup apart, increasing.lookup_filter]
  by_cases named : name ∈ values.map Prod.fst
  · obtain ⟨v, given, rfl⟩ := List.mem_map.mp named
    rw [Json.lookup_present distinct given, said v given]
    simp only [named, true_and]
  · rw [Json.lookup_present_eq_none named, eq_comm, Option.filter_eq_none_iff]
    exact fun value _ among => named (of_decide_eq_true among).1

namespace TenantSpec

/-- The fields that a specification writes, those that are absent included. -/
def written (spec : TenantSpec) : List (String × Option Json) := [
  ("displayName", some (.string spec.displayName)),
  ("quota", spec.quota.map .string),
  ("oidcGroup", spec.oidcGroup.map .string),
  ("isolation", some (.string spec.isolation.name)),
  ("esgEnabled", spec.esgEnabled.map .bool),
  ("complianceFrameworks", spec.complianceFrameworks.map fun texts => .array (texts.map .string))]

theorem nodup_written : (spec.written.map Prod.fst).Nodup :=
  (by decide : ["displayName", "quota", "oidcGroup", "isolation", "esgEnabled",
    "complianceFrameworks"].Nodup)

/-- An object with the fields that a specification writes holds the specification. -/
theorem heldBy_of_written (found : ∀ v ∈ spec.written, lookup v.1 members = v.2) : spec.HeldBy members := by
  simp only [written, List.forall_mem_cons] at found
  obtain ⟨named, sized, grouped, isolated, reporting, complying, -⟩ := found
  refine ⟨named, ?_, ?_, ⟨_, isolated, .text⟩, ?_, ?_⟩
  · rw [sized]; exact Json.spells_map _
  · rw [grouped]; exact Json.spells_map _
  · rw [reporting]; exact Json.spells_map _
  · rw [complying]; exact Json.spells_map _

/-- A specification writes what is said in the object that holds it, if that says the mode by its name. -/
theorem HeldBy.written_eq (held : spec.HeldBy members)
    (isolated : ∃ name, lookup "isolation" members = some (.string name)) :
    ∀ v ∈ spec.written, v.2 = (lookup v.1 members).filter (· ≠ .null) := by
  have mode : lookup "isolation" members = some (.string spec.isolation.name) := by
    obtain ⟨name, text⟩ := isolated
    exact held.isolation_of_text fun value found => ⟨name, Option.some.inj (found.symm.trans text)⟩
  simp only [written, List.forall_mem_cons]
  refine ⟨?_, held.quota.map_eq_filter nofun, held.oidcGroup.map_eq_filter nofun, ?_,
    held.esgEnabled.map_eq_filter nofun, held.complianceFrameworks.map_eq_filter nofun,
    List.forall_mem_nil _⟩
  · rw [held.displayName]; rfl
  · rw [mode]; rfl

/-- The object without its nulls and its other members holds the specification too. -/
theorem HeldBy.filter (held : spec.HeldBy members) (increasing : Increasing members)
    (isolated : ∃ name, lookup "isolation" members = some (.string name)) :
    spec.HeldBy (members.filter fun m => m.1 ∈ spec.written.map Prod.fst ∧ m.2 ≠ .null) := by
  apply heldBy_of_written
  intro v given
  have described : v.1 ∈ spec.written.map Prod.fst := List.mem_map_of_mem given
  rw [increasing.lookup_filter, held.written_eq isolated v given]
  simp only [described, true_and]

/-- The specification that was decoded from an object is written as the object without its nulls and without
the members that no field describes. It is decoded from there again, and so written again as it was. -/
theorem sorted_toJson_of_decode (ordered : (Json.object members).isOrdered)
    (found : decode (.object members) = .ok spec)
    (isolated : ∃ name, lookup "isolation" members = some (.string name)) :
    spec.toJson.sorted = .object (members.filter fun m =>
      m.1 ∈ ["displayName", "quota", "oidcGroup", "isolation", "esgEnabled", "complianceFrameworks"] ∧
        m.2 ≠ .null) ∧
    decode spec.toJson.sorted = .ok spec ∧
    (∀ again, decode spec.toJson.sorted = .ok again → again.toJson = spec.toJson) := by
  have held : spec.HeldBy members := (decode_object_iff ordered).mp found
  have normalized := Json.sorted_record ordered nodup_written (held.written_eq isolated)
  have orderedAgain := Json.isOrdered_sorted (Json.record spec.written)
  have back : decode spec.toJson.sorted = .ok spec := by
    change decode (Json.record spec.written).sorted = .ok spec
    rw [normalized] at orderedAgain ⊢
    exact (decode_object_iff orderedAgain).mpr (held.filter (Json.isOrdered_object.mp ordered).1 isolated)
  refine ⟨normalized, back, fun again decoded => ?_⟩
  rw [back] at decoded
  rw [Except.ok.inj decoded]

/-- An object that leaves out the quota, has null for the group and names a framework twice. -/
def looseSpec : List (String × Json) := [
  ("complianceFrameworks", .array [.string "SOC2", .string "GDPR", .string "SOC2"]),
  ("displayName", .string ""), ("esgEnabled", .bool false), ("isolation", .string "network"),
  ("oidcGroup", .null), ("owner", .object [("displayName", .null)])]

/-- The specification that it holds. -/
def looseWanted : TenantSpec where
  displayName := ""
  quota := none
  oidcGroup := none
  isolation := .network
  esgEnabled := some false
  complianceFrameworks := some ["SOC2", "GDPR", "SOC2"]

theorem sorted_toJson_looseWanted : (Json.object looseSpec).isOrdered ∧
    decode (.object looseSpec) = .ok looseWanted ∧
    (∃ name, lookup "isolation" looseSpec = some (.string name)) ∧
    looseWanted.toJson.sorted = .object [
      ("complianceFrameworks", .array [.string "SOC2", .string "GDPR", .string "SOC2"]),
      ("displayName", .string ""), ("esgEnabled", .bool false), ("isolation", .string "network")] ∧
    decode looseWanted.toJson.sorted = .ok looseWanted := by
  have ordered : (Json.object looseSpec).isOrdered := by decide
  have found : decode (.object looseSpec) = .ok looseWanted := rfl
  have isolated : ∃ name, lookup "isolation" looseSpec = some (.string name) := ⟨_, rfl⟩
  obtain ⟨normalized, back, -⟩ := sorted_toJson_of_decode ordered found isolated
  exact ⟨ordered, found, isolated, normalized, back⟩

end TenantSpec
end Tenancy
