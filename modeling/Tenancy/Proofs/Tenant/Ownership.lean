import Mathlib.Data.String.Basic
import Mathlib.Logic.Function.Basic
import Tenancy.Proofs.Json.Members
import Tenancy.Tenant.Resources

/-! # What belongs to which tenant

The objects of a tenant are made from its identity alone: its names and what the cluster knows it by. Every
name in them is the tenant's own between fixed texts, so that it can be told from the name which tenant is
meant, whatever the names of tenants look like.
-/

namespace Tenancy

variable {a b t : Tenant}

/-! ## Names -/

theorem namespaceOf_injective : Function.Injective namespaceOf := fun a b same => by
  rw [namespaceOf, namespaceOf, String.ext_iff, String.toList_append, String.toList_append] at same
  exact String.ext (List.append_cancel_left same)

theorem adminGroupOf_injective : Function.Injective adminGroupOf := fun a b same => by
  have joined (name : String) : (adminGroupOf name).toList = (namespaceOf name).toList ++ "-admins".toList :=
    String.toList_append
  rw [String.ext_iff, joined, joined] at same
  exact namespaceOf_injective (String.ext (List.append_cancel_right same))

/-! ## Parts of an object -/

namespace Resource

def label? (key : String) (r : Resource) : Option String :=
  (Json.lookup "labels" r.metadata.members).bind (Json.textAt? key)

def owners (r : Resource) : List Json :=
  ((Json.lookup "ownerReferences" r.metadata.members).bind Json.items?).getD []

/-- The groups to which a binding grants its role. -/
def groups (r : Resource) : List String :=
  (((Json.lookup "subjects" r.body).bind Json.items?).getD []).filterMap fun subject =>
    if subject.textAt? "kind" = some "Group" then subject.textAt? "name" else none

end Resource

theorem textAt?_textTable {members : List (String × String)} {key value : String}
    (distinct : (members.map (·.1)).Nodup) (found : (key, value) ∈ members) :
    (textTable members).textAt? key = some value := by
  have names : ((members.map fun m => (m.1, Json.string m.2)).map Prod.fst).Nodup := by
    simpa only [List.map_map, Function.comp_def] using distinct
  rw [Json.textAt?, textTable, Json.get?, Json.lookup_ofMembers_of_nodup names,
    Json.lookup_of_mem names (List.mem_map_of_mem found)]
  rfl

/-! ## Objects of a tenant -/

theorem namespaceResource_name : t.namespaceResource.metadata.name? = some t.namespaceName := by
  simp [Tenant.namespaceResource, Metadata.name?, Metadata.text?, Json.lookup, Json.text?]

theorem adminBinding_namespace : t.adminBinding.metadata.namespace? = some t.namespaceName := by
  simp [Tenant.adminBinding, Metadata.namespace?, Metadata.text?, Json.lookup, Json.text?]

theorem namespaceResource_label : t.namespaceResource.label? tenantLabel = some t.name := by
  have labels : Json.lookup "labels" t.namespaceResource.metadata.members = some (namespaceLabels t.name) := rfl
  have distinct : [tenantLabel, managedByLabel, "pod-security.kubernetes.io/enforce",
    "pod-security.kubernetes.io/enforce-version"].Nodup := by decide
  rw [Resource.label?, labels]
  exact textAt?_textTable distinct (List.mem_cons_self ..)

theorem adminBinding_label : t.adminBinding.label? tenantLabel = some t.name := by
  have labels : Json.lookup "labels" t.adminBinding.metadata.members =
    some (textTable [(tenantLabel, t.name), (managedByLabel, managedByValue)]) := rfl
  have distinct : [tenantLabel, managedByLabel].Nodup := by decide
  rw [Resource.label?, labels]
  exact textAt?_textTable distinct (List.mem_cons_self ..)

theorem adminBinding_groups : t.adminBinding.groups = [t.adminGroup] := rfl

/-- The namespace is owned by the tenant, once that is stored, and by nothing else. -/
theorem namespaceResource_owners : t.namespaceResource.owners = t.ownerReference?.toList := by
  cases owner : t.ownerReference? with
  | none => simp [Resource.owners, Tenant.namespaceResource, owner, Json.lookup]
  | some document => simp [Resource.owners, Tenant.namespaceResource, owner, Json.lookup, Json.items?]

/-- An object controlled by a tenant has one owner, which is the controller and tells the tenant by its
name and identity; without one of the two there is no owner. -/
theorem owners_eq (t : Tenant) :
    (∀ name uid, t.metadata.name? = some name → t.metadata.uid? = some uid →
      ∃ owner, t.namespaceResource.owners = [owner] ∧ owner.boolAt? "controller" = some true ∧
        owner.textAt? "name" = some name ∧ owner.textAt? "uid" = some uid) ∧
    (t.metadata.name? = none ∨ t.metadata.uid? = none → t.namespaceResource.owners = []) := by
  rw [namespaceResource_owners, Tenant.ownerReference?]
  constructor
  · intro name uid named known
    rw [named, known]
    exact ⟨_, rfl, rfl, rfl, rfl⟩
  · rintro (unnamed | unknown)
    · rw [unnamed]
      rfl
    · rw [unknown]
      cases t.metadata.name? <;> rfl

/-- Tenants of one identity own the same objects. -/
theorem owned_congr (name : a.metadata.name? = b.metadata.name?)
    (stem : a.metadata.text? "generateName" = b.metadata.text? "generateName")
    (uid : a.metadata.uid? = b.metadata.uid?) :
    a.namespaceResource = b.namespaceResource ∧ a.adminBinding = b.adminBinding := by
  have names : a.name = b.name := by rw [Tenant.name, Tenant.name, Metadata.anyName, Metadata.anyName, name, stem]
  have owners : a.ownerReference? = b.ownerReference? := by
    rw [Tenant.ownerReference?, Tenant.ownerReference?, name, uid]
  constructor
  · rw [Tenant.namespaceResource, Tenant.namespaceResource, Tenant.namespaceName, Tenant.namespaceName, names, owners]
  · rw [Tenant.adminBinding, Tenant.adminBinding, Tenant.namespaceName, Tenant.namespaceName, Tenant.adminGroup,
      Tenant.adminGroup, names]

/-- What belongs to a tenant depends on its identity alone and is nobody else's. Two tenants with the same
name, stem of a name and identity own the same objects. The binding of a tenant is in its namespace, both
bear the tenant's name, and the namespace has the tenant as its one owner, which controls it, if name and
identity are there, and no owner otherwise. Of two tenants whose names differ, the namespaces, the groups of
administrators and the labels differ; the binding of the one is not in the namespace of the other, and
grants nothing to the administrators of the other. -/
theorem ownership_isolated :
    (∀ a b : Tenant, a.metadata.name? = b.metadata.name? →
      a.metadata.text? "generateName" = b.metadata.text? "generateName" → a.metadata.uid? = b.metadata.uid? →
      a.namespaceResource = b.namespaceResource ∧ a.adminBinding = b.adminBinding) ∧
    (∀ t : Tenant,
      (t.namespaceResource.metadata.name? = some t.namespaceName ∧
        t.adminBinding.metadata.namespace? = some t.namespaceName) ∧
      (t.namespaceResource.label? tenantLabel = some t.name ∧
        t.adminBinding.label? tenantLabel = some t.name) ∧
      t.adminBinding.groups = [t.adminGroup] ∧
      (∀ name uid, t.metadata.name? = some name → t.metadata.uid? = some uid →
        ∃ owner, t.namespaceResource.owners = [owner] ∧ owner.boolAt? "controller" = some true ∧
          owner.textAt? "name" = some name ∧ owner.textAt? "uid" = some uid) ∧
      (t.metadata.name? = none ∨ t.metadata.uid? = none → t.namespaceResource.owners = [])) ∧
    ∀ a b : Tenant, a.name ≠ b.name →
      a.namespaceName ≠ b.namespaceName ∧ a.adminGroup ≠ b.adminGroup ∧
      a.namespaceResource.label? tenantLabel ≠ b.namespaceResource.label? tenantLabel ∧
      a.adminBinding.label? tenantLabel ≠ b.adminBinding.label? tenantLabel ∧
      a.adminBinding.metadata.namespace? ≠ b.namespaceResource.metadata.name? ∧
      a.adminGroup ∉ b.adminBinding.groups := by
  refine ⟨fun a b => owned_congr, fun t => ?_, fun a b apart => ?_⟩
  · exact ⟨⟨namespaceResource_name, adminBinding_namespace⟩, ⟨namespaceResource_label, adminBinding_label⟩,
      adminBinding_groups, owners_eq t⟩
  · have namespaces : a.namespaceName ≠ b.namespaceName := namespaceOf_injective.ne apart
    have groups : a.adminGroup ≠ b.adminGroup := adminGroupOf_injective.ne apart
    have labels : some a.name ≠ some b.name := (Option.some_injective _).ne apart
    refine ⟨namespaces, groups, ?_, ?_, ?_, ?_⟩
    · rwa [namespaceResource_label, namespaceResource_label]
    · rwa [adminBinding_label, adminBinding_label]
    · rw [adminBinding_namespace, namespaceResource_name]
      exact (Option.some_injective _).ne namespaces
    · rw [adminBinding_groups]
      exact fun among => groups (List.mem_singleton.mp among)

def knownTenant : Tenant :=
  ⟨⟨[("generateName", .string "acme-"), ("name", .string "acme"), ("uid", .string "1234-abcd")]⟩,
    ⟨"Acme", none, none, .namespaced, none, none⟩, none⟩

/-- The same tenant later on, with another specification, a status and a mark that it is to be deleted. -/
def changedTenant : Tenant :=
  ⟨⟨("deletionTimestamp", .string "2024-01-01T00:00:00Z") :: knownTenant.metadata.members⟩,
    ⟨"Acme Corp", some "large", some "acme-ops", .cluster, some true, some ["soc2"]⟩,
    some (.withNamespace "tenant-globex")⟩

/-- A tenant yet to be named, after what the administrators of the other one are called. -/
def unnamedTenant : Tenant :=
  ⟨⟨[("generateName", .string "tenant-acme-admins")]⟩, knownTenant.spec, none⟩

theorem ownership_isolated_acme :
    (knownTenant.namespaceResource = changedTenant.namespaceResource ∧
      knownTenant.adminBinding = changedTenant.adminBinding) ∧
    (∃ owner, knownTenant.namespaceResource.owners = [owner] ∧ owner.textAt? "uid" = some "1234-abcd") ∧
    unnamedTenant.namespaceResource.owners = [] ∧
    unnamedTenant.name = "tenant-acme-admins" ∧ knownTenant.adminGroup = "tenant-acme-admins" ∧
    unnamedTenant.adminBinding.metadata.namespace? ≠ knownTenant.namespaceResource.metadata.name? ∧
    knownTenant.adminGroup ∉ unnamedTenant.adminBinding.groups := by
  obtain ⟨same, owned, apart⟩ := ownership_isolated
  obtain ⟨-, -, -, owners, -⟩ := owned knownTenant
  obtain ⟨-, -, -, -, ownerless⟩ := owned unnamedTenant
  obtain ⟨owner, only, -, -, uid⟩ := owners "acme" "1234-abcd" rfl rfl
  have names : unnamedTenant.name ≠ knownTenant.name := by decide
  obtain ⟨-, -, -, -, elsewhere, -⟩ := apart unnamedTenant knownTenant names
  obtain ⟨-, -, -, -, -, refused⟩ := apart knownTenant unnamedTenant names.symm
  exact ⟨same _ _ rfl rfl rfl, ⟨owner, only, uid⟩, ownerless (.inl rfl), by decide, by decide, elsewhere, refused⟩

end Tenancy
