import Tenancy.Proofs.Json.Declared
import Tenancy.Proofs.Json.Decoding
import Tenancy.Proofs.Tenant.Wire

/-! # Specifications in documents

Which specification an object holds is told by six of its members. A field that may be absent may also be
null, which is the same; the mode may be named by a text, or by an object with the name alone. Whatever else
the object has does not count.
-/

namespace Tenancy

open Json (lookup Spells)

variable {depth : Nat} {members : List (String × Json)} {value normal : Json}
  {member? : Option Json} {here : List (String × Json)} {name : String}

namespace IsolationMode

/-- The ways to name a mode: by its name, or by an object whose only member has the name and is null. -/
inductive NamedBy (mode : IsolationMode) : Json → Prop
  | text : NamedBy mode (.string mode.name)
  | tag : NamedBy mode (.object [(mode.name, .null)])

theorem mem_names_iff {s : String} : s ∈ names ↔ ∃ mode : IsolationMode, s = mode.name := by
  constructor
  · intro known
    obtain ⟨mode, -, rfl⟩ := List.mem_map.mp known
    exact ⟨mode, rfl⟩
  · rintro ⟨mode, rfl⟩
    cases mode <;> decide

/-- A value decodes as a mode exactly when it names one, and then to the plain name. -/
theorem decodeWithin_names (deep : 1 < depth) :
    Json.decodeWithin value depth (.choice names) = some normal ↔
      ∃ mode : IsolationMode, mode.NamedBy value ∧ normal = .string mode.name := by
  constructor
  · intro decoded
    cases value with
    | string s =>
      rw [Json.decodeWithin] at decoded
      split_ifs at decoded with known
      cases decoded
      obtain ⟨mode, rfl⟩ := mem_names_iff.mp known
      exact ⟨mode, .text, rfl⟩
    | object members =>
      rw [Json.decodeWithin, if_neg (Nat.not_le_of_lt deep), Json.toOption_eq_some,
        Json.decodeChoice.eq_def] at decoded
      split at decoded
      · split_ifs at decoded with known null
        cases decoded
        obtain ⟨mode, rfl⟩ := mem_names_iff.mp known
        rw [Json.eq_null_of_isNull null]
        exact ⟨mode, .tag, rfl⟩
      · cases decoded
    | _ => cases decoded
  · rintro ⟨mode, named, rfl⟩
    have known : mode.name ∈ names := mem_names_iff.mpr ⟨mode, rfl⟩
    cases named with
    | text => exact if_pos known
    | tag =>
      rw [Json.decodeWithin, if_neg (Nat.not_le_of_lt deep), Json.decodeChoice, if_pos known]
      rfl

/-- The field of the mode contributes the name of the mode, however it is written. -/
theorem draw_names (deep : 1 < depth) :
    (Json.Field.required name (.choice names)).draw depth member? = some here ↔
      ∃ mode : IsolationMode, (∃ value, member? = some value ∧ mode.NamedBy value) ∧
        here = Json.present [(name, some (.string mode.name))] := by
  have refuses (value : Json) : ¬((Json.Field.required name (.choice names)).takesNull ∧ value.isNull) :=
    fun both => nomatch both.1
  constructor
  · intro drawn
    cases member? with
    | none => cases drawn
    | some value =>
      simp only [Json.Field.draw, Json.Field.take, if_neg (refuses value), Option.bind_eq_bind,
        Option.bind_eq_some_iff] at drawn
      obtain ⟨normal, decoded, -, -, contributed⟩ := drawn
      obtain ⟨mode, named, rfl⟩ := (decodeWithin_names deep).mp decoded
      exact ⟨mode, ⟨value, rfl, named⟩, (Option.some.inj contributed).symm⟩
  · rintro ⟨mode, ⟨value, rfl, named⟩, rfl⟩
    have decoded : Json.decodeWithin value depth (Json.Field.required name (.choice names)).form = _ :=
      (decodeWithin_names deep).mpr ⟨mode, named, rfl⟩
    simp only [Json.Field.draw, Json.Field.take, if_neg (refuses value), decoded]
    rfl

end IsolationMode

namespace TenantSpec

/-- The specification that a document holds. -/
def decode (document : Json) : Except Json.Mismatch TenantSpec := (form.decode document).map ofNormal

def fields : Json.Fields := .ofList [
  .required "displayName" .text,
  .optional "quota" .text,
  .optional "oidcGroup" .text,
  .required "isolation" (.choice IsolationMode.names),
  .optional "esgEnabled" .boolean,
  .optional "complianceFrameworks" (.list .text)]

/-- The members of an object say what is wanted of a tenant. -/
structure HeldBy (spec : TenantSpec) (members : List (String × Json)) : Prop where
  displayName : lookup "displayName" members = some (.string spec.displayName)
  quota : Spells .string (lookup "quota" members) spec.quota
  oidcGroup : Spells .string (lookup "oidcGroup" members) spec.oidcGroup
  isolation : ∃ value, lookup "isolation" members = some value ∧ spec.isolation.NamedBy value
  esgEnabled : Spells .bool (lookup "esgEnabled" members) spec.esgEnabled
  complianceFrameworks : Spells (fun texts => .array (texts.map .string))
    (lookup "complianceFrameworks" members) spec.complianceFrameworks

/-- A mode that is named by a text is named by its own name. -/
theorem HeldBy.isolation_of_text {spec : TenantSpec} (held : spec.HeldBy members)
    (text : ∀ value, lookup "isolation" members = some value → ∃ name, value = .string name) :
    lookup "isolation" members = some (.string spec.isolation.name) := by
  obtain ⟨value, found, named⟩ := held.isolation
  obtain ⟨name, rfl⟩ := text value found
  cases named
  exact found

/-- The fields draw from an object the specification that its members say. -/
theorem drawn_iff (deep : 1 < depth) : fields.drawn depth members = some here ↔
    ∃ spec : TenantSpec, spec.HeldBy members ∧ .object here = spec.toJson := by
  constructor
  · intro drawn
    -- what is drawn is taken apart in the order of the fields
    obtain ⟨_, first, _, afterName, rfl⟩ := Json.drawn_cons.mp drawn
    obtain ⟨_, second, _, afterQuota, rfl⟩ := Json.drawn_cons.mp afterName
    obtain ⟨_, third, _, afterGroup, rfl⟩ := Json.drawn_cons.mp afterQuota
    obtain ⟨_, fourth, _, afterMode, rfl⟩ := Json.drawn_cons.mp afterGroup
    obtain ⟨_, fifth, _, afterEsg, rfl⟩ := Json.drawn_cons.mp afterMode
    obtain ⟨_, sixth, _, afterAll, rfl⟩ := Json.drawn_cons.mp afterEsg
    obtain ⟨displayName, displayed, rfl⟩ := (Json.draw_required .text).mp first
    obtain ⟨quota, sized, rfl⟩ := (Json.draw_optional .text).mp second
    obtain ⟨oidcGroup, grouped, rfl⟩ := (Json.draw_optional .text).mp third
    obtain ⟨isolation, isolated, rfl⟩ := (IsolationMode.draw_names deep).mp fourth
    obtain ⟨esgEnabled, reporting, rfl⟩ := (Json.draw_optional .boolean).mp fifth
    obtain ⟨complianceFrameworks, complying, rfl⟩ := (Json.draw_optional (.texts deep)).mp sixth
    cases afterAll
    refine ⟨⟨displayName, quota, oidcGroup, isolation, esgEnabled, complianceFrameworks⟩,
      ⟨displayed, sized, grouped, isolated, reporting, complying⟩, ?_⟩
    simp only [← Json.present_append, List.append_nil]
    rfl
  · rintro ⟨spec, held, same⟩
    rw [toJson, Json.record_eq_object] at same
    rw [Json.object.inj same]
    refine Json.drawn_present ((Json.draw_required .text).mpr ⟨_, held.displayName, rfl⟩) ?_
    refine Json.drawn_present ((Json.draw_optional .text).mpr ⟨_, held.quota, rfl⟩) ?_
    refine Json.drawn_present ((Json.draw_optional .text).mpr ⟨_, held.oidcGroup, rfl⟩) ?_
    refine Json.drawn_present ((IsolationMode.draw_names deep).mpr ⟨_, held.isolation, rfl⟩) ?_
    refine Json.drawn_present ((Json.draw_optional .boolean).mpr ⟨_, held.esgEnabled, rfl⟩) ?_
    exact Json.drawn_present ((Json.draw_optional (.texts deep)).mpr ⟨_, held.complianceFrameworks, rfl⟩) rfl

/-- The normal form of an object is the one of the specification that its members say. -/
theorem decode_form_iff (ordered : (Json.object members).isOrdered) :
    form.decode (.object members) = .ok normal ↔
      ∃ spec : TenantSpec, spec.HeldBy members ∧ normal = spec.toJson := by
  have distinct : (members.map Prod.fst).Nodup := (Json.isOrdered_object.mp ordered).1.nodup
  have decoded : (form.decode (.object members)).toOption =
      (fields.drawn (Json.depthLimit - 1) members).map .object := by
    rw [Json.Schema.decode, ← Json.decodes _ ordered form Json.depthLimit (by decide)]
    exact Json.decodeWithin_declared distinct (by decide) (by decide)
  rw [← Json.toOption_eq_some, decoded, Option.map_eq_some_iff]
  constructor
  · rintro ⟨here, drawn, rfl⟩
    exact (drawn_iff (by decide)).mp drawn
  · rintro ⟨spec, held, rfl⟩
    have here : .object _ = spec.toJson := (Json.record_eq_object ..).symm
    exact ⟨_, (drawn_iff (by decide)).mpr ⟨spec, held, here⟩, here⟩

/-- An object holds the specification that its members say, and no other. -/
theorem decode_object_iff {spec : TenantSpec} (ordered : (Json.object members).isOrdered) :
    decode (.object members) = .ok spec ↔ spec.HeldBy members := by
  rw [decode]
  constructor
  · intro found
    obtain ⟨normal, read, rfl⟩ := map_eq_ok.mp found
    obtain ⟨spec, held, rfl⟩ := (decode_form_iff ordered).mp read
    rw [ofNormal_toJson]
    exact held
  · intro held
    rw [(decode_form_iff ordered).mpr ⟨spec, held, rfl⟩, Except.map, ofNormal_toJson]

/-- A specification is read from the text of an object exactly if the object holds it. -/
theorem ofText_object_iff {spec : TenantSpec} (integral : (Json.object members).isIntegral)
    (ordered : (Json.object members).isOrdered) :
    ofText (Json.object members).encode = .ok spec ↔ decode (.object members) = .ok spec := by
  have same : (form.read (Json.object members).encode).toOption =
      (form.decode (.object members)).toOption :=
    Json.Schema.read_encode_eq_decode (by decide) integral ordered (Nat.zero_le _)
  have read : ofText (Json.object members).encode = .ok spec ↔ _ := map_eq_ok
  have decoded : decode (.object members) = .ok spec ↔ _ := map_eq_ok
  rw [read, decoded]
  simp only [← Json.toOption_eq_some, same]

end TenantSpec
end Tenancy
