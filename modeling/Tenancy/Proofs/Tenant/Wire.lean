import Tenancy.Proofs.Json.Normal
import Tenancy.Tenant.Basic

/-! # The wire form of a tenant loses nothing

The specification and the status of a tenant are read back from their texts as they were, whatever
characters their strings have. A field that is absent is left out of the text, and so stays apart from one
that is false or empty. Of a status this is said without the score, which is a double: its digits are no
matter of the form.
-/

namespace Tenancy

open Json (Normal)
open Json.Fields (Written)

/-! ## Specifications -/

namespace TenantSpec

def ofText (text : List UInt8) : Except Json.ReadError TenantSpec := (form.read text).map ofNormal

/-- A written spec is read back in the very form it was written in. -/
theorem read_toJson (spec : TenantSpec) : form.read spec.toJson.encode = .ok spec.toJson := by
  have known : spec.isolation.name ∈ IsolationMode.names := by
    cases spec.isolation <;> decide
  refine Json.Schema.read_record ?_ (by decide) (Nat.zero_le _)
  apply Written.given (Normal.text _)
  apply Written.optional Normal.text
  apply Written.optional Normal.text
  apply Written.given (Normal.choice known)
  apply Written.optional Normal.boolean
  apply Written.optional (Normal.texts (by decide))
  exact Written.nil

/-- From that form the same spec is made. -/
theorem ofNormal_toJson (spec : TenantSpec) : ofNormal spec.toJson = spec := by
  have displayed : (some (Json.string spec.displayName)).bind Json.text? = some spec.displayName := rfl
  have isolated : ((some (Json.string spec.isolation.name)).bind Json.text?).bind IsolationMode.ofName? =
      some spec.isolation := IsolationMode.ofName?_name _
  simp only [ofNormal, toJson, Json.textAt?, Json.boolAt?, Json.record_eq_object, Json.get?,
    Json.lookup_present_cons, Json.lookup_present_nil, String.reduceEq, if_true, if_false, Option.or_none,
    Option.some_or, displayed, isolated, Option.getD_some, Json.bind_text?_map, Json.bind_bool?_map,
    Json.bind_items?_map]

/-- So a spec survives its own text. -/
theorem ofText_encode (spec : TenantSpec) : ofText spec.toJson.encode = .ok spec := by
  rw [ofText, read_toJson, Except.map, ofNormal_toJson]

end TenantSpec

/-! ## Statuses -/

namespace TenantStatus

def ofText (text : List UInt8) : Except Json.ReadError TenantStatus := (form.read text).map ofNormal

/-- A written status without a score is read back in the form it was written in. -/
theorem read_toJson {status : TenantStatus} (unscored : status.esgScore = none) :
    form.read status.toJson.encode = .ok status.toJson := by
  rw [toJson, unscored, Option.map_none]
  refine Json.Schema.read_record ?_ (by decide) (Nat.zero_le _)
  apply Written.optional Normal.text
  apply Written.optional Normal.text
  apply Written.optional Normal.boolean
  apply Written.optional Normal.boolean
  apply Written.optional Normal.boolean
  apply Written.omitted rfl
  apply Written.optional Normal.text
  exact Written.nil

/-- From that form the same status is made. -/
theorem ofNormal_toJson (status : TenantStatus) : ofNormal status.toJson = status := by
  simp only [ofNormal, toJson, Json.textAt?, Json.boolAt?, Json.record_eq_object, Json.get?,
    Json.lookup_present_cons, Json.lookup_present_nil, String.reduceEq, if_true, if_false, Option.or_none,
    Json.bind_text?_map, Json.bind_bool?_map, Json.bind_double?_map]

/-- So a status without a score survives its own text. -/
theorem ofText_encode {status : TenantStatus} (unscored : status.esgScore = none) :
    ofText status.toJson.encode = .ok status := by
  rw [ofText, read_toJson unscored, Except.map, ofNormal_toJson]

end TenantStatus

/-! ## Nothing is lost -/

/-- Every specification, and every status without a score, is read back from its text as it was. So no two
of them have one text, and writing what was read gives the same bytes again. -/
theorem wire_form_lossless :
    (∀ spec : TenantSpec, TenantSpec.ofText spec.toJson.encode = .ok spec) ∧
    (∀ a b : TenantSpec, a ≠ b → a.toJson.encode ≠ b.toJson.encode) ∧
    (∀ spec decoded : TenantSpec, TenantSpec.ofText spec.toJson.encode = .ok decoded →
      decoded.toJson.encode = spec.toJson.encode) ∧
    (∀ status : TenantStatus, status.esgScore = none →
      TenantStatus.ofText status.toJson.encode = .ok status) ∧
    (∀ a b : TenantStatus, a.esgScore = none → b.esgScore = none → a ≠ b →
      a.toJson.encode ≠ b.toJson.encode) ∧
    (∀ status decoded : TenantStatus, status.esgScore = none →
      TenantStatus.ofText status.toJson.encode = .ok decoded →
        decoded.toJson.encode = status.toJson.encode) := by
  refine ⟨TenantSpec.ofText_encode, ?_, ?_, @TenantStatus.ofText_encode, ?_, ?_⟩
  · intro a b different same
    have back := TenantSpec.ofText_encode a
    rw [same, TenantSpec.ofText_encode b] at back
    exact different (Except.ok.inj back).symm
  · intro spec decoded found
    rw [TenantSpec.ofText_encode spec] at found
    rw [Except.ok.inj found]
  · intro a b unscored unscored' different same
    have back := TenantStatus.ofText_encode unscored
    rw [same, TenantStatus.ofText_encode unscored'] at back
    exact different (Except.ok.inj back).symm
  · intro status decoded unscored found
    rw [TenantStatus.ofText_encode unscored] at found
    rw [Except.ok.inj found]

/-- A specification whose label needs every kind of escape, and whose fields are empty where they can be. -/
def hollowSpec : TenantSpec where
  displayName := "\"Acme\\ \n\t\x01é"
  quota := some ""
  oidcGroup := none
  isolation := .network
  esgEnabled := some false
  complianceFrameworks := some []

/-- The same without the empty fields. -/
def bareSpec : TenantSpec :=
  { hollowSpec with quota := none, esgEnabled := none, complianceFrameworks := none }

/-- A status that says that nothing is in place yet. -/
def idleStatus : TenantStatus := { phase := some "", falcoEnabled := some false }

theorem wire_form_lossless_hollow :
    (∃ decoded, TenantSpec.ofText hollowSpec.toJson.encode = .ok decoded ∧ decoded = hollowSpec ∧
      decoded.toJson.encode = hollowSpec.toJson.encode) ∧
    (hollowSpec ≠ bareSpec ∧ hollowSpec.toJson.encode ≠ bareSpec.toJson.encode) ∧
    (∃ decoded, idleStatus.esgScore = none ∧ TenantStatus.ofText idleStatus.toJson.encode = .ok decoded ∧
      decoded = idleStatus ∧ decoded.toJson.encode = idleStatus.toJson.encode) ∧
    (idleStatus ≠ {} ∧ idleStatus.toJson.encode ≠ (TenantStatus.toJson {}).encode) := by
  obtain ⟨specRead, specsApart, specAgain, statusRead, statusesApart, statusAgain⟩ := wire_form_lossless
  have specs : hollowSpec ≠ bareSpec := by decide
  have statuses : idleStatus ≠ {} := by decide
  refine ⟨⟨hollowSpec, specRead hollowSpec, rfl, ?_⟩, ⟨specs, specsApart _ _ specs⟩,
    ⟨idleStatus, rfl, statusRead idleStatus rfl, rfl, ?_⟩,
    ⟨statuses, statusesApart _ _ rfl rfl statuses⟩⟩
  · exact specAgain hollowSpec hollowSpec (specRead hollowSpec)
  · exact statusAgain idleStatus idleStatus rfl (statusRead idleStatus rfl)

end Tenancy
