import Tenancy.Proofs.Admission.Endpoint
import Tenancy.Proofs.Json.Normal
import Tenancy.Proofs.Json.PatchText

/-! # What an answer carries

An answer says what its decision says: the verdict, the code, the reason, and the patch, which travels as bytes.
A patch that cannot be written would turn an allowance into a failure; every patch can be, and what is read from
its bytes is the patch again. How deep a patch may be is up to its reader.
-/

namespace Tenancy.Admission

variable {decision : Decision} {request : Request} {write : Json.Patch → Except String (List UInt8)}

/-! ## Patches that cannot be written -/

/-- An answer has the verdict of its decision exactly if the patch of the decision could be written. -/
theorem allowed_respondWith : (decision.respondWith write request).allowed = decision.isAllowed ↔
    ∀ patch, decision.patch? = some patch → ∃ bytes, write patch = .ok bytes := by
  rw [Decision.respondWith]
  cases found : decision.patch? with
  | none => simp
  | some patch =>
    have allows : decision.isAllowed = true := by
      cases decision with
      | allow reason patch => rfl
      | deny reason code => cases found
      | failed reason => cases found
    simp only [Option.map_some, Option.some.injEq, forall_eq', allows]
    cases write patch with
    | ok bytes => simp
    | error e => simp [Decision.isAllowed]

/-! ## Answers on the wire -/

/-- A field of the response that a review holds. -/
def Response.field (response : Response) (name : String) : Option Json :=
  (response.toJson.get? "response").bind (·.get? name)

theorem field_patch (response : Response) : response.field "patch" =
    response.patch.map fun bytes => .array (bytes.map fun b => .int b.toNat) := by
  rw [Response.field, Response.toJson]
  cases response.patch <;> rfl

theorem field_patchType (response : Response) :
    response.field "patchType" = response.patch.map fun _ => .string "JSONPatch" := by
  rw [Response.field, Response.toJson]
  cases response.patch <;> rfl

/-! ## The whole answer -/

/-- Whoever reads the bytes gets the patch, operation by operation, if they let as many containers be open at
once as the patch has, and otherwise nothing. -/
def Holds (bytes : List UInt8) (patch : Json.Patch) : Prop :=
  ∀ limit, Json.Patch.ofTextAtMost? limit bytes = if patch.toJson.depth ≤ limit then some patch else none

/-- The response has the patch of the decision, if there is one: its bytes and the type under which they go. -/
def CarriesPatch (response : Response) : Option Json.Patch → Prop
  | none => response.patch = none ∧ response.field "patch" = none ∧ response.field "patchType" = none
  | some patch => ∃ bytes, response.patch = some bytes ∧ Holds bytes patch ∧
      response.field "patch" = some (.array (bytes.map fun b => .int b.toNat)) ∧
      response.field "patchType" = some (.string "JSONPatch")

/-- A response carries the decided patch if the values in it have whole numbers and ordered members. -/
theorem carriesPatch_respond
    (plain : ∀ patch, decision.patch? = some patch → ∀ op ∈ patch, ∀ value, op.value? = some value →
      value.isIntegral ∧ value.isOrdered) :
    CarriesPatch (decision.respond request) decision.patch? := by
  have sent : (decision.respond request).patch = decision.patch?.map fun patch => patch.toJson.encode := by
    rw [respond_eq]
  cases found : decision.patch? with
  | none =>
    rw [found] at sent
    rw [CarriesPatch, field_patch, field_patchType, sent]
    exact ⟨rfl, rfl, rfl⟩
  | some patch =>
    rw [found] at sent
    rw [CarriesPatch, field_patch, field_patchType, sent]
    exact ⟨_, rfl, fun limit => Json.Patch.ofTextAtMost?_encode limit (plain patch found), rfl, rfl⟩

/-- A response to an amended object lacks a patch only when there is nothing to amend. -/
theorem patch_respond_amend {reason : String} {patch : Json.Patch} :
    ((Decision.amend reason patch).respond request).patch = none ↔ patch = [] := by
  rw [respond_eq, Decision.amend, Decision.patch?]
  cases patch with
  | nil => simp
  | cons op patch => simp

/-- An answer carries its decision: it has the identity of the request, the verdict, the code and the reason of
the decision, and its patch in bytes from which the patch is read back. A decision that amends an object is
answered without a patch exactly if there is nothing to amend. -/
theorem response_carries_decision (decision : Decision) (request : Request)
    (plain : ∀ patch, decision.patch? = some patch → ∀ op ∈ patch, ∀ value, op.value? = some value →
      value.isIntegral ∧ value.isOrdered) :
    let response := decision.respond request
    response.types = request.types ∧ response.uid = request.uid ∧
    (response.allowed ↔ ∃ reason patch, decision = .allow reason patch) ∧
    response.status.code = decision.code ∧ response.status.message = decision.reason ∧
    (decision.code = match decision with
      | .allow _ _ => 200
      | .deny _ code => code
      | .failed _ => 500) ∧
    (∀ write, (∀ patch, decision.patch? = some patch → ∃ bytes, write patch = .ok bytes) ↔
      (decision.respondWith write request).allowed = decision.isAllowed) ∧
    CarriesPatch response decision.patch? ∧
    ∀ reason patch, ((Decision.amend reason patch).respond request).patch = none ↔ patch = [] := by
  refine ⟨?_, respond_uid .., ?_, respond_code .., respond_message .., ?_, fun _ => allowed_respondWith.symm,
    carriesPatch_respond plain, fun _ _ => patch_respond_amend⟩
  · rw [respond_eq]
  · rw [respond_allowed]
    cases decision <;> simp [Decision.isAllowed]
  · cases decision <;> rfl

/-- A patch with an operation of every kind, one of them at a name that a pointer has to escape. -/
def mixedPatch : Json.Patch :=
  [.test ⟨["spec", "isolation"]⟩ (.string "namespace"), .add ⟨["metadata", "labels", "genesis.ai/team~1"]⟩ .null,
    .replace ⟨["spec"]⟩ (.object [("quota", .array [.int (-3), .object [("cpu", .string "1\n")]])]),
    .copy ⟨["spec"]⟩ ⟨["status"]⟩, .move ⟨["status", "quota"]⟩ ⟨["status", "was"]⟩, .remove ⟨["status"]⟩]

theorem response_carries_mixedPatch :
    let decision := Decision.amend "defaults applied" mixedPatch
    let response := decision.respond ⟨⟨"admission.k8s.io/v1", "AdmissionReview"⟩, "705ab4f5", .create, none⟩
    (∀ patch, decision.patch? = some patch → ∀ op ∈ patch, ∀ value, op.value? = some value →
      value.isIntegral ∧ value.isOrdered) ∧
    response.uid = "705ab4f5" ∧ response.allowed ∧ response.status.code = 200 ∧
    response.status.message = "defaults applied" ∧
    ∃ bytes, response.patch = some bytes ∧ Json.Patch.ofText? bytes = some mixedPatch ∧
      response.field "patchType" = some (.string "JSONPatch") := by
  intro decision response
  have plain : ∀ patch, decision.patch? = some patch → ∀ op ∈ patch, ∀ value, op.value? = some value →
      value.isIntegral ∧ value.isOrdered := by
    rintro patch ⟨⟩ op among value carried
    have each : ∀ op ∈ mixedPatch, op.value?.all fun value => value.isIntegral && value.isOrdered := by
      decide +kernel
    have whole := each op among
    rwa [carried, Option.all_some, Bool.and_eq_true] at whole
  obtain ⟨-, uid, allowed, code, message, -, -, carried, -⟩ := response_carries_decision decision
    ⟨⟨"admission.k8s.io/v1", "AdmissionReview"⟩, "705ab4f5", .create, none⟩ plain
  obtain ⟨bytes, sent, held, -, type⟩ := carried
  have read := held 127
  rw [if_pos (by decide +kernel), ← Json.Patch.ofText?_eq] at read
  exact ⟨plain, uid, allowed.mpr ⟨_, _, rfl⟩, code, message, bytes, sent, read, type⟩

/-- A patch with one container more in one another than the reader of documents lets be open. -/
def deepPatch : Json.Patch := [.add ⟨["spec", "notes"]⟩ (Json.nested 125)]

/-- The answer has the bytes of the patch, as of every other, but they are not read back. -/
theorem response_unreadable_deepPatch :
    let decision := Decision.amend "defaults applied" deepPatch
    let response := decision.respond ⟨⟨"admission.k8s.io/v1", "AdmissionReview"⟩, "705ab4f5", .create, none⟩
    decision.patch? = some deepPatch ∧ (∀ op ∈ deepPatch, ∀ value, op.value? = some value →
      value.isIntegral ∧ value.isOrdered) ∧
    ∃ bytes, response.patch = some bytes ∧ Json.Patch.ofText? bytes = none := by
  intro decision response
  have plain : ∀ op ∈ deepPatch, ∀ value, op.value? = some value → value.isIntegral ∧ value.isOrdered := by
    refine List.forall_mem_singleton.mpr fun value carried => ?_
    obtain rfl : Json.nested 125 = value := Option.some.inj carried
    exact ⟨Json.isIntegral_nested 125, Json.isOrdered_nested 125⟩
  have deep : deepPatch.toJson.depth = 128 := by decide +kernel
  refine ⟨rfl, plain, deepPatch.toJson.encode, ?_, ?_⟩
  · exact congrArg Response.patch (respond_eq decision _)
  · rw [Json.Patch.ofText?_eq, Json.Patch.ofTextAtMost?_encode 127 plain, deep, if_neg (by decide)]

end Tenancy.Admission
