import Tenancy.Proofs.Admission.Exchange

/-! # What the endpoints allow

An answer that allows comes from a deletion, or from an object that the stage of the endpoint allows.
Everything else that a request over HTTP can be is turned away: another path or method, a body that is
no review, a review without a request, a request without its object.
-/

namespace Tenancy.Admission

variable {body : List UInt8} {review object : Json} {request : Request} {stage : Stage} {visit : Visit}
  {response : Response}

/-! ## Stages -/

private theorem run_delete (stage : Stage) (text : List UInt8) :
    (stage.run .delete text).isAllowed := by
  cases stage <;> rfl

/-- Without an object, both stages turn a request away, each with its own decision. -/
private theorem run_nil (stage : Stage) {verb : Verb} (other : verb ≠ .delete) :
    (stage.run verb []).isAllowed = false := by
  cases stage with
  | defaulting =>
    have broken : Json.read [] = .error ⟨.flaw .endInValue, 0, []⟩ := by
      rw [Json.read, Json.readFuel, Json.readDocument]
      rfl
    rw [Stage.run, defaulting_of_error other broken]
    rfl
  | validation =>
    rw [Stage.run, validation, if_neg other]
    rfl

/-- An object carried by a review is read back from its own text, its members put in order. -/
theorem read_encode_of_carried (carried : Carried object) (integral : object.isIntegral) :
    Json.read object.encode = .ok object.sorted :=
  Json.read_encode_sorted integral carried.shallow

/-- What a stage asks of an object. -/
def Stage.Accepts : Stage → Json → Prop
  | .defaulting, _ => True
  | .validation, object => ∃ mode, checkTenant object = .ok mode

/-- A stage that reads a carried object decides on the object. -/
theorem run_encode (stage : Stage) {verb : Verb} (other : verb ≠ .delete) (carried : Carried object)
    (integral : object.isIntegral) :
    (stage.run verb object.encode).isAllowed ↔ stage.Accepts object := by
  have read := read_encode_of_carried carried integral
  cases stage with
  | defaulting => exact ⟨fun _ => trivial, fun _ => isAllowed_defaulting read⟩
  | validation =>
    rw [Stage.run, validation_of_read other read, verdict_congr carried.spec, isAllowed_verdict]
    rfl

/-! ## Answers -/

/-- Every patch can be written, so that an answer says what its decision says. -/
theorem respond_eq (decision : Decision) (request : Request) : decision.respond request =
    ⟨request.types, request.uid, decision.isAllowed, decision.status,
      decision.patch?.map fun patch => patch.toJson.encode⟩ := by
  rw [Decision.respond, Decision.respondWith]
  cases decision.patch? <;> rfl

@[simp] theorem respond_uid (decision : Decision) (request : Request) :
    (decision.respond request).uid = request.uid := by
  rw [respond_eq]

@[simp] theorem respond_allowed (decision : Decision) (request : Request) :
    (decision.respond request).allowed = decision.isAllowed := by
  rw [respond_eq]

@[simp] theorem respond_message (decision : Decision) (request : Request) :
    (decision.respond request).status.message = decision.reason := by
  rw [respond_eq]
  cases decision <;> rfl

@[simp] theorem respond_code (decision : Decision) (request : Request) :
    (decision.respond request).status.code = decision.code := by
  rw [respond_eq]
  cases decision <;> rfl

/-- An answer that does not allow carries no patch. -/
theorem patch_respond_of_not_allowed {decision : Decision} (refused : decision.isAllowed = false) :
    (decision.respond request).patch = none := by
  cases decision with
  | allow reason patch => cases refused
  | deny reason code => rfl
  | failed reason => rfl

theorem answer_of_request (held : request? review = some request) :
    answer stage review = (stage.run request.verb request.text).respond request := by
  rw [answer, held]

theorem answer_of_no_request (held : request? review = none) : answer stage review = .noRequest := by
  rw [answer, held]

def Stage.Allows (stage : Stage) (request : Request) : Prop :=
  request.verb = .delete ∨ ∃ object, request.object = some object ∧ stage.Accepts object

/-- The answer allows exactly when the review holds a request that the stage allows. -/
theorem allowed_answer_iff (decoded : reviewForm.read body = .ok review)
    (integral : ∀ request object, request? review = some request → request.object = some object →
      object.isIntegral) :
    (answer stage review).allowed ↔ ∃ request, request? review = some request ∧ stage.Allows request := by
  cases held : request? review with
  | none =>
    rw [answer_of_no_request held]
    exact ⟨fun allowed => (Bool.false_ne_true allowed).elim, fun ⟨_, same, _⟩ => (nomatch same)⟩
  | some request =>
    rw [answer_of_request held]
    simp only [respond_eq, Option.some.injEq, exists_eq_left', Stage.Allows]
    by_cases deletes : request.verb = .delete
    · simp only [deletes, true_or, iff_true]
      exact run_delete stage _
    · simp only [deletes, false_or, Request.text]
      cases present : request.object with
      | none => simp [run_nil stage deletes]
      | some object =>
        simp only [Option.some.injEq, exists_eq_left']
        exact run_encode stage deletes (carried_of_request decoded held present)
          (integral request object held present)

/-! ## Requests over HTTP -/

/-- The visits that are received at all: a review of at most the size allowed, sent as a document. -/
structure Received (visit : Visit) (review : Json) : Prop where
  method : visit.method = "POST"
  contentType : announcesJson visit.contentType
  size : visit.body.length ≤ bodyLimit
  decoded : reviewForm.read visit.body = .ok review

/-- A stage answers with a review exactly when the content type announces one, the body is within its limit
and reads as one. -/
theorem content_receive : (receive stage visit).content = .review response ↔
    announcesJson visit.contentType ∧ visit.body.length ≤ bodyLimit ∧
      ∃ review, reviewForm.read visit.body = .ok review ∧ response = answer stage review := by
  rw [receive]
  split_ifs with unannounced tooLong
  · rw [Bool.not_eq_true'] at unannounced
    simp [plain, unannounced]
  · simp [plain, tooLong]
  · cases read : reviewForm.read visit.body with
    | error e =>
      simp only [refuseBody]
      split_ifs <;> simp [plain]
    | ok review =>
      simp only [Bool.not_eq_true', Bool.not_eq_false] at unannounced
      simp [unannounced, Nat.not_lt.mp tooLong, eq_comm]

/-- A review is answered at the two endpoints only. -/
theorem content_serve : (serve visit).content = .review response ↔
    ∃ stage, stageAt? (withoutQuery visit.path) = some stage ∧
      ∃ review, Received visit review ∧ response = answer stage review := by
  rw [serve]
  cases found : stageAt? (withoutQuery visit.path) with
  | none =>
    simp only [reduceCtorEq, false_and, exists_false, iff_false]
    split_ifs <;> simp [plain]
  | some stage =>
    simp only [Option.some.injEq, exists_eq_left']
    split_ifs with post
    · rw [content_receive]
      constructor
      · rintro ⟨announced, fits, review, read, rfl⟩
        exact ⟨review, ⟨post, announced, fits, read⟩, rfl⟩
      · rintro ⟨review, ⟨-, announced, fits, read⟩, rfl⟩
        exact ⟨announced, fits, review, read, rfl⟩
    · simp only [false_iff, not_exists, not_and]
      exact fun review received => absurd received.method post

private theorem stageAt?_eq_some_iff {path : String} : stageAt? path = some stage ↔
    path = (match stage with | .defaulting => mutatePath | .validation => validatePath) := by
  have different : validatePath ≠ mutatePath := by decide
  rw [stageAt?]
  cases stage with
  | defaulting =>
    split_ifs with mutate validate
    · simp [mutate]
    · simp [mutate]
    · simp [mutate]
  | validation =>
    split_ifs with mutate validate
    · simp [mutate, Ne.symm different]
    · simp [validate]
    · simp [validate]

/-- The endpoints fail closed. A visit is allowed exactly when it posts a review with a request to one of
them, and the request is a deletion, or carries an object that for the second stage is a valid tenant.
Every answer to a request has its identity, and one that does not allow has no patch. What counts as an
object is never null. -/
theorem endpoints_fail_closed (visit : Visit)
    (integral : ∀ review request object, reviewForm.read visit.body = .ok review →
      request? review = some request → request.object = some object → object.isIntegral) :
    ((∃ response, (serve visit).content = .review response ∧ response.allowed) ↔
      visit.method = "POST" ∧ announcesJson visit.contentType ∧ visit.body.length ≤ bodyLimit ∧
      ∃ review request, reviewForm.read visit.body = .ok review ∧ request? review = some request ∧
        (withoutQuery visit.path = validatePath ∧ (request.verb = .delete ∨
            ∃ object mode, request.object = some object ∧ checkTenant object = .ok mode) ∨
          withoutQuery visit.path = mutatePath ∧ (request.verb = .delete ∨
            ∃ object, request.object = some object))) ∧
    (∀ response, (serve visit).content = .review response → response.allowed = false →
      response.patch = none) ∧
    (∀ response review request, (serve visit).content = .review response →
      reviewForm.read visit.body = .ok review → request? review = some request →
      response.uid = request.uid) ∧
    (∀ review request object, reviewForm.read visit.body = .ok review →
      request? review = some request → request.object = some object →
      ∃ members, object = .object members) := by
  refine ⟨?_, ?_, ?_, ?_⟩
  · constructor
    · rintro ⟨response, content, allowed⟩
      obtain ⟨stage, found, review, received, rfl⟩ := content_serve.mp content
      obtain ⟨request, held, allows⟩ := (allowed_answer_iff received.decoded
        fun request object => integral review request object received.decoded).mp allowed
      have path := stageAt?_eq_some_iff.mp found
      refine ⟨received.method, received.contentType, received.size, review, request,
        received.decoded, held, ?_⟩
      cases stage with
      | defaulting =>
        exact .inr ⟨path, allows.imp_right fun ⟨object, present, _⟩ => ⟨object, present⟩⟩
      | validation =>
        exact .inl ⟨path, allows.imp_right fun ⟨object, present, mode, valid⟩ =>
          ⟨object, mode, present, valid⟩⟩
    · rintro ⟨method, contentType, size, review, request, decoded, held, endpoint⟩
      -- the two endpoints differ only in what their stage allows
      have allow : ∀ stage : Stage, stageAt? (withoutQuery visit.path) = some stage →
          stage.Allows request → ∃ response, (serve visit).content = .review response ∧
            response.allowed := fun stage found allows =>
        ⟨answer stage review,
          content_serve.mpr ⟨stage, found, review, ⟨method, contentType, size, decoded⟩, rfl⟩,
          (allowed_answer_iff decoded fun request object => integral review request object
            decoded).mpr ⟨request, held, allows⟩⟩
      rcases endpoint with ⟨path, allows⟩ | ⟨path, allows⟩
      · exact allow .validation (stageAt?_eq_some_iff.mpr path) (allows.imp_right
          fun ⟨object, mode, present, valid⟩ => ⟨object, present, mode, valid⟩)
      · exact allow .defaulting (stageAt?_eq_some_iff.mpr path) (allows.imp_right
          fun ⟨object, present⟩ => ⟨object, present, trivial⟩)
  · intro response content refused
    obtain ⟨stage, -, review, -, rfl⟩ := content_serve.mp content
    cases held : request? review with
    | none => rw [answer_of_no_request held]; rfl
    | some request =>
      rw [answer_of_request held, respond_allowed] at refused
      rw [answer_of_request held]
      exact patch_respond_of_not_allowed refused
  · intro response review request content decoded held
    obtain ⟨stage, -, other, received, rfl⟩ := content_serve.mp content
    obtain rfl : other = review := Except.ok.inj (received.decoded.symm.trans decoded)
    rw [answer_of_request held, respond_uid]
  · intro review request object decoded held present
    exact (carried_of_request decoded held present).isObject

def acme : Json := .object [("metadata", .object [("name", .string "acme")]),
  ("spec", .object [("displayName", .string "Acme"), ("isolation", .string "cluster")])]

/-- A review that asks for something to be done to an object. -/
def asking (verb : Verb) (object : Json) : Json := .object [
  ("apiVersion", .string "admission.k8s.io/v1"),
  ("kind", .string "AdmissionReview"),
  ("request", .object [
    ("kind", .object [("group", .string "genesis.ai"), ("kind", .string "Tenant"),
      ("version", .string "v1")]),
    ("object", object),
    ("operation", .string verb.wireName),
    ("resource", .object [("group", .string "genesis.ai"), ("resource", .string "tenants"),
      ("version", .string "v1")]),
    ("uid", .string "7"),
    ("userInfo", .object [])])]

def creationOf (tenant : Json) : Json := asking .create tenant

theorem endpoints_allow_creation : ∃ response,
    (serve ⟨"POST", "/validate-tenant", some "application/json", (creationOf acme).encode⟩).content =
      .review response ∧ response.allowed := by
  have objects : (((reviewForm.read (creationOf acme).encode).toOption.bind request?).map Request.object) =
      some (some acme) := by decide +kernel
  have given : ∀ review request object, reviewForm.read (creationOf acme).encode = .ok review →
      request? review = some request → request.object = some object → object = acme := by
    intro review request object decoded held present
    rw [decoded, Except.toOption, Option.bind_some, held, Option.map_some, present] at objects
    exact Option.some.inj (Option.some.inj objects)
  cases decoded : reviewForm.read (creationOf acme).encode with
  | error e => rw [decoded] at objects; cases objects
  | ok review =>
    rw [decoded, Except.toOption, Option.bind_some] at objects
    obtain ⟨request, held, present⟩ := Option.map_eq_some_iff.mp objects
    refine ((endpoints_fail_closed _ fun review request object decoded held present => ?_).1).mpr
      ⟨rfl, by decide +kernel, by decide +kernel, review, request, decoded, held,
        .inl ⟨by decide, .inr ?_⟩⟩
    · rw [given review request object decoded held present]
      decide
    · exact ⟨acme, .cluster, present, by decide⟩

end Tenancy.Admission
