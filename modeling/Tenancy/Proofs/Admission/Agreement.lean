import Tenancy.Proofs.Admission.Carrying
import Tenancy.Proofs.Json.PatchText

/-! # The endpoints agree with the review

A cluster asks for defaults at one endpoint, carries out the patch that it gets, and has the result
validated at the other. Both endpoints work on what the form of an object leaves of it, and the patch
travels as bytes. The outcome is that of the review of the object itself: the form keeps the
specification, on which alone the patch and the verdict depend.

An object must not be too deep for the review to read it. The endpoints pass over members of the metadata
that they do not know, however deep, so that they also allow objects whose text the review turns away.
-/

namespace Tenancy.Admission

open Json (lookup decodeWithin)

variable {review object a b : Json} {verb : Verb} {stage : Stage} {request : Request}
  {members others : List (String × Json)} {raw other : List UInt8} {visit : Visit}

/-! ## Decisions depend on the specification alone -/

private theorem specOrEmpty_congr (same : lookup "spec" members = lookup "spec" others) :
    specOrEmpty members = specOrEmpty others := by
  rw [specOrEmpty, specOrEmpty, same]

/-- The defaulting patch depends on the `spec` member alone. -/
theorem defaultPatch_congr (same : lookup "spec" members = lookup "spec" others) :
    defaultPatch (.object members) = defaultPatch (.object others) := by
  rw [defaultPatch, defaultPatch, same]

/-- Documents with the same `spec` are answered alike, whatever their texts. -/
theorem defaulting_congr (read : Json.read raw = .ok (.object members))
    (reread : Json.read other = .ok (.object others))
    (same : lookup "spec" members = lookup "spec" others) :
    defaulting verb raw = defaulting verb other := by
  have applied : (applyDefaults (.object members)).2 = (applyDefaults (.object others)).2 := by
    simp only [applyDefaults, specOrEmpty_congr same]
  simp only [defaulting, read, reread, applied, diff_applyDefaults (Json.wellRead_of_read read).1,
    diff_applyDefaults (Json.wellRead_of_read reread).1, defaultPatch_congr same]

/-- A stage decides alike on two texts of objects with one specification. -/
theorem run_congr (stage : Stage) (read : Json.read raw = .ok a) (reread : Json.read other = .ok b)
    (isObject : ∃ members, a = .object members) (isObject' : ∃ members, b = .object members)
    (same : a.get? "spec" = b.get? "spec") : stage.run verb raw = stage.run verb other := by
  cases stage with
  | defaulting =>
    obtain ⟨members, rfl⟩ := isObject
    obtain ⟨others, rfl⟩ := isObject'
    exact defaulting_congr read reread same
  | validation =>
    by_cases deletes : verb = .delete
    · rw [Stage.run, validation, validation, if_pos deletes, if_pos deletes]
    · rw [Stage.run, validation_of_read deletes read, validation_of_read deletes reread,
        verdict_congr same]

/-! ## Patches that travel -/

/-- The object that is stored after an answer: its patch, if there is one, is read and carried out. -/
def Response.persist? (response : Response) (object : Json) : Option Json :=
  match response.patch with
  | some text => (Json.Patch.ofText? text).bind fun patch => patch.carryOut? object
  | none => some object

/-- What holds of an operation for each default, and of the two for all of them, holds of every operation of a
patch for a specification. -/
private theorem operation_specPatch {p : Json.Operation → Prop}
    (single : ∀ m ∈ specDefaults, p (.add ⟨["spec", m.1]⟩ m.2)) (add : p (.add ⟨["spec"]⟩ (.object (fillSpec []))))
    (replace : p (.replace ⟨["spec"]⟩ (.object (fillSpec [])))) (spec? : Option Json) :
    ∀ op ∈ specPatch spec?, p op := by
  match spec? with
  | some (.object spec) =>
    intro op among
    obtain ⟨m, missing, rfl⟩ := List.mem_map.mp among
    exact single m (List.mem_of_mem_filter (Json.mem_of_mem_ofMembers missing))
  | none => exact List.forall_mem_singleton.mpr add
  | some .null | some (.bool _) | some (.number _) | some (.string _) | some (.array _) =>
    exact List.forall_mem_singleton.mpr replace

/-- The patch for a specification is read back from its bytes. -/
theorem ofText?_specPatch (spec? : Option Json) :
    Json.Patch.ofText? (specPatch spec?).toJson.encode = some (specPatch spec?) := by
  have plain : ∀ op ∈ specPatch spec?, op.value?.all fun value => value.isIntegral && value.isOrdered :=
    operation_specPatch (by decide) (by decide) (by decide) spec?
  have shallow : ∀ op ∈ specPatch spec?, op.toJson.depth ≤ 126 :=
    operation_specPatch (by decide) (by decide) (by decide) spec?
  refine Json.Patch.ofText?_encode (fun op among value carried => ?_) ?_
  · have whole := plain op among
    rwa [carried, Option.all_some, Bool.and_eq_true] at whole
  · refine Json.depth_array_le_succ.mpr fun item present => ?_
    obtain ⟨op, among, rfl⟩ := List.mem_map.mp present
    exact shallow op among

/-- The patch of the first stage is read back from its bytes. -/
theorem ofText?_patch_defaulting {patch : Json.Patch} (found : (defaulting verb raw).patch? = some patch) :
    Json.Patch.ofText? patch.toJson.encode = some patch := by
  by_cases deletes : verb = .delete
  · rw [defaulting, if_pos deletes] at found
    cases found
  · cases read : Json.read raw with
    | error e =>
      rw [defaulting_of_error deletes read] at found
      cases found
    | ok document =>
      rw [patch_defaulting deletes read] at found
      split_ifs at found
      obtain rfl := Option.some.inj found
      have nothing : Json.Patch.ofText? (Json.Patch.toJson []).encode = some [] :=
        Json.Patch.ofText?_encode (List.forall_mem_nil _) (by decide)
      cases document with
      | object members => exact ofText?_specPatch _
      | _ => exact nothing

/-- The bytes of the response to a defaulted object read back as the patch that was decided. -/
theorem patch_respond_defaulting :
    ((defaulting verb raw).respond request).patch.map Json.Patch.ofText? =
      (defaulting verb raw).patch?.map some := by
  rw [respond_eq]
  cases found : (defaulting verb raw).patch? with
  | none => rfl
  | some patch => simp only [Option.map_some, ofText?_patch_defaulting found]

/-- What an answer with defaults stores is what its decision says. -/
theorem persist?_respond_defaulting :
    ((defaulting verb raw).respond request).persist? object = amended? (defaulting verb raw) object := by
  rw [Response.persist?, amended?, amended, respond_eq]
  cases found : (defaulting verb raw).patch? with
  | none => rfl
  | some patch =>
    simp only [Option.map_some, ofText?_patch_defaulting found, Option.bind_some, Json.Patch.carryOut?]

/-! ## Visits -/

/-- The visit sends the endpoint of a stage a body that asks for something to be done to the object. -/
structure Sent (visit : Visit) (stage : Stage) (verb : Verb) (object : Json) : Prop where
  method : visit.method = "POST"
  endpoint : stageAt? (withoutQuery visit.path) = some stage
  contentType : announcesJson visit.contentType
  size : visit.body.length ≤ bodyLimit
  asks : Asks visit.body verb object

/-- The endpoint of a stage decides on a document that stands for the object. -/
theorem serve_sent (sent : Sent visit stage verb object) (integral : object.isIntegral) :
    ∃ request carried, Faithful carried object ∧ (serve visit).content =
      .review ((stage.run verb carried.encode).respond request) := by
  obtain ⟨normal, request, decoded, held, rfl⟩ := sent.asks.decoded
  obtain ⟨carried, present, faithful⟩ := sent.asks.carries.faithful decoded held integral
  have received : Received visit normal := ⟨sent.method, sent.contentType, sent.size, decoded⟩
  refine ⟨request, carried, faithful, content_serve.mpr ⟨stage, sent.endpoint, normal, received, ?_⟩⟩
  rw [answer_of_request held, Request.text, present]

/-- An object that can be read is decided on as it is. -/
theorem serve_sent_of_read (sent : Sent visit stage verb object) (integral : object.isIntegral)
    (read : Json.read object.encode = .ok object) :
    ∃ request, (serve visit).content = .review ((stage.run verb object.encode).respond request) := by
  obtain ⟨request, carried, faithful, content⟩ := serve_sent sent integral
  have reread := read_encode_of_carried faithful.isCarried faithful.integral
  obtain ⟨members, rfl⟩ := faithful.isCarried.isObject
  have sortedObject : ∃ others, Json.sorted (.object members) = .object others :=
    ⟨_, Json.sorted_object members⟩
  have same : (Json.sorted (.object members)).get? "spec" = object.get? "spec" :=
    faithful.isCarried.spec.trans faithful.spec
  rw [run_congr stage reread read sortedObject sent.asks.carries.isObject same] at content
  exact ⟨request, content⟩

/-- However deep an object is, the first endpoint allows it, and what its answer stores has the
defaults. -/
theorem serve_sent_defaults (sent : Sent visit .defaulting verb object) (integral : object.isIntegral) :
    ∃ first, (serve visit).content = .review first ∧ first.allowed ∧
      first.persist? object = some (stored verb object) := by
  have ordered := isOrdered_of_carries sent.asks.carries
  obtain ⟨request, carried, faithful, content⟩ := serve_sent sent integral
  have read := read_encode_of_carried faithful.isCarried faithful.integral
  obtain ⟨members, rfl⟩ := faithful.isCarried.isObject
  obtain ⟨others, rfl⟩ := sent.asks.carries.isObject
  refine ⟨_, content, (respond_allowed ..).trans (isAllowed_defaulting read),
    persist?_respond_defaulting.trans ?_⟩
  rw [stored]
  split_ifs with deletes
  · rw [defaulting, if_pos deletes]
    rfl
  · have same : defaultPatch (Json.object members).sorted = defaultPatch (.object others) :=
      defaultPatch_congr (faithful.isCarried.spec.trans faithful.spec)
    apply amended_of_patch ordered
    rw [patch_defaulting deletes read, same]

/-! ## Validating what was stored -/

/-- The form of an object also takes the object with defaults. -/
theorem decodeWithin_stored (verb : Verb) {carried : Json}
    (taken : decodeWithin (.object members) 126 objectForm = some carried) :
    ∃ other, decodeWithin (stored verb (.object members)) 126 objectForm = some other := by
  rw [stored]
  split_ifs
  · exact ⟨carried, taken⟩
  · rw [applyDefaults_object]
    refine Json.decodeWithin_insert_surplus taken (by decide) ?_
    have filled : (Json.object (fillSpec (specOrEmpty members).1)).depth ≤ 123 + 1 := by
      rw [Json.depth_object_le_succ]
      intro m present
      rcases mem_filled present with ⟨spec, found, held⟩ | added
      · have room := Json.depth_of_surplus taken (by decide) found
        have shallow : (Json.object spec).depth ≤ 123 + 1 := by omega
        exact Json.depth_object_le_succ.mp shallow m held
      · have flat := (by decide : ∀ m ∈ specDefaults, m.2.depth = 0) m added
        omega
    omega

/-- What was stored is carried by some review for the same verb. -/
theorem Asks.exists_stored (asks : Asks raw verb object) (integral : object.isIntegral) :
    ∃ body, Asks body verb (stored verb object) := by
  have ordered := isOrdered_of_carries asks.carries
  obtain ⟨normal, request, decoded, held, -⟩ := asks.decoded
  obtain ⟨carried, taken⟩ := asks.carries.taken decoded held
  obtain ⟨members, stores⟩ := object_stored verb asks.carries.isObject
  have exact := isIntegral_stored verb integral
  have sorted := isOrdered_stored verb ordered
  obtain ⟨others, rfl⟩ := asks.carries.isObject
  obtain ⟨other, taken⟩ := decodeWithin_stored verb taken
  rw [stores] at exact sorted taken ⊢
  exact exists_asks verb exact sorted taken

/-! ## Both ways -/

/-- The two endpoints in a row do what the review of the object does, whatever else the bodies hold that are
sent to them. Defaults are always allowed; the patch is that of the report when it is read back from its bytes,
and on the object itself gives the object of the report. There is a body that asks for the same to be done to
that object, and every such body is answered with the second decision of the report. -/
theorem endpoints_agree_with_review (sent : Sent visit .defaulting verb object) (integral : object.isIntegral)
    (shallow : object.depth < Json.depthLimit) :
    ∃ first result decision,
      (serve visit).content = .review first ∧ first.allowed ∧
      first.patch.map Json.Patch.ofText? =
        (Admission.review verb object.encode).defaulting.patch?.map some ∧
      first.persist? object = some result ∧
      (Admission.review verb object.encode).object = some result ∧
      (Admission.review verb object.encode).validation = some decision ∧
      (∃ body, Asks body verb result) ∧
      ∀ second, Sent second .validation verb result →
        ∃ last, (serve second).content = .review last ∧ last.allowed = decision.isAllowed ∧
          last.status.message = decision.reason ∧ last.status.code = decision.code := by
  have ordered := isOrdered_of_carries sent.asks.carries
  have read := Json.read_encode integral ordered shallow
  have report := review_eq_stored verb read
  obtain ⟨request, content⟩ := serve_sent_of_read sent integral read
  refine ⟨_, stored verb object, validation verb (stored verb object).encode, content, ?_, ?_, ?_, ?_, ?_,
    sent.asks.exists_stored integral, ?_⟩
  · exact (respond_allowed ..).trans (isAllowed_defaulting read)
  · rw [report]
    exact patch_respond_defaulting
  · have persisted : ((defaulting verb object.encode).respond request).persist? object =
        amended? (defaulting verb object.encode) object := persist?_respond_defaulting
    exact persisted.trans (amended_stored read)
  · rw [report]
  · rw [report]
  · intro second sent
    have exact := isIntegral_stored verb integral
    have reread := Json.read_encode exact (isOrdered_stored verb ordered) (depth_stored verb shallow)
    obtain ⟨request, content⟩ := serve_sent_of_read sent exact reread
    exact ⟨_, content, respond_allowed .., respond_message .., respond_code ..⟩

def post (path : String) (body : List UInt8) : Visit := ⟨"POST", path, some "application/json", body⟩

private theorem announcesJson_post : announcesJson (some "application/json") := by decide +kernel

/-- A review in order that can be decoded is sent by posting it. -/
theorem sent_post {path : String} (endpoint : stageAt? (withoutQuery path) = some stage)
    (integral : review.isIntegral) (ordered : review.isOrdered) (size : review.encode.length ≤ bodyLimit)
    (decoded : ((reviewForm.read review.encode).toOption.bind request?).map Request.verb = some verb)
    (placed : Json.at? objectPath review = some object) (isObject : ∃ members, object = .object members) :
    Sent (post path review.encode) stage verb object := by
  refine ⟨rfl, endpoint, announcesJson_post, size, ?_, carries_encode integral ordered placed isObject⟩
  obtain ⟨request, held, asks⟩ := Option.map_eq_some_iff.mp decoded
  obtain ⟨normal, decoded, held⟩ := Option.bind_eq_some_iff.mp held
  exact ⟨normal, request, Json.toOption_eq_some.mp decoded, held, asks⟩

def acmeStored : Json := (applyDefaults acme).1

theorem endpoints_agree_creation : ∃ first last,
    (serve (post mutatePath (creationOf acme).encode)).content = .review first ∧ first.allowed ∧
      first.persist? acme = some acmeStored ∧ (Admission.review .create acme.encode).object = some acmeStored ∧
      (serve (post validatePath (creationOf acmeStored).encode)).content = .review last ∧ last.allowed ∧
      last.status.code = 200 := by
  have sent : Sent (post mutatePath (creationOf acme).encode) .defaulting .create acme :=
    sent_post (by decide) (by decide +kernel) (by decide +kernel) (by decide +kernel) (by decide +kernel) rfl
      ⟨_, rfl⟩
  obtain ⟨first, result, decision, content, allowed, -, persisted, reported, decides, -, answers⟩ :=
    endpoints_agree_with_review sent (by decide +kernel) (by decide)
  have stores : (Admission.review .create acme.encode).object = some acmeStored := by decide +kernel
  obtain rfl : acmeStored = result := Option.some.inj (stores.symm.trans reported)
  have again : Sent (post validatePath (creationOf acmeStored).encode) .validation .create acmeStored :=
    sent_post (by decide) (by decide +kernel) (by decide +kernel) (by decide +kernel) (by decide +kernel) rfl
      ⟨_, rfl⟩
  obtain ⟨last, answer, lastAllowed, -, code⟩ := answers _ again
  have accepts : (Admission.review .create acme.encode).validation.map
      (fun decision => (decision.isAllowed, decision.code)) = some (true, 200) := by
    decide +kernel
  rw [decides, Option.map_some, Option.some.injEq, Prod.mk.injEq] at accepts
  exact ⟨first, last, content, allowed, persisted, stores, answer, lastAllowed.trans accepts.1,
    code.trans accepts.2⟩

/-- A tenant whose metadata have a member that is not known, and too deep for the review. -/
def deepTenant : Json := .object [
  ("metadata", .object [("x", Json.nested 130)]),
  ("spec", .object [("displayName", .string "Acme")])]

/-- Where the object is too deep for the review, the endpoints still give it defaults. -/
theorem endpoints_disagree_deepTenant :
    Sent (post mutatePath (creationOf deepTenant).encode) .defaulting .create deepTenant ∧
    deepTenant.isIntegral ∧
    ∃ first, (serve (post mutatePath (creationOf deepTenant).encode)).content = .review first ∧
      first.allowed ∧ first.persist? deepTenant = some (applyDefaults deepTenant).1 ∧
      (Admission.review .create deepTenant.encode).defaulting.isAllowed = false ∧
      (Admission.review .create deepTenant.encode).defaulting.patch? = none ∧
      (Admission.review .create deepTenant.encode).object = none := by
  have sent : Sent (post mutatePath (creationOf deepTenant).encode) .defaulting .create deepTenant :=
    sent_post (by decide) (by decide +kernel) (by decide +kernel) (by decide +kernel) (by decide +kernel) rfl
      ⟨_, rfl⟩
  have integral : deepTenant.isIntegral := by decide +kernel
  have deep : Json.depthLimit ≤ deepTenant.depth := by decide +kernel
  obtain ⟨first, content, allowed, persisted⟩ := serve_sent_defaults sent integral
  obtain ⟨e, broken⟩ := Json.read_encode_of_deep integral (by decide +kernel) deep
  rw [review_of_error (by decide) broken]
  exact ⟨sent, integral, first, content, allowed, persisted, rfl, rfl, rfl⟩

end Tenancy.Admission
