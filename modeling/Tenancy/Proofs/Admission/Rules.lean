import Tenancy.Proofs.Admission.Specification
import Tenancy.Proofs.Admission.Validation

/-! # The rules of the second stage

Each of the four rules can be checked on its own: they ask whether there is a specification, and look at
two of its members. A document that breaks no rule is admitted with its mode, and of one that breaks
several the first in order is told. Whatever else a document holds does not count.
-/

namespace Tenancy.Admission

open Json (lookup)

variable {document a b : Json} {mode : IsolationMode} {verb : Verb} {raw : List UInt8}
  {violation : Violation}

/-! ## The check -/

/-- The check, told by what the rules look at. -/
def judge : Bool → Option String → Option String → Except Violation IsolationMode
  | false, _, _ => .error .noSpec
  | true, none, _ => .error .noDisplayName
  | true, some displayName, isolation? =>
    if displayName.isEmpty then .error .noDisplayName
    else
      match isolation? with
      | none => .error .noIsolation
      | some isolation => (IsolationMode.ofName? isolation).elim (.error .unknownIsolation) .ok

/-- The check in three questions: whether there is a spec, which display name and which isolation mode it
states. -/
theorem checkTenant_eq_judge : checkTenant document =
    judge (hasSpec document) (specText? "displayName" document) (specText? "isolation" document) := by
  cases held : document.get? "spec" with
  | none => simp only [checkTenant, hasSpec, held]; rfl
  | some value =>
    cases value with
    | object spec =>
      rw [hasSpec_of_object held, specText?, specText?, specMember?, specMember?,
        specMembers_of_object held]
      simp only [checkTenant, held, bind, Except.bind]
      cases lookup "displayName" spec with
      | none => rfl
      | some displayName =>
        cases displayName with
        | string displayName =>
          simp only [Option.bind_some, Json.text?, judge]
          split_ifs with empty
          · rfl
          · cases lookup "isolation" spec with
            | none => rfl
            | some isolation =>
              cases isolation with
              | string isolation =>
                simp only [Option.bind_some, Json.text?]
                cases IsolationMode.ofName? isolation <;> rfl
              | _ => rfl
        | _ => rfl
    | _ => simp only [checkTenant, hasSpec, held]; rfl

/-! ## The first rule that is broken -/

/-- The rules in the order in which they are checked. -/
def rules : List Violation := [.noSpec, .noDisplayName, .noIsolation, .unknownIsolation]

/-- Whether a document breaks a rule, whichever others it breaks. -/
def Violation.isBrokenBy (document : Json) : Violation → Bool
  | .noSpec => !hasSpec document
  | .noDisplayName => (specText? "displayName" document).all String.isEmpty
  | .noIsolation => (specText? "isolation" document).isNone
  | .unknownIsolation => ((specText? "isolation" document).bind IsolationMode.ofName?).isNone

def firstBroken? (document : Json) : Option Violation := rules.find? (·.isBrokenBy document)

/-- The violation reported is the first of the rules that the document breaks. -/
theorem checkTenant_eq_error_iff :
    checkTenant document = .error violation ↔ firstBroken? document = some violation := by
  rw [checkTenant_eq_judge, firstBroken?, rules]
  simp only [List.find?_cons, List.find?_nil, Violation.isBrokenBy]
  cases hasSpec document with
  | false => simp [judge]
  | true =>
    cases specText? "displayName" document with
    | none => simp [judge]
    | some displayName =>
      by_cases empty : displayName.isEmpty
      · simp [judge, empty]
      · cases specText? "isolation" document with
        | none => simp [judge, empty]
        | some isolation => cases found : IsolationMode.ofName? isolation <;> simp [judge, empty, found]

/-! ## What is decided -/

/-- What the rules do not look at has no influence. -/
theorem checkTenant_of_agree (has : hasSpec a = hasSpec b)
    (displayName : specMember? "displayName" a = specMember? "displayName" b)
    (isolation : specMember? "isolation" a = specMember? "isolation" b) :
    checkTenant a = checkTenant b := by
  rw [checkTenant_eq_judge, checkTenant_eq_judge, has, specText?, specText?, specText?, specText?,
    displayName, isolation]

/-- No violation goes without a message. -/
theorem message_ne_empty (violation : Violation) : violation.message ≠ "" := by
  cases violation <;> decide

theorem validation_of_error (other : verb ≠ .delete) (some_ : raw ≠ []) {e : Json.ReadError}
    (broken : Json.read raw = .error e) : validation verb raw = .malformed (unreadable raw e) := by
  rw [validation, if_neg other, if_neg (mt List.isEmpty_iff.mp some_), broken]

/-- A verdict on a document is never the answer to a text that cannot be read. -/
theorem code_verdict_ne (document : Json) : (verdict document).code ≠ Decision.badRequest := by
  rw [verdict]
  cases checkTenant document with
  | ok mode => exact (by decide : 200 ≠ Decision.badRequest)
  | error violation => exact (by decide : Decision.forbidden ≠ Decision.badRequest)

/-- Of the texts that are looked at, exactly those that cannot be read get the code for a bad request. -/
theorem code_validation_iff (other : verb ≠ .delete) (some_ : raw ≠ []) :
    (validation verb raw).code = Decision.badRequest ↔ ∃ e, Json.read raw = .error e := by
  cases found : Json.read raw with
  | error e =>
    rw [validation_of_error other some_ found]
    exact ⟨fun _ => ⟨e, rfl⟩, fun _ => rfl⟩
  | ok document =>
    rw [validation_of_read other found]
    constructor
    · intro malformed
      exact absurd malformed (code_verdict_ne document)
    · rintro ⟨e, broken⟩
      cases broken

/-- The check gives the mode of exactly the documents that break no rule, and of any other the first rule
that it breaks, whose wording is never empty. It looks at nothing but what the rules name. A text is decided
by the check of its document; one that is no document is malformed, and the empty one is refused. -/
theorem validation_follows_rules :
    (∀ document mode, checkTenant document = .ok mode ↔
      ∃ members spec displayName, document = .object members ∧
        lookup "spec" members = some (.object spec) ∧
        lookup "displayName" spec = some (.string displayName) ∧ displayName ≠ "" ∧
        lookup "isolation" spec = some (.string mode.name)) ∧
    (∀ document violation,
      checkTenant document = .error violation ↔ firstBroken? document = some violation) ∧
    (∀ violation : Violation, violation.message ≠ "") ∧
    (∀ a b, hasSpec a = hasSpec b → specMember? "displayName" a = specMember? "displayName" b →
      specMember? "isolation" a = specMember? "isolation" b → checkTenant a = checkTenant b) ∧
    (∀ verb raw, verb ≠ .delete → raw ≠ [] →
      ((validation verb raw).code = 400 ↔ ∃ e, Json.read raw = .error e) ∧
      (∀ e, Json.read raw = .error e → validation verb raw = .deny (unreadable raw e) 400) ∧
      (∀ document mode, Json.read raw = .ok document → checkTenant document = .ok mode →
        validation verb raw = .allow "tenant validated" none) ∧
      (∀ document violation, Json.read raw = .ok document → checkTenant document = .error violation →
        validation verb raw = .deny violation.message 403)) ∧
    (∀ verb, verb ≠ .delete → validation verb [] = .deny "empty object" 403) := by
  refine ⟨?_, fun _ _ => checkTenant_eq_error_iff, message_ne_empty,
    fun _ _ => checkTenant_of_agree, ?_, ?_⟩
  · intro document mode
    rw [checkTenant_eq_ok_iff]
    constructor
    · rintro ⟨spec, held, ⟨displayName, named, filled⟩, isolated⟩
      cases document with
      | object members => exact ⟨members, spec, displayName, rfl, held, named, filled, isolated⟩
      | _ => cases held
    · rintro ⟨members, spec, displayName, rfl, held, named, filled, isolated⟩
      exact ⟨spec, held, ⟨displayName, named, filled⟩, isolated⟩
  · intro verb raw other some_
    refine ⟨code_validation_iff other some_, fun e => validation_of_error other some_, ?_, ?_⟩
    · intro document mode found passed
      rw [validation_of_read other found, verdict, passed]
      rfl
    · intro document violation found failed
      rw [validation_of_read other found, verdict, failed]
      rfl
  · intro verb other
    rw [validation, if_neg other]
    rfl

/-- A document that breaks the rules on the name and on the mode. -/
def namelessTenant : Json :=
  .object [("spec", .object [("displayName", .string ""), ("isolation", .string "galaxy")])]

/-- The same rules broken by a document that says more. -/
def wordyTenant : Json :=
  .object [("metadata", .object [("name", .string "acme")]),
    ("spec", .object [("displayName", .string ""), ("isolation", .string "galaxy"), ("quota", .null)])]

/-- A document that breaks no rule, though its quota is no text. -/
def namedTenant : Json :=
  .object [("spec", .object [("displayName", .string "Acme"), ("isolation", .string "cluster"),
    ("quota", .bool false)])]

/-- A text that is no document. -/
def openBrace : List UInt8 := [0x7B]

theorem validation_follows_rules_examples :
    checkTenant wordyTenant = checkTenant namelessTenant ∧
    firstBroken? wordyTenant = some .noDisplayName ∧
    validation .create wordyTenant.encode =
      .deny "spec.displayName is required and must be non-empty" 403 ∧
    validation .update namedTenant.encode = .allow "tenant validated" none ∧
    (∃ e, Json.read openBrace = .error e ∧
      validation .connect openBrace = .deny (unreadable openBrace e) 400) ∧
    validation .create [] = .deny "empty object" 403 := by
  obtain ⟨passes, first, -, agree, decided, empty⟩ := validation_follows_rules
  have broken : firstBroken? wordyTenant = some .noDisplayName := by decide
  have readWordy : Json.read wordyTenant.encode = .ok wordyTenant :=
    Json.read_encode (by decide) (by decide) (by decide)
  have readNamed : Json.read namedTenant.encode = .ok namedTenant :=
    Json.read_encode (by decide) (by decide) (by decide)
  have cluster : checkTenant namedTenant = .ok .cluster :=
    (passes _ _).mpr ⟨_, _, "Acme", rfl, rfl, rfl, by decide, rfl⟩
  refine ⟨agree _ _ (by decide) (by decide) (by decide), broken, ?_, ?_, ?_, empty _ (by decide)⟩
  · exact (decided .create _ (by decide) (read_ne_nil readWordy)).2.2.2 _ _ readWordy
      ((first _ _).mpr broken)
  · exact (decided .update _ (by decide) (read_ne_nil readNamed)).2.2.1 _ _ readNamed cluster
  · have malformed := decided .connect openBrace (by decide) (by decide)
    have nothing : (Json.read openBrace).toOption = none := by decide +kernel
    cases unread : Json.read openBrace with
    | error e => exact ⟨e, rfl, malformed.2.1 e unread⟩
    | ok document =>
      rw [unread] at nothing
      cases nothing

end Tenancy.Admission
