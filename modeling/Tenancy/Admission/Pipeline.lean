import Tenancy.Admission.Validation

/-! # Both stages in a row

`review` chains the stages the way the cluster does: the defaults are carried out on the document,
and what results is written and read again by the validation.
-/

namespace Tenancy.Admission

inductive Stage where
  | defaulting
  | validation
  deriving DecidableEq, Repr

def Stage.name : Stage → String
  | .defaulting => "defaulting"
  | .validation => "validation"

def Stage.run : Stage → Verb → List UInt8 → Decision
  | .defaulting => Admission.defaulting
  | .validation => Admission.validation

/-- What the two stages said. -/
structure Report where
  defaulting : Decision
  /-- What validation said, unless the first stage ended the review. -/
  validation : Option Decision
  /-- The document as it would be stored, if the text holds one. -/
  object : Option Json
  deriving Repr

namespace Report

/-- Whether the document would be stored. -/
def isAllowed (r : Report) : Bool :=
  r.defaulting.isAllowed && r.validation.any Decision.isAllowed

/-- The stage and the decision that settled the outcome. -/
def final (r : Report) : Stage × Decision :=
  match r.validation with
  | some decision => (.validation, decision)
  | none => (.defaulting, r.defaulting)

def toJson (r : Report) : Json :=
  .record [("defaulting", some r.defaulting.toJson), ("validation", r.validation.map Decision.toJson),
    ("object", r.object)]

end Report

/-- Carries out the patch of a decision, if it has one. -/
def amended (decision : Decision) (document : Json) : Except Json.PatchError Json :=
  match decision.patch? with
  | some patch => patch.carryOut document
  | none => .ok document

/-- The document after a decision, if its patch can be carried out. -/
def amended? (decision : Decision) (document : Json) : Option Json := (amended decision document).toOption

/-- Runs both stages on the text of an object. -/
def review (verb : Verb) (raw : List UInt8) : Report :=
  let defaulting := defaulting verb raw
  if !defaulting.isAllowed then ⟨defaulting, none, none⟩
  else
    match (Json.read raw).toOption with
    | none => ⟨defaulting, some (validation verb raw), none⟩
    | some document =>
      match amended defaulting document with
      | .error e => ⟨.failed ("failed to apply defaults: " ++ e.message), none, none⟩
      | .ok object => ⟨defaulting, some (validation verb object.encode), some object⟩

end Tenancy.Admission
