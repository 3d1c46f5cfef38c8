import Tenancy.Json.Patch

/-! # Admission decisions

What a stage of the admission says about an object: it may be stored, perhaps after a patch; it is
turned away; or no decision was reached.
-/

namespace Tenancy.Admission

/-- What is being done to an object. -/
inductive Verb where
  | create
  | update
  | delete
  | connect
  deriving DecidableEq, Repr

namespace Verb

def all : List Verb := [create, update, delete, connect]

def wireName : Verb → String
  | create => "CREATE"
  | update => "UPDATE"
  | delete => "DELETE"
  | connect => "CONNECT"

def ofWireName? (s : String) : Option Verb := all.find? fun verb => verb.wireName = s

/-- The name of a verb on the command line. -/
def name : Verb → String
  | create => "create"
  | update => "update"
  | delete => "delete"
  | connect => "connect"

/-- The verb with that name on the command line. -/
def ofName? (s : String) : Option Verb := all.find? fun verb => verb.name = s

end Verb

/-- The outcome of one stage. -/
inductive Decision where
  /-- The object may be stored, after the patch if there is one. -/
  | allow (reason : String) (patch : Option Json.Patch)
  /-- The object is turned away. -/
  | deny (reason : String) (code : Nat)
  /-- The stage itself failed. -/
  | failed (reason : String)
  deriving Repr

namespace Decision

/-- The code of a breach of policy. -/
def forbidden : Nat := 403

/-- The code of an input that cannot be read. -/
def badRequest : Nat := 400

/-- The code of a failed stage. -/
def internalError : Nat := 500

def pass (reason : String) : Decision := .allow reason none

/-- Allows an object after a patch; a patch without operations is none. -/
def amend (reason : String) (patch : Json.Patch) : Decision :=
  .allow reason (if patch.isEmpty then none else some patch)

/-- Turns an object away for a breach of policy. -/
def refuse (reason : String) : Decision := .deny reason forbidden

/-- Turns an input away that cannot be read. -/
def malformed (reason : String) : Decision := .deny reason badRequest

/-- Whether the object may be stored. -/
def isAllowed : Decision → Bool
  | .allow _ _ => true
  | _ => false

def reason : Decision → String
  | .allow reason _ => reason
  | .deny reason _ => reason
  | .failed reason => reason

def patch? : Decision → Option Json.Patch
  | .allow _ patch => patch
  | _ => none

def code : Decision → Nat
  | .allow _ _ => 200
  | .deny _ code => code
  | .failed _ => internalError

def outcome : Decision → String
  | .allow _ (some _) => "patched"
  | .allow _ none => "allowed"
  | .deny _ _ => "denied"
  | .failed _ => "error"

def toJson : Decision → Json
  | .allow reason patch =>
    .record [("decision", some (.string "allow")), ("reason", some (.string reason)),
      ("patch", patch.map Json.Patch.toJson)]
  | .deny reason code =>
    .object [("decision", .string "deny"), ("reason", .string reason), ("code", .int code)]
  | .failed reason => .object [("decision", .string "error"), ("reason", .string reason)]

end Decision

end Tenancy.Admission
