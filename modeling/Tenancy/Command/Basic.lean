import Tenancy.Admission.Pipeline
import Tenancy.Settings.Basic

/-! # Commands

What the program is asked to do: to print the definition of tenants, to send a manifest through the
admission stages, or to run the controller and the webhook server, which it also does when it is
asked for nothing. A flag that every command has counts more after the command than before it.
-/

namespace Tenancy

/-- What the program is asked to do. -/
inductive Command where
  | printDefinition
  | review (file : String) (verb : Admission.Verb)
  | control
  deriving DecidableEq, Repr

/-- A command with the settings that go with it. -/
structure Invocation where
  command : Command
  settings : Settings
  telemetry : Telemetry
  deriving DecidableEq, Repr

namespace Command

def definitionFlag : Flag := { name := "crd", role := .switch }

/-- The operations that a manifest can be tried with. -/
def verbs : List (String × Admission.Verb) :=
  [("create", .create), ("update", .update), ("delete", .delete)]

/-- The flags of the command that tries a manifest. -/
def reviewFlags : List Flag := [
  { name := "file", letter := some 'f', role := .value .path },
  { name := "operation", role := .value (.word (verbs.map (·.1))) }]

def names : List String := ["controller", "admit"]

def readOwn (flags : List Flag) (arguments : List String) (env : Environment) :
    Except UsageError Choices := do
  let flags := flags ++ Telemetry.flags
  let (reading, _) ← readArguments (flags ++ [.help]) [] {} arguments
  reading.finish flags env

def ofReviewChoices (c : Choices) : Except UsageError Command :=
  match c.get? "file" with
  | none => .error .missingFlag
  | some file => .ok (.review file (((c.get? "operation").bind fun o => verbs.lookup o).getD .create))

def readNamed (env : Environment) : Subcommand → Except UsageError (Command × Choices)
  | ("admit", arguments) => do
    let c ← readOwn reviewFlags arguments env
    return (← ofReviewChoices c, c)
  | ("controller", arguments) => do return (.control, ← readOwn [] arguments env)
  | (_, arguments) =>
    match arguments with
    | [] => .error .help
    | [name] => if name ∈ names then .error .help else .error .unknownArgument
    | _ => .error .unknownArgument

end Command

/-- Choices made in two places, of which the first counts more. -/
def Choices.over (inner outer : Choices) : Choices :=
  ⟨inner.given ++ outer.given, inner.ambient ++ outer.ambient⟩

def Invocation.read (arguments : List String) (env : Environment) : Except UsageError Invocation := do
  let flags := [Command.definitionFlag] ++ Telemetry.flags ++ Settings.flags
  let (reading, named) ←
    readArguments (flags ++ [.help, .version]) (Command.names ++ ["help"]) {} arguments
  let inner ← named.mapM (Command.readNamed env)
  let outer ← reading.finish flags env
  let settings ← Settings.ofChoices? outer
  let (command, telemetry) :=
    match inner with
    | some (command, choices) => (command, Telemetry.ofChoices (choices.over outer))
    | none => (.control, Telemetry.ofChoices outer)
  let command := if (outer.get? "crd").isSome then .printDefinition else command
  return { command, settings, telemetry }

end Tenancy
