import Tenancy.Http.Address

/-! # Flags

A command line is read against a list of flags. A flag with a value takes it after an equals sign or
from the next argument. What a flag does not settle may come from a variable of the environment.
The value of a flag is looked at when the next flag is met or at the end, so that an argument that
means nothing at all is reported before the value in front of it.
-/

namespace Tenancy

/-- Why a command line cannot be used, or that it asks for no more than information. -/
inductive UsageError where
  /-- An argument that is no flag, no command and no value. -/
  | unknownArgument
  /-- A flag without its value. -/
  | missingValue
  /-- A value that is empty or none of the possible ones. -/
  | unlistedValue
  /-- A value that cannot be read. -/
  | unreadableValue
  /-- A value for a flag that takes none. -/
  | needlessValue
  /-- A flag that is given twice. -/
  | repeatedFlag
  /-- A flag that has to be there. -/
  | missingFlag
  /-- A request for help. -/
  | help
  /-- A request for the version. -/
  | version
  deriving DecidableEq, Repr

/-- A whole number with an optional plus sign. -/
def natural? (text : String) : Option Nat :=
  match text.toList with
  | '+' :: digits => Text.number? 10 digits
  | digits => Text.number? 10 digits

/-- A whole number with an optional sign, where negative numbers are out of range but for zero. -/
def signed? (text : String) : Option Nat :=
  match text.toList with
  | '-' :: digits => (Text.number? 10 digits).filter (· = 0)
  | _ => natural? text

inductive ValueForm where
  | text
  /-- The name of a file. -/
  | path
  | address
  /-- A whole number up to a limit; `zeroSign` allows a minus sign before zero. -/
  | number (zeroSign : Bool) (greatest : Nat)
  /-- One of the words. -/
  | word (words : List String)
  deriving DecidableEq, Repr

namespace ValueForm

def number? (zeroSign : Bool) (greatest : Nat) (text : String) : Option Nat :=
  (if zeroSign then signed? text else natural? text).filter (· ≤ greatest)

/-- Why a value does not have the form. -/
def fault? (form : ValueForm) (value : String) : Option UsageError :=
  let require (ok : Bool) (e : UsageError) : Option UsageError := if ok then none else some e
  match form with
  | text => none
  | path => require (value ≠ "") .unlistedValue
  | address => require (Http.Address.read? value).isSome .unreadableValue
  | number zeroSign greatest => require (number? zeroSign greatest value).isSome .unreadableValue
  | word words => require (value ∈ words) .unlistedValue

end ValueForm

inductive FlagRole where
  | value (form : ValueForm)
  | switch
  | help
  | version
  deriving DecidableEq, Repr

/-- A flag: its name, which follows two dashes, perhaps a letter, which follows one dash, perhaps a
variable of the environment, and what it does. -/
structure Flag where
  name : String
  letter : Option Char := none
  envName : Option String := none
  role : FlagRole
  deriving DecidableEq, Repr

namespace Flag

def help : Flag := { name := "help", letter := some 'h', role := .help }

def version : Flag := { name := "version", letter := some 'V', role := .version }

def form? (f : Flag) : Option ValueForm :=
  match f.role with
  | .value form => some form
  | _ => none

end Flag

abbrev Values := List (String × String)

def Values.get? (values : Values) (name : String) : Option String :=
  (values.find? fun v => v.1 = name).map (·.2)

/-- The flag whose value is still to be looked at. -/
structure OpenFlag where
  flag : Flag
  /-- The value, when it has been met. -/
  value : Option String
  deriving DecidableEq, Repr

/-- What has been read of a command line. -/
structure Reading where
  given : Values := []
  opened : Option OpenFlag := none
  deriving DecidableEq, Repr

namespace Reading

def take (r : Reading) (flag : Flag) (value : String) : Except UsageError Reading :=
  if (r.given.get? flag.name).isSome then .error .repeatedFlag
  else
    match flag.form?.bind (·.fault? value) with
    | some e => .error e
    | none => .ok { r with given := r.given ++ [(flag.name, value)] }

/-- Looks at the value that is still open. -/
def settle (r : Reading) : Except UsageError Reading :=
  match r.opened with
  | none => .ok r
  | some ⟨_, none⟩ => .error .missingValue
  | some ⟨flag, some value⟩ => { r with opened := none }.take flag value

/-- Whether the next argument is the value of a flag. -/
def wantsValue (r : Reading) : Bool :=
  match r.opened with
  | some ⟨_, none⟩ => true
  | _ => false

/-- Meets a flag, with the value attached to it, if there is one. -/
def meet (r : Reading) (flag : Flag) (attached : Option String) : Except UsageError Reading :=
  match flag.role, attached with
  | .value _, some value => do (← r.settle).take flag value
  | .value _, none => do return { ← r.settle with opened := some ⟨flag, none⟩ }
  | _, some _ => .error .needlessValue
  | .switch, none => do (← r.settle).take flag "true"
  | .help, none => do
    let _ ← r.settle
    .error .help
  | .version, none => do
    let _ ← r.settle
    .error .version

def meetName (r : Reading) (flags : List Flag) (text : List Char) : Except UsageError Reading :=
  let name := text.takeWhile (· ≠ '=')
  let attached :=
    match text.drop name.length with
    | _ :: value => some (String.ofList value)
    | [] => none
  match flags.find? fun f => f.name = String.ofList name with
  | some flag => r.meet flag attached
  | none => .error .unknownArgument

/-- Meets flags by their letters; a flag with a value takes what is left of the letters. -/
def meetLetters (r : Reading) (flags : List Flag) : List Char → Except UsageError Reading
  | [] => .ok r
  | c :: rest =>
    match flags.find? fun f => f.letter = some c with
    | none => .error .unknownArgument
    | some flag =>
      match flag.role, rest with
      | .value _, [] => r.meet flag none
      | .value _, '=' :: value => r.meet flag (some (String.ofList value))
      | .value _, value => r.meet flag (some (String.ofList value))
      | _, _ => do (← r.meet flag none).meetLetters flags rest

def meetArgument (r : Reading) (flags : List Flag) (argument : String) : Except UsageError Reading :=
  match argument.toList with
  | '-' :: '-' :: text => r.meetName flags text
  | '-' :: c :: rest => r.meetLetters flags (c :: rest)
  | _ =>
    match r.opened with
    | some ⟨flag, none⟩ => .ok { r with opened := some ⟨flag, some argument⟩ }
    | _ => .error .unknownArgument

end Reading

/-- A command with the arguments that follow it. -/
abbrev Subcommand := String × List String

/-- Reads arguments up to the first command. After two dashes alone there can be no flag, and so
nothing at all. -/
def readArguments (flags : List Flag) (commands : List String) (r : Reading) :
    List String → Except UsageError (Reading × Option Subcommand)
  | [] => .ok (r, none)
  | argument :: rest =>
    if argument ∈ commands ∧ !r.wantsValue then .ok (r, some (argument, rest))
    else if argument = "--" then
      if rest.isEmpty then .ok (r, none) else .error .unknownArgument
    else do readArguments flags commands (← r.meetArgument flags argument) rest

abbrev Environment := List (String × String)

def Environment.get? (env : Environment) (name : String) : Option String := env.lookup name

/-- What the environment says about the flags that were not given. -/
def fromEnvironment (env : Environment) (given : Values) : List Flag → Except UsageError Values
  | [] => .ok []
  | flag :: flags => do
    let value :=
      if (given.get? flag.name).isSome then none else flag.envName.bind env.get?
    match value with
    | none => fromEnvironment env given flags
    | some value =>
      match flag.form?.bind (·.fault? value) with
      | some e => .error e
      | none => return (flag.name, value) :: (← fromEnvironment env given flags)

/-- What a command line and an environment settle. -/
structure Choices where
  /-- From the command line. -/
  given : Values
  /-- From the environment. -/
  ambient : Values
  deriving DecidableEq, Repr

def Choices.get? (c : Choices) (name : String) : Option String :=
  (c.given.get? name).or (c.ambient.get? name)

/-- Ends the reading of a command line. -/
def Reading.finish (r : Reading) (flags : List Flag) (env : Environment) : Except UsageError Choices := do
  let r ← r.settle
  return ⟨r.given, ← fromEnvironment env r.given flags⟩

end Tenancy
