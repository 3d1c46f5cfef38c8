import Tenancy.Json.Decode

/-! # Patches

A patch is a list of operations on places of a document. `diff` gives a patch from one document to
another and `carryOut?` carries one out, each operation on the result of those before it.
-/

namespace Tenancy.Json

/-- One change, or one test, at a place of a document. -/
inductive Operation where
  | add (path : Pointer) (value : Json)
  | remove (path : Pointer)
  | replace (path : Pointer) (value : Json)
  | move (source path : Pointer)
  | copy (source path : Pointer)
  | test (path : Pointer) (value : Json)
  deriving Repr

abbrev Patch := List Operation

namespace Operation

def names : List String := ["add", "remove", "replace", "move", "copy", "test"]

/-- An operation as a document, its name first. -/
def toJson : Operation → Json
  | .add path value =>
    .object [("op", .string "add"), ("path", .string path.render), ("value", value)]
  | .remove path => .object [("op", .string "remove"), ("path", .string path.render)]
  | .replace path value =>
    .object [("op", .string "replace"), ("path", .string path.render), ("value", value)]
  | .move source path =>
    .object [("op", .string "move"), ("from", .string source.render), ("path", .string path.render)]
  | .copy source path =>
    .object [("op", .string "copy"), ("from", .string source.render), ("path", .string path.render)]
  | .test path value =>
    .object [("op", .string "test"), ("path", .string path.render), ("value", value)]

def fields (name : String) : List Field :=
  let value : Field := ⟨"value", .refuse, .fill .null, .document⟩
  if name ∈ ["add", "replace", "test"] then [.required "path" .pointer, value]
  else if name ∈ ["move", "copy"] then [.required "from" .pointer, .required "path" .pointer]
  else [.required "path" .pointer]

def ofFields (name : String) (members : List (String × Json)) : Operation :=
  let place (field : String) : Pointer :=
    match (lookup field members).bind text? with
    | some s => (Pointer.read s).toOption.getD .root
    | none => .root
  let path := place "path"
  let value := (lookup "value" members).getD .null
  if name = "add" then .add path value
  else if name = "replace" then .replace path value
  else if name = "test" then .test path value
  else if name = "move" then .move (place "from") path
  else if name = "copy" then .copy (place "from") path
  else .remove path

/-- The name of the operation that a document holds, and the rest of the document. -/
def decodeName : Json → Except Mismatch (String × Json)
  | .object members =>
    match lookup "op" members with
    | none => .error (.missing "op")
    | some name => do return (← known name, .object (erase "op" members))
  | .array [] => .error (.missing "op")
  | .array (name :: rest) => do return (← known name, .array rest)
  | j => .error (.wrongType (found j) "internally tagged enum PatchOperation")
where
  /-- The name, if it is one of an operation. -/
  known : Json → Except Mismatch String
    | .string s => if s ∈ names then .ok s else .error (.unknownVariant s names)
    | j => .error (.wrongType (found j) "variant identifier")

def decode (j : Json) : Except Mismatch Operation := do
  let (name, rest) ← decodeName j
  let form : Schema := .record (.declared (name.capitalize ++ "Operation")) (.ofList (fields name))
  match ← form.decode rest with
  | .object members => return ofFields name members
  | _ => return ofFields name []

end Operation

namespace Patch

def toJson (p : Patch) : Json := .array (p.map Operation.toJson)

def decode : Json → Except Mismatch Patch
  | .array items => items.mapM Operation.decode
  | j => .error (.wrongType (found j) "a sequence")

end Patch

/-! ## Carrying out -/

/-- Puts a value at a token of a container; in a list the items from there on move up. -/
def addChild? (value : Json) (token : String) : Json → Option Json
  | .object members => some (.object (insert token value members))
  | .array items =>
    if token = "-" then some (.array (items ++ [value]))
    else do
      let i ← index? token
      if i ≤ items.length then some (.array (items.insertIdx i value)) else none
  | _ => none

/-- Takes the value at a token out of a container. -/
def removeChild? (token : String) : Json → Option Json
  | .object members =>
    if (lookup token members).isSome then some (.object (erase token members)) else none
  | .array items => do
    let i ← index? token
    if i < items.length then some (.array (items.eraseIdx i)) else none
  | _ => none

def add? (value : Json) : List String → Json → Option Json
  | [], _ => some value
  | token :: rest, j => edit? (addChild? value) token rest j

/-- The document without the value at a place. -/
def remove? : List String → Json → Option Json
  | [], _ => some .null
  | token :: rest, j => edit? removeChild? token rest j

/-- Puts a value at a token of a container in exchange for the one there. -/
def replaceChild? (value : Json) (token : String) (container : Json) : Option Json := do
  let _ ← container.child? token
  container.setChild? token value

/-- The document with a value in exchange for the one at a place. -/
def replace? (value : Json) : List String → Json → Option Json
  | [], _ => some value
  | token :: rest, j => edit? (replaceChild? value) token rest j

/-- Why an operation cannot be carried out. -/
inductive Operation.Refusal where
  /-- A test found another value. -/
  | otherValue
  /-- There is nothing where a value should be taken from. -/
  | noSource
  /-- There is no such place. -/
  | noPlace
  /-- A value would be moved into itself. -/
  | intoItself
  deriving DecidableEq, Repr

namespace Operation

def Refusal.message : Refusal → String
  | .otherValue => "value did not match"
  | .noSource => "\"from\" path is invalid"
  | .noPlace => "path is invalid"
  | .intoItself => "cannot move the value inside itself"

/-- What is there, or the refusal for want of it. -/
def Refusal.unless (refusal : Refusal) : Option Json → Except Refusal Json
  | some value => .ok value
  | none => .error refusal

/-- The place that an operation changes or tests. -/
def path : Operation → Pointer
  | .add path _ | .remove path | .replace path _ | .move _ path | .copy _ path | .test path _ => path

def carryOut (document : Json) : Operation → Except Refusal Json
  | .add path value => Refusal.noPlace.unless (add? value path.tokens document)
  | .remove path => Refusal.noPlace.unless (remove? path.tokens document)
  | .replace path value => Refusal.noPlace.unless (replace? value path.tokens document)
  | .move source path => do
    if source.tokens.isPrefixOf path.tokens ∧ source ≠ path then .error .intoItself
    let value ← Refusal.noSource.unless (at? source.tokens document)
    let left ← Refusal.noSource.unless (remove? source.tokens document)
    Refusal.noPlace.unless (add? value path.tokens left)
  | .copy source path => do
    let value ← Refusal.noSource.unless (at? source.tokens document)
    Refusal.noPlace.unless (add? value path.tokens document)
  | .test path value => do
    let held ← Refusal.noPlace.unless (at? path.tokens document)
    if held = value then .ok document else .error .otherValue

/-- The document after an operation, if it can be carried out. -/
def carryOut? (document : Json) (op : Operation) : Option Json := (op.carryOut document).toOption

end Operation

/-- Where a patch came to a stop. -/
structure PatchError where
  /-- How many operations had been carried out. -/
  index : Nat
  path : Pointer
  refusal : Operation.Refusal
  deriving DecidableEq, Repr

def PatchError.message (e : PatchError) : String :=
  "operation '/" ++ toString e.index ++ "' failed at path '" ++ e.path.render ++ "': " ++ e.refusal.message

/-- Carries out a patch, of which so many operations came before. -/
def Patch.carryOutFrom (index : Nat) (document : Json) : Patch → Except PatchError Json
  | [] => .ok document
  | op :: rest =>
    match op.carryOut document with
    | .ok next => carryOutFrom (index + 1) next rest
    | .error refusal => .error ⟨index, op.path, refusal⟩

/-- Carries out a patch, up to the first operation that is refused. -/
def Patch.carryOut (document : Json) (patch : Patch) : Except PatchError Json :=
  patch.carryOutFrom 0 document

/-- The document after a patch, if all of it can be carried out. -/
def Patch.carryOut? (document : Json) (patch : Patch) : Option Json := (patch.carryOut document).toOption

/-! ## Comparing -/

/-- The members of the old document that the new one does not have, as operations. -/
def removals (path : Pointer) (old new : List (String × Json)) : Patch :=
  (old.filter fun m => (lookup m.1 new).isNone).map fun m => .remove (path.push m.1)

mutual

/-- The patch from the old value at a place to the new one. -/
def diffAt (path : Pointer) (old : Json) : Json → Patch
  | .object new =>
    match old with
    | .object members => diffMembers path members new ++ removals path members new
    | _ => [.replace path (.object new)]
  | .array new =>
    match old with
    | .array items => diffItems path 0 items new
    | _ => [.replace path (.array new)]
  | new => if old = new then [] else [.replace path new]

/-- The operations for the members of the new document. -/
def diffMembers (path : Pointer) (old : List (String × Json)) : List (String × Json) → Patch
  | [] => []
  | (name, value) :: rest =>
    let here : Patch :=
      match lookup name old with
      | some before => diffAt (path.push name) before value
      | none => [.add (path.push name) value]
    here ++ diffMembers path old rest

/-- The operations for the items of two lists from the given index on. Items that the new list does not have
are all removed at its end, where the later ones move up. -/
def diffItems (path : Pointer) (index : Nat) (old : List Json) : List Json → Patch
  | [] => old.map fun _ => .remove (path.push (toString index))
  | value :: rest =>
    match old with
    | before :: others =>
      diffAt (path.push (toString index)) before value ++ diffItems path (index + 1) others rest
    | [] => .add (path.push (toString index)) value :: diffItems path (index + 1) [] rest

end

/-- A patch from one document to another: objects are compared member by member, lists item by item, and
anything else that differs is replaced. -/
def diff (old new : Json) : Patch := diffAt .root old new

end Tenancy.Json
