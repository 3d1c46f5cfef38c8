import Tenancy.Json.Schema

/-! # Typed values from documents

`Schema.decode` gives the normal form of the typed value that a document holds. The members of an
object are looked at in the order in which the document holds them, so that of several mismatches
the first in that order is reported.
-/

namespace Tenancy.Json

/-- The members that stand for the places missing at the end of a record in list form. -/
def missingPlaces (name : String) (fields : Fields) (index : Nat) :
    Fields → Except Mismatch (List (String × Json))
  | .nil => .ok []
  | .cons field absent _ _ rest => do
    let short : Mismatch := .wrongLength index (Schema.expectedPlaces name fields)
    let here ← match absent with
      | .refuse | .omitPlaced => .error short
      | .omit => .ok []
      | .fill v => .ok [(field, v)]
    return here ++ (← missingPlaces name fields (index + 1) rest)

/-- The text of a choice that was written as an object. -/
def decodeChoice (names : List String) : List (String × Json) → Except Mismatch Json
  | [(s, v)] =>
    if s ∈ names then
      if v.isNull then .ok (.string s) else .error (.wrongType (found v) "unit")
    else .error (.unknownVariant s names)
  | _ => .error (.wrongValue .table "map with a single key")

mutual

def decodeValue : Json → Schema → Except Mismatch Json
  | .array items, .document => .ok (.array items)
  | .array items, .list item => do return .array (← decodeItems items item)
  | .array items, .record (.declared name) fields => do
    return .object (← decodePlaces items items.length name fields 0 fields)
  | .array _, .choice _ => .error (.wrongType .list "string or map")
  | .array _, schema => .error (.wrongType .list schema.expected)
  | .object members, .document => .ok (.object members)
  | .object members, .table item => do return .object (ofMembers (← decodeTable members item))
  | .object members, .choice names => decodeChoice names members
  | .object members, .record layout fields => do
    return .object (← layout.complete fields (← decodeMembers members layout fields {}))
  | .object _, schema => .error (.wrongType .table schema.expected)
  | .string s, .choice names =>
    if s ∈ names then .ok (.string s) else .error (.unknownVariant s names)
  | v, schema => schema.accept v

/-- The normal forms of items of one type. -/
def decodeItems : List Json → Schema → Except Mismatch (List Json)
  | [], _ => .ok []
  | v :: rest, item => do
    let v ← decodeValue v item
    return v :: (← decodeItems rest item)

/-- The normal forms of members of one type. -/
def decodeTable : List (String × Json) → Schema → Except Mismatch (List (String × Json))
  | [], _ => .ok []
  | (name, v) :: rest, item => do
    let v ← decodeValue v item
    return (name, v) :: (← decodeTable rest item)

def decodeMembers : List (String × Json) → Layout → Fields → Members → Except Mismatch Members
  | [], _, _, members => .ok members
  | (name, v) :: rest, layout, fields, members =>
    match fields.find? name with
    | some field => do
      if layout.refusesRepeats ∧ (lookup name members.read).isSome then
        .error (.duplicate name)
      let v ← if field.takesNull ∧ v.isNull then .ok v else decodeValue v field.form
      field.form.checkLiteral v
      decodeMembers rest layout fields { members with read := (name, v) :: members.read }
    | none =>
      decodeMembers rest layout fields
        (match layout with
          | .gathered _ _ => { members with gathered := (name, v) :: members.gathered }
          | _ => members)

/-- The fields of a declared record in list form, from the one with the given index on. -/
def decodePlaces : List Json → Nat → String → Fields → Nat → Fields →
    Except Mismatch (List (String × Json))
  | [], _, name, all, index, fields => missingPlaces name all index fields
  | _ :: _, length, _, _, _, .nil => .error (.wrongLength length "fewer elements in array")
  | v :: rest, length, name, all, index, .cons field _ void form fields => do
    let here ←
      if v.isNull then
        match void.members? field with
        | some members => .ok members
        | none => do
          let v ← decodeValue v form
          .ok [(field, v)]
      else do
        let v ← decodeValue v form
        .ok [(field, v)]
    return here ++ (← decodePlaces rest length name all (index + 1) fields)

end

/-- The normal form of the typed value that a document holds. -/
def Schema.decode (schema : Schema) (document : Json) : Except Mismatch Json :=
  decodeValue document schema

end Tenancy.Json
