import Tenancy.Json.Fault
import Tenancy.Json.Pointer
import Tenancy.Timestamp

/-! # Schemas

A schema describes the wire form of a typed value. Three readers follow it: one reads JSON texts,
one reads documents, one reads YAML. What each gives is the *normal form* of the value: the members
of a record in the order of the schema's fields, absent ones left out or filled in as the field
says, unknown ones dropped.
-/

namespace Tenancy.Json

/-- What becomes of a field that is absent or null. -/
inductive Gap where
  /-- An error. -/
  | refuse
  /-- The normal form does not have the field. -/
  | omit
  /-- The same, though the list form of the record must hold a place for the field. -/
  | omitPlaced
  /-- The normal form has this value. -/
  | fill (value : Json)
  deriving Repr

/-- The members that stand for a field in a gap; nothing where the gap is refused. -/
def Gap.members? (name : String) : Gap → Option (List (String × Json))
  | .refuse => none
  | .omit | .omitPlaced => some []
  | .fill v => some [(name, v)]

structure IntegerRange where
  name : String
  least : Int
  greatest : Int
  deriving Repr

/-- What a record does with its type metadata, the members `apiVersion` and `kind`, and with
members that no field describes. -/
inductive Surplus where
  /-- Every member that no field describes is skipped. -/
  | skip
  /-- The type metadata are required texts; the rest is skipped. -/
  | typed
  /-- The type metadata are used if both are texts, else these stand in; the rest is skipped. -/
  | typedOr (apiVersion kind : String)
  /-- The type metadata are kept if both are texts, and the rest is kept as it is. -/
  | keep
  deriving Repr

inductive Layout where
  /-- A record that may also be written as the list of its fields, each at most once. -/
  | declared (name : String)
  /-- A record whose last member of a name counts. -/
  | lenient (name : String)
  /-- A record that gathers the members which none of its fields describes. -/
  | gathered (name : String) (surplus : Surplus)
  deriving Repr

mutual

/-- The wire form of a typed value. -/
inductive Schema where
  /-- Any document. -/
  | document
  | text
  | boolean
  | double
  | integer (range : IntegerRange)
  /-- A date and time, kept in whole seconds of universal time. -/
  | timestamp
  /-- A pointer into a document. -/
  | pointer
  /-- One text, which names the type of a record. -/
  | literal (value : String)
  | list (item : Schema)
  | table (item : Schema)
  /-- One of several names. -/
  | choice (names : List String)
  | record (layout : Layout) (fields : Fields)

/-- The fields of a record: name, what happens when it is absent, what happens when it is null,
and the form of its value. -/
inductive Fields where
  | nil
  | cons (name : String) (absent void : Gap) (form : Schema) (rest : Fields)

end

structure Field where
  name : String
  absent : Gap
  void : Gap
  form : Schema

namespace Fields

def toList : Fields → List Field
  | .nil => []
  | .cons name absent void form rest => ⟨name, absent, void, form⟩ :: rest.toList

def ofList : List Field → Fields
  | [] => .nil
  | f :: rest => .cons f.name f.absent f.void f.form (ofList rest)

def length : Fields → Nat
  | .nil => 0
  | .cons _ _ _ _ rest => rest.length + 1

def find? (name : String) : Fields → Option Field
  | .nil => none
  | .cons key absent void form rest =>
    if key = name then some ⟨key, absent, void, form⟩ else rest.find? name

/-- The normal form of a record from what was read for its fields. A null that was read stands for
the field's own null. -/
def assemble (read : List (String × Json)) : Fields → Except Mismatch (List (String × Json))
  | .nil => .ok []
  | .cons name absent void _ rest => do
    let fillGap (gap : Gap) : Except Mismatch (List (String × Json)) :=
      match gap.members? name with
      | some members => .ok members
      | none => .error (.missing name)
    let head ← match lookup name read with
      | none => fillGap absent
      | some .null => fillGap void
      | some v => .ok [(name, v)]
    return head ++ (← rest.assemble read)

end Fields

def Field.required (name : String) (form : Schema) : Field := ⟨name, .refuse, .refuse, form⟩

/-- The field may be absent or null, which is the same. -/
def Field.optional (name : String) (form : Schema) : Field := ⟨name, .omit, .omit, form⟩

/-- The same, though the list form of the record must hold a place for the field. -/
def Field.optionalPlaced (name : String) (form : Schema) : Field := ⟨name, .omitPlaced, .omit, form⟩

/-- The field may be absent, and then has the value `v`; null is refused. -/
def Field.filled (name : String) (v : Json) (form : Schema) : Field := ⟨name, .fill v, .refuse, form⟩

/-- The field may be absent or null, and then has the value `v`. -/
def Field.lenient (name : String) (v : Json) (form : Schema) : Field := ⟨name, .fill v, .fill v, form⟩

/-- Whether a null stands for the field's absence instead of being read as its value. -/
def Field.takesNull (f : Field) : Bool :=
  match f.void with
  | .refuse => false
  | _ => true

/-- Whether a member that comes a second time is an error. -/
def Layout.refusesRepeats : Layout → Bool
  | .lenient _ => false
  | .declared _ | .gathered _ _ => true

namespace Schema

def expected : Schema → String
  | .document => "any valid JSON value"
  | .text => "a string"
  | .boolean => "a boolean"
  | .double => "f64"
  | .integer range => range.name
  | .timestamp => "an RFC 3339 formatted date and time string"
  | .pointer => "a string"
  | .literal _ => "a string"
  | .list _ => "a sequence"
  | .table _ => "a map"
  | .choice _ => "string or map"
  | .record (.declared name) _ => "struct " ++ name
  | .record (.lenient name) _ => name
  | .record (.gathered name _) _ => "struct " ++ name

/-- What a declared record in list form should have been. -/
def expectedPlaces (name : String) (fields : Fields) : String :=
  let n := fields.length
  "struct " ++ name ++ " with " ++ toString n ++ (if n = 1 then " element" else " elements")

/-- The normal form of an integer in a range. -/
def acceptInteger (range : IntegerRange) : Json → Except Mismatch Json
  | .number (.integer i) =>
    if range.least ≤ i ∧ i ≤ range.greatest then .ok (int i)
    else .error (.wrongValue (.integer i) range.name)
  | v => .error (.wrongType (found v) range.name)

/-- The normal form of a scalar. Lists, tables and records have none, and neither have the choices,
which each reader treats in its own way. -/
def accept (schema : Schema) (v : Json) : Except Mismatch Json :=
  match schema, v with
  | .document, v => .ok v
  | .text, .string s => .ok (.string s)
  | .literal _, .string s => .ok (.string s)
  | .boolean, .bool b => .ok (.bool b)
  | .double, .number n => .ok (.number (.double ((Json.number n).double?.getD (Double.zero false))))
  | .integer range, v => acceptInteger range v
  | .timestamp, .string s =>
    match Timestamp.normalize s with
    | .ok t => .ok (.string t)
    | .error e => .error (.other e.message)
  | .pointer, .string s =>
    match Pointer.read s with
    | .ok _ => .ok (.string s)
    | .error e => .error (.other e.message)
  | schema, v => .error (.wrongType (found v) schema.expected)

/-- A field with a literal form refuses every other text. -/
def checkLiteral (schema : Schema) (v : Json) : Except Mismatch Unit :=
  match schema, v with
  | .literal wanted, .string s =>
    if s = wanted then .ok () else .error (.wrongValue (.text s) wanted)
  | _, _ => .ok ()

end Schema

/-- What is left of the gathered members when the type metadata are taken out: of each kind, the
first member that is of no use ends the search. -/
def takeTypes (members : List (String × Json)) :
    Except Mismatch (String × String) × List (String × Json) :=
  go none none members
where
  /-- Goes through the members with what was found of each. -/
  go (version kind : Option String) :
      List (String × Json) → Except Mismatch (String × String) × List (String × Json)
    | [] =>
      match version, kind with
      | some v, some k => (.ok (v, k), [])
      | none, _ => (.error (.missing "apiVersion"), [])
      | _, none => (.error (.missing "kind"), [])
    | (name, value) :: rest =>
      if name = "apiVersion" then
        match version, value with
        | some _, _ => (.error (.duplicate "apiVersion"), rest)
        | none, .string s => go (some s) kind rest
        | none, v => (.error (.wrongType (found v) "a string"), rest)
      else if name = "kind" then
        match kind, value with
        | some _, _ => (.error (.duplicate "kind"), rest)
        | none, .string s => go version (some s) rest
        | none, v => (.error (.wrongType (found v) "a string"), rest)
      else
        let (types, left) := go version kind rest
        (types, (name, value) :: left)

/-- The normal form of a gathered record from its fields and its surplus. -/
def Surplus.complete (surplus : Surplus) (gathered fields : List (String × Json)) :
    Except Mismatch (List (String × Json)) :=
  let types (v k : String) : List (String × Json) := [("apiVersion", .string v), ("kind", .string k)]
  let (taken, left) := takeTypes gathered
  match surplus with
  | .skip => .ok fields
  | .typed => do
    let (v, k) ← taken
    return types v k ++ fields
  | .typedOr v k =>
    match taken with
    | .ok (v, k) => .ok (types v k ++ fields)
    | .error _ => .ok (types v k ++ fields)
  | .keep =>
    match taken with
    | .ok (v, k) => .ok (types v k ++ fields ++ ofMembers left)
    | .error _ => .ok (fields ++ ofMembers left)

/-- What was read of a record: its fields and the members gathered, both last first. -/
structure Members where
  read : List (String × Json) := []
  gathered : List (String × Json) := []

/-- The normal form of a record from its members. -/
def Layout.complete (layout : Layout) (fields : Fields) (members : Members) :
    Except Mismatch (List (String × Json)) := do
  let known ← fields.assemble members.read
  match layout with
  | .declared _ | .lenient _ => return known
  | .gathered _ surplus => surplus.complete members.gathered.reverse known

end Tenancy.Json
