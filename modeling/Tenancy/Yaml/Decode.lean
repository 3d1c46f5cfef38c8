import Tenancy.Json.Decode
import Tenancy.Yaml.Document
import Tenancy.Yaml.Meaning

/-! # Typed values from YAML texts

`readYaml` gives the normal form of the typed value that a text holds. Only plain scalars can be
something else than a text, but where a text is wanted every scalar is one, as it is written. A
field may be left empty like an absent one. Aliases are followed, though not without end.

A mismatch is placed at the innermost node that was being read and knows a place; the text's own
break counts only when the reader comes to it.
-/

namespace Tenancy.Yaml

open Json (Schema Fields Field Layout Members Mismatch Found Step)

/-- The words of the YAML reader. -/
def dialect : Json.Dialect := ⟨"unit value", Decimal.proseFormat⟩

/-- Why a text gives no value. -/
inductive Refusal where
  /-- The text is broken. -/
  | broken (why : Break)
  /-- Something else was wanted; perhaps with the place and the way to it. -/
  | mismatch (mismatch : Mismatch) (place : Option (Mark × List Step))
  /-- There is nothing where something was wanted. -/
  | nothing
  | tooDeep (mark : Mark)
  | tooManyAliases
  | severalDocuments
  deriving DecidableEq, Repr

/-- A way to a value; from a list at the root it starts with a point. -/
def renderPath (path : List Step) : String :=
  match path with
  | .index _ :: _ => "." ++ Json.renderPath path
  | _ => Json.renderPath path

def Refusal.message : Refusal → String
  | .broken (.problem p) => p.message
  | .broken (.unknownAnchor mark) => "unknown anchor" ++ mark.suffix
  | .mismatch m none => m.message dialect
  | .mismatch m (some (mark, path)) =>
    (if path.isEmpty then "" else renderPath path ++ ": ") ++ m.message dialect ++ mark.suffix
  | .nothing => "EOF while parsing a value"
  | .tooDeep mark => "recursion limit exceeded" ++ mark.suffix
  | .tooManyAliases => "repetition limit exceeded"
  | .severalDocuments => "deserializing from YAML containing more than one document is not supported"

/-- The refusal with its place, where none is known yet. -/
def Refusal.placed (mark : Mark) (path : List Step) : Refusal → Refusal
  | .mismatch m none => .mismatch m (some (mark, path))
  | r => r

/-- Reading, which counts the aliases that have been followed. -/
abbrev Attempt := StateT Nat (Except Refusal)

namespace Attempt

def refuse {α : Type} (r : Refusal) : Attempt α := fun _ => .error r

/-- Refuses for a mismatch whose place is not known here. -/
def wrong {α : Type} (m : Mismatch) : Attempt α := refuse (.mismatch m none)

/-- What was found to be right. -/
def check {α : Type} : Except Mismatch α → Attempt α
  | .ok a => pure a
  | .error m => wrong m

/-- Gives a place to a mismatch without one. -/
def placed {α : Type} (mark : Mark) (path : List Step) (x : Attempt α) : Attempt α := fun n =>
  match x n with
  | .ok r => .ok r
  | .error r => .error (r.placed mark path)

end Attempt

open Attempt

/-- How many containers may be open at a time. -/
def depthLimit : Nat := 128

/-- Where a value stands: on the way from the root, and within how many more containers at most. -/
structure Spot where
  /-- The way, last step first. -/
  path : List Step := []
  depth : Nat := depthLimit

namespace Spot

def way (s : Spot) : List Step := s.path.reverse

/-- The spot of a value in a container at this spot. -/
def step (s : Spot) (step : Step) : Spot := ⟨step :: s.path, s.depth⟩

/-- The spot of the value of a member; a name that is no scalar is not told. -/
def member (s : Spot) : Node → Spot
  | .scalar _ _ _ name => s.step (.field name)
  | _ => s.step (.field "?")

end Spot

namespace Document

/-- Why a reader cannot go on where the tree is cut. -/
def ending (d : Document) : Refusal :=
  match d.broken with
  | some why => .broken why
  | none => .nothing

/-- How many aliases may be followed. -/
def aliasLimit (d : Document) : Nat := (max d.root.size 1) * 100

/-- The node behind an alias. -/
def follow (d : Document) (anchor : Nat) : Attempt Node := fun n =>
  if d.aliasLimit < n + 1 then .error .tooManyAliases else .ok (d.anchored anchor, n + 1)

def passOver (d : Document) (node : Node) : Attempt Unit :=
  if node.isCut then refuse d.ending else pure ()

end Document

/-! ## Nodes and what they are -/

/-- Refuses a node that is something else than what was wanted. -/
def unwanted {α : Type} (expected : String) : Node → Attempt α
  | .scalar _ tag style text => do
    let m ← check (Meaning.ofScalar tag style text)
    wrong (.wrongType m.found expected)
  | .list _ _ _ => wrong (.wrongType .list expected)
  | .table _ _ _ => wrong (.wrongType .table expected)
  | _ => refuse .nothing

/-- Whether a node can be taken for an empty container. -/
def isBlankNode : Node → Bool
  | .scalar _ _ .plain "" => true
  | .absent _ => true
  | _ => false

def saysNothing : Node → Except Mismatch Bool
  | .scalar _ none .plain text => .ok (text = "" ∨ saysNull text)
  | .scalar _ (some tag) .plain text =>
    if tag ≠ nullTag then .ok false
    else if saysNull text then .ok true
    else .error (.wrongValue (.text text) "null")
  | .absent _ => .ok true
  | _ => .ok false

/-- Whether a scalar can be something else than a text: if it is plain, or a literal with the tag of
the type. -/
def isOpen (typeTag : String) (tag : Option String) (style : Style) : Bool :=
  style = .plain ∨ (style = .literal ∧ tag = some typeTag)

/-- The scalar that stands in a document for what a schema wants. -/
def scalarValue? (schema : Schema) (tag : Option String) (style : Style) (text : String) :
    Option Json :=
  match schema with
  | .text | .literal _ | .timestamp | .pointer => some (.string text)
  | .boolean => if isOpen truthTag tag style then (truth? text).map .bool else none
  | .integer _ =>
    if isOpen integerTag tag style then
      match (integer? text.toList).bind Meaning.ofInteger? with
      | some (.integer i) => some (.int i)
      | _ => none
    else none
  | .double =>
    if isOpen doubleTag tag style then (double? text).map fun d => .number (.double d) else none
  | _ => none

def readScalar (schema : Schema) (node : Node) : Attempt Json :=
  match node with
  | .scalar _ tag style text =>
    match scalarValue? schema tag style text with
    | some v => check (schema.accept v)
    | none => unwanted schema.expected node
  | node => unwanted schema.expected node

/-- The value of a scalar of which nothing is known. -/
def valueOf : Meaning → Except Mismatch Json
  | .nothing => .ok .null
  | .truth b => .ok (.bool b)
  | .integer i => .ok (.int i)
  | .wide _ => .error (.other "JSON number out of range")
  | .double d => .ok (if d.isFinite then .number (.double d) else .null)
  | .text s => .ok (.string s)

def ownTag? : Node → Option String
  | .scalar _ tag _ _ | .list _ tag _ | .table _ tag _ => tag.filter isOwnTag
  | _ => none

def choiceName (tag : String) : String :=
  if tag = "!" then tag else String.ofList tag.toList.tail

/-- Refuses a name that is not one of a choice. -/
def oneOf (names : List String) (name : String) : Except Mismatch Unit :=
  if name ∈ names then .ok () else .error (.unknownVariant name names)

/-- Reads one of several names, as a scalar or as a tag with nothing behind it. -/
def readChoice (names : List String) (node : Node) : Attempt Json :=
  match ownTag? node, node with
  | some tag, node => do
    let name := choiceName tag
    check (oneOf names name)
    match node with
    | .scalar _ _ style text =>
      if style = .plain ∧ (text = "" ∨ saysNull text) then return .string name
      else wrong (.wrongValue (.text text) "null")
    | node => unwanted "unit" node
  | none, .scalar _ _ _ text => do
    check (oneOf names text)
    return .string text
  | none, node => unwanted "a YAML tag starting with '!'" node

/-- Reads within one more container. -/
def nested {α : Type} (mark : Mark) (spot : Spot) (read : Spot → Attempt α) : Attempt α :=
  match spot.depth with
  | 0 => refuse (.tooDeep mark)
  | depth + 1 => read { spot with depth }

/-- How many items a list should have had. -/
def expectedItems (n : Nat) : String :=
  "sequence of " ++ toString n ++ (if n = 1 then " element" else " elements")

mutual

def readName : Nat → Document → String → Spot → Node → Attempt String
  | 0, d, _, _, _ => refuse d.ending
  | fuel + 1, d, expected, spot, node =>
    match node with
    | .cut => refuse d.ending
    | .alias _ anchor => do readName fuel d expected spot (← d.follow anchor)
    | .scalar _ _ _ text => pure text
    | node => placed node.mark spot.way (unwanted expected node)

/-- Reads a node of which nothing is known. -/
def readAny : Nat → Document → Spot → Node → Attempt Json
  | 0, d, _, _ => refuse d.ending
  | fuel + 1, d, spot, node =>
    match node with
    | .cut => refuse d.ending
    | .absent _ => return .null
    | .alias _ anchor => do readAny fuel d spot (← d.follow anchor)
    | node => placed node.mark spot.way do
      if (ownTag? node).isSome then
        wrong (.wrongType .variant Schema.document.expected)
      else
        match node with
        | .scalar _ tag style text => do check (valueOf (← check (Meaning.ofScalar tag style text)))
        | .list mark _ items => nested mark spot fun spot => do
          return .array (← readAnyItems fuel d spot 0 items)
        | .table mark _ members => nested mark spot fun spot => do
          return .object (Json.ofMembers (← readAnyMembers fuel d spot true members))
        | node => unwanted Schema.document.expected node

def readAnyItems : Nat → Document → Spot → Nat → List Node → Attempt (List Json)
  | 0, d, _, _, _ => refuse d.ending
  | _ + 1, _, _, _, [] => return []
  | fuel + 1, d, spot, index, node :: rest => do
    let v ← readAny fuel d (spot.step (.index index)) node
    return v :: (← readAnyItems fuel d spot (index + 1) rest)

def readAnyMembers : Nat → Document → Spot → Bool → List (Node × Node) →
    Attempt (List (String × Json))
  | 0, d, _, _, _ => refuse d.ending
  | _ + 1, _, _, _, [] => return []
  | fuel + 1, d, spot, first, (key, value) :: rest => do
    let name ← readName fuel d (if first then "a string key" else "a string") spot key
    let v ← readAny fuel d (spot.member key) value
    return (name, v) :: (← readAnyMembers fuel d spot false rest)

def readTyped : Nat → Document → Schema → Spot → Node → Attempt Json
  | 0, d, _, _, _ => refuse d.ending
  | fuel + 1, d, .document, spot, node => readAny fuel d spot node
  | fuel + 1, d, schema, spot, node =>
    match node with
    | .cut => refuse d.ending
    | .alias _ anchor => do readTyped fuel d schema spot (← d.follow anchor)
    | node => placed node.mark spot.way <|
      match schema, node with
      | .choice names, node => readChoice names node
      | .list item, .list mark _ items => nested mark spot fun spot => do
        return .array (← readItems fuel d item spot 0 items)
      | .list _, node =>
        if isBlankNode node then return .array [] else unwanted schema.expected node
      | .table item, .table mark _ members => nested mark spot fun spot => do
        return .object (Json.ofMembers (← readTable fuel d item spot members))
      | .table _, node =>
        if isBlankNode node then return .object [] else unwanted schema.expected node
      | .record layout fields, .table mark _ members => nested mark spot fun spot => do
        let read ← readFields fuel d layout fields spot {} members
        return .object (← check (layout.complete fields read))
      | .record (.declared name) fields, .list mark _ items => nested mark spot fun spot => do
        let read ← readPlaces fuel d name fields spot 0 fields items
        if fields.length < items.length then
          check (.error (.wrongLength items.length (expectedItems fields.length)))
        return .object read
      | .record layout fields, node =>
        if isBlankNode node then do return .object (← check (layout.complete fields {}))
        else unwanted schema.expected node
      | schema, node => readScalar schema node

def readItems : Nat → Document → Schema → Spot → Nat → List Node → Attempt (List Json)
  | 0, d, _, _, _, _ => refuse d.ending
  | _ + 1, _, _, _, _, [] => return []
  | fuel + 1, d, item, spot, index, node :: rest => do
    let v ← readTyped fuel d item (spot.step (.index index)) node
    return v :: (← readItems fuel d item spot (index + 1) rest)

def readTable : Nat → Document → Schema → Spot → List (Node × Node) → Attempt (List (String × Json))
  | 0, d, _, _, _ => refuse d.ending
  | _ + 1, _, _, _, [] => return []
  | fuel + 1, d, item, spot, (key, value) :: rest => do
    let name ← readName fuel d "a string" spot key
    let v ← readTyped fuel d item (spot.member key) value
    return (name, v) :: (← readTable fuel d item spot rest)

/-- Reads the value of a field, which may say that there is none. -/
def readField : Nat → Document → Field → Spot → Node → Attempt Json
  | 0, d, _, _, _ => refuse d.ending
  | fuel + 1, d, field, spot, node =>
    if !field.takesNull then readTyped fuel d field.form spot node
    else
      match node with
      | .cut => refuse d.ending
      | .alias _ anchor => do readField fuel d field spot (← d.follow anchor)
      | node => do
        if ← check (saysNothing node) then return .null
        readTyped fuel d field.form spot node

def readFields : Nat → Document → Layout → Fields → Spot → Members → List (Node × Node) →
    Attempt Members
  | 0, d, _, _, _, _, _ => refuse d.ending
  | _ + 1, _, _, _, _, members, [] => return members
  | fuel + 1, d, layout, fields, spot, members, (key, value) :: rest => do
    let name ← readName fuel d "field identifier" spot key
    match fields.find? name with
    | some field =>
      if layout.refusesRepeats ∧ (Json.lookup name members.read).isSome then
        wrong (.duplicate name)
      let v ← readField fuel d field (spot.member key) value
      check (field.form.checkLiteral v)
      readFields fuel d layout fields spot { members with read := (name, v) :: members.read } rest
    | none =>
      match layout with
      | .gathered _ _ =>
        let v ← readAny fuel d (spot.member key) value
        let members := { members with gathered := (name, v) :: members.gathered }
        readFields fuel d layout fields spot members rest
      | _ =>
        d.passOver value
        readFields fuel d layout fields spot members rest

/-- Reads the fields of a declared record from its list form. What stands behind the last field is
passed over. -/
def readPlaces : Nat → Document → String → Fields → Spot → Nat → Fields → List Node →
    Attempt (List (String × Json))
  | 0, d, _, _, _, _, _, _ => refuse d.ending
  | _ + 1, d, _, _, _, _, .nil, items =>
    if Node.anyCut items then refuse d.ending else return []
  | _ + 1, _, name, all, _, index, fields, [] => check (Json.missingPlaces name all index fields)
  | fuel + 1, d, name, all, spot, index, .cons field absent void form fields, node :: rest => do
    let v ← readField fuel d ⟨field, absent, void, form⟩ (spot.step (.index index)) node
    let here := if v.isNull then (void.members? field).getD [(field, v)] else [(field, v)]
    return here ++ (← readPlaces fuel d name all spot (index + 1) fields rest)

end

/-- Fuel for reading a document: a container takes no more steps than there are nodes, and no more
containers are open than the limit says. -/
def Document.fuel (d : Document) : Nat := 3 * (depthLimit + 2) * (d.root.size + 4)

end Tenancy.Yaml

namespace Tenancy

/-- Reads the typed value that a YAML text holds. -/
def Json.Schema.readYaml (schema : Json.Schema) (text : List Char) : Except Yaml.Refusal Json := do
  let d := Yaml.Document.ofText text
  let (value, _) ← Yaml.readTyped d.fuel d schema {} d.root 0
  match d.broken with
  | some why => .error (.broken why)
  | none => if d.followed then .error .severalDocuments else .ok value

end Tenancy
