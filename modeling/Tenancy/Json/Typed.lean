import Tenancy.Json.Reader
import Tenancy.Json.Schema

/-! # Reading typed texts

`Schema.read` turns the bytes of a JSON text into the normal form of a typed value. A mismatch of a
scalar is placed after it, one of a list or an object before it. What concerns a record as a whole,
such as a missing or a repeated field, is found while its bracket is open; the reader then still
takes the closing bracket, if it is the next thing there, and reports the place after that.
Members that no field describes are passed over with no more care than is needed to find their end.
-/

namespace Tenancy.Json

/-! ## Passing over values -/

/-- Passes over an escape after its backslash. -/
def skipEscape : Input → Attempt Input
  | [] => stop (.flaw .endInString) []
  | b :: rest =>
    if (shortEscape? b).isSome then .ok rest
    else if b = ascii 'u' then do
      let (_, rest) ← readQuad rest
      return rest
    else stop (.flaw .invalidEscape) rest

/-- Passes over a string after its opening quote. -/
def skipText : Nat → Input → Attempt Input
  | 0, _ => stop (.flaw .endInString) []
  | _ + 1, [] => stop (.flaw .endInString) []
  | fuel + 1, b :: rest =>
    if b = ascii '"' then .ok rest
    else if b = ascii '\\' then do
      let rest ← skipEscape rest
      skipText fuel rest
    else if b.toNat < 0x20 then stop (.flaw .controlCharacter) (b :: rest)
    else skipText fuel rest

/-- Passes over an exponent after its letter. -/
def skipExponent (input : Input) : Attempt Input :=
  let unsigned := match input with
    | b :: rest => if b = ascii '-' ∨ b = ascii '+' then rest else input
    | [] => []
  if startsWithDigit unsigned then .ok (unsigned.dropWhile isDigitByte)
  else stop (.flaw .invalidNumber) unsigned.tail

/-- Passes over an exponent, if there is one. -/
def skipScale : Input → Attempt Input
  | [] => .ok []
  | b :: rest => if b = ascii 'e' ∨ b = ascii 'E' then skipExponent rest else .ok (b :: rest)

/-- Passes over a number after its sign. -/
def skipNumber : Input → Attempt Input
  | [] => stop (.flaw .invalidNumber) []
  | b :: rest =>
    if !isDigitByte b then stop (.flaw .invalidNumber) rest
    else if b = ascii '0' ∧ startsWithDigit rest then stopAt .invalidNumber rest
    else
      match rest.dropWhile isDigitByte with
      | [] => .ok []
      | c :: rest =>
        if c = ascii '.' then
          if startsWithDigit rest then skipScale (rest.dropWhile isDigitByte)
          else stopAt .invalidNumber rest
        else skipScale (c :: rest)

/-- A container that is open while values are passed over. -/
inductive Bracket where
  | list
  | table
  deriving DecidableEq, Repr

def Bracket.close : Bracket → UInt8
  | .list => ascii ']'
  | .table => ascii '\x7d'

/-- The flaw of a text that ends within a container. -/
def Bracket.atEnd : Bracket → Flaw
  | .list => .endInList
  | .table => .endInObject

/-- The flaw of a container that goes on with neither a comma nor its end. -/
def Bracket.wanted : Bracket → Flaw
  | .list => .expectedListEnd
  | .table => .expectedObjectEnd

/-- Passes over the name of a member and its colon. -/
def skipName (input : Input) : Attempt Input :=
  match skipSpace input with
  | [] => stop (.flaw .endInObject) []
  | b :: rest =>
    if b = ascii '"' then do
      let rest ← skipText (rest.length + 1) rest
      readColon rest
    else stopAt .keyNotText (b :: rest)

/-- Passes over what comes before the next value in a container: a name in an object, in a list nothing. -/
def skipInto : Bracket → Input → Attempt Input
  | .list, input => .ok input
  | .table, input => skipName input

/-- Passes over a scalar that starts with the byte `b`. -/
def skipScalar (b : UInt8) (rest : Input) : Attempt Input :=
  if b = ascii '"' then skipText (rest.length + 1) rest
  else if b = ascii '-' then skipNumber rest
  else if isDigitByte b then skipNumber (b :: rest)
  else do
    let (_, rest) ← readScalar b rest
    return rest

mutual

/-- Passes over a value within the open containers. -/
def skipValue : Nat → List Bracket → Input → Attempt Input
  | 0, _, _ => stop (.flaw .endInValue) []
  | fuel + 1, opened, input =>
    match skipSpace input with
    | [] => stop (.flaw .endInValue) []
    | b :: rest =>
      if b = ascii '[' then skipNext fuel false (.list :: opened) rest
      else if b = ascii '\x7b' then skipNext fuel false (.table :: opened) rest
      else do
        let rest ← skipScalar b rest
        skipNext fuel true opened rest

/-- Goes on in the innermost open container, of which something has been passed over or nothing
yet. -/
def skipNext : Nat → Bool → List Bracket → Input → Attempt Input
  | 0, _, _, _ => stop (.flaw .endInValue) []
  | _ + 1, _, [], input => .ok input
  | fuel + 1, started, frame :: opened, input =>
    match skipSpace input with
    | [] => stop (.flaw frame.atEnd) []
    | b :: rest =>
      if b = frame.close then skipNext fuel true opened rest
      else if started ∧ b ≠ ascii ',' then stopAt frame.wanted (b :: rest)
      else do
        let input ← skipInto frame (if started then rest else b :: rest)
        skipValue fuel (frame :: opened) input

end

/-! ## Records -/

/-- Closes an object about which there is a complaint. -/
def complainTable {α : Type} (m : Mismatch) (input : Input) : Attempt α :=
  match skipSpace input with
  | b :: rest =>
    if b = ascii '\x7d' then stop (.mismatch m) rest else stop (.mismatch m) (b :: rest)
  | [] => stop (.mismatch m) []

/-- Closes a list about which there is a complaint. -/
def complainList {α : Type} (m : Mismatch) (input : Input) : Attempt α :=
  match skipSpace input with
  | b :: rest =>
    if b = ascii ']' then stop (.mismatch m) rest
    else if b = ascii ',' then stop (.mismatch m) (skipSpace rest)
    else stop (.mismatch m) (b :: rest)
  | [] => stop (.mismatch m) []

/-- Closes a list all of whose places have been read. -/
def closeList (input : Input) : Attempt Input :=
  match skipSpace input with
  | [] => stop (.flaw .endInList) []
  | b :: rest =>
    if b = ascii ']' then .ok rest
    else if b = ascii ',' then
      let after := skipSpace rest
      if after.head? = some (ascii ']') then stopAt .trailingComma after
      else stopAt .trailingCharacters after
    else stopAt .trailingCharacters (b :: rest)

/-- Reads a null, where the input is at one. -/
def readNull? (input : Input) : Attempt (Option (Json × Input)) :=
  match skipSpace input with
  | b :: rest =>
    if b = ascii 'n' then do
      let rest ← readWord (asciis "ull") rest
      return some (.null, rest)
    else return none
  | [] => return none

/-- Takes the value of a choice as written: a text, or an object with the text as its only name and
null as its value. -/
def readChoice (names : List String) (depth : Nat) (input : Input) : Attempt (Json × Input) :=
  let known (s : String) (rest : Input) : Attempt Unit :=
    if s ∈ names then .ok () else stop (.mismatch (.unknownVariant s names)) rest
  match skipSpace input with
  | [] => stop (.flaw .endInValue) []
  | b :: rest =>
    if b = ascii '"' then do
      let (s, rest) ← readText rest
      known s rest
      return (.string s, rest)
    else if b = ascii '\x7b' then
      if depth ≤ 1 then stopAt .tooDeep (b :: rest)
      else do
        let (s, rest) ← match skipSpace rest with
          | [] => stop (.flaw .endInValue) []
          | c :: rest =>
            if c = ascii '"' then readText rest
            else refuse "variant identifier" (c :: rest)
        known s rest
        let rest ← readColon rest
        let rest ← within (.field s) do
          match ← readNull? rest with
          | some (_, rest) => pure rest
          | none => refuse "unit" (skipSpace rest)
        match skipSpace rest with
        | [] => stop (.flaw .endInObject) []
        | c :: rest =>
          if c = ascii '\x7d' then return (.string s, rest)
          else stop (.flaw .expectedValue) (c :: rest)
    else stopAt .expectedValue (b :: rest)
where
  /-- Refuses what stands at the front. -/
  refuse {α : Type} (expected : String) : Input → Attempt α
    | [] => stop (.flaw .endInValue) []
    | b :: rest =>
      if b = ascii '[' then stop (.mismatch (.wrongType .list expected)) (b :: rest)
      else if b = ascii '\x7b' then stop (.mismatch (.wrongType .table expected)) (b :: rest)
      else do
        let (v, rest) ← readScalar b rest
        stop (.mismatch (.wrongType (found v) expected)) rest

mutual

def readTyped : Nat → Schema → Nat → Input → Attempt (Json × Input)
  | 0, _, _, _ => stop (.flaw .endInValue) []
  | fuel + 1, .document, depth, input => readDocument fuel depth input
  | _ + 1, .choice names, depth, input => readChoice names depth input
  | fuel + 1, schema, depth, input =>
    match skipSpace input with
    | [] => stop (.flaw .endInValue) []
    | b :: rest =>
      let deep : Bool := depth ≤ 1
      if b = ascii '[' then
        match schema with
        | .list item =>
          if deep then stopAt .tooDeep (b :: rest)
          else do
            let (items, rest) ← readListOf fuel item (depth - 1) 0 rest
            return (.array items, rest)
        | .record (.declared name) fields =>
          if deep then stopAt .tooDeep (b :: rest)
          else do
            let (outcome, rest) ← readPlaces fuel fields (depth - 1) 0 rest
            match outcome with
            | .ok members =>
              let rest ← closeList rest
              return (.object members, rest)
            | .error place =>
              complainList (.wrongLength place (Schema.expectedPlaces name fields)) rest
        | .record (.lenient name) _ =>
          if deep then stopAt .tooDeep (b :: rest)
          else complainList (.wrongType .list name) rest
        | _ => stop (.mismatch (.wrongType .list schema.expected)) (b :: rest)
      else if b = ascii '\x7b' then
        match schema with
        | .table item =>
          if deep then stopAt .tooDeep (b :: rest)
          else do
            let (members, rest) ← readTableOf fuel item (depth - 1) true rest
            return (.object (ofMembers members), rest)
        | .record layout fields =>
          if deep then stopAt .tooDeep (b :: rest)
          else do
            let (outcome, rest) ← readFields fuel layout fields (depth - 1) true {} rest
            match outcome with
            | .error m => complainTable m rest
            | .ok members =>
              match layout.complete fields members with
              | .error m => complainTable m rest
              | .ok members => return (.object members, rest.tail)
        | _ => stop (.mismatch (.wrongType .table schema.expected)) (b :: rest)
      else do
        let (v, rest) ← readScalar b rest
        match schema.accept v with
        | .ok v => return (v, rest)
        | .error m => stop (.mismatch m) rest

/-- Reads the items of a list of one type, and the closing bracket. -/
def readListOf : Nat → Schema → Nat → Nat → Input → Attempt (List Json × Input)
  | 0, _, _, _, _ => stop (.flaw .endInList) []
  | fuel + 1, item, depth, index, input => do
    let (more, input) ← within (.index index) (nextItem (index == 0) input)
    if more then
      let (v, rest) ← within (.index index) (readTyped fuel item depth input)
      let (vs, rest) ← readListOf fuel item depth (index + 1) rest
      return (v :: vs, rest)
    else
      return ([], input.tail)

/-- Reads the members of a table of one type, and the closing brace. -/
def readTableOf : Nat → Schema → Nat → Bool → Input → Attempt (List (String × Json) × Input)
  | 0, _, _, _, _ => stop (.flaw .endInObject) []
  | fuel + 1, item, depth, first, input => do
    let (more, input) ← nextMember first input
    if more then
      let (name, rest) ← readText input
      let (v, rest) ← within (.field name) do
        readTyped fuel item depth (← readColon rest)
      let (vs, rest) ← readTableOf fuel item depth false rest
      return ((name, v) :: vs, rest)
    else
      return ([], input.tail)

/-- Reads the value of a field, for which null may stand. -/
def readField : Nat → Field → Nat → Input → Attempt (Json × Input)
  | 0, _, _, _ => stop (.flaw .endInValue) []
  | fuel + 1, field, depth, input => do
    if field.takesNull then
      match ← readNull? input with
      | some result => return result
      | none => readTyped fuel field.form depth input
    else readTyped fuel field.form depth input

/-- Reads the members of a record, up to the closing brace or to a complaint about the record. -/
def readFields : Nat → Layout → Fields → Nat → Bool → Members → Input →
    Attempt (Except Mismatch Members × Input)
  | 0, _, _, _, _, _, _ => stop (.flaw .endInObject) []
  | fuel + 1, layout, fields, depth, first, members, input => do
    let (more, input) ← nextMember first input
    if !more then return (.ok members, input)
    let (name, rest) ← readText input
    match fields.find? name with
    | some field =>
      if layout.refusesRepeats ∧ (lookup name members.read).isSome then
        return (.error (.duplicate name), rest)
      let (v, rest) ← within (.field name) do
        readField fuel field depth (← readColon rest)
      match field.form.checkLiteral v with
      | .error m => return (.error m, rest)
      | .ok () =>
        let members := { members with read := (name, v) :: members.read }
        readFields fuel layout fields depth false members rest
    | none =>
      match layout with
      | .gathered _ _ =>
        let (v, rest) ← within (.field name) do
          readDocument fuel depth (← readColon rest)
        let members := { members with gathered := (name, v) :: members.gathered }
        readFields fuel layout fields depth false members rest
      | _ =>
        let rest ← within (.field name) do
          skipValue fuel [] (← readColon rest)
        readFields fuel layout fields depth false members rest

/-- Reads the fields of a declared record from its list form, up to the end of the fields, or to
the index of the first place that is missing. -/
def readPlaces : Nat → Fields → Nat → Nat → Input →
    Attempt (Except Nat (List (String × Json)) × Input)
  | 0, _, _, _, _ => stop (.flaw .endInList) []
  | _ + 1, .nil, _, _, input => return (.ok [], input)
  | fuel + 1, .cons name absent void form fields, depth, index, input => do
    let (more, input) ← within (.index index) (nextItem (index == 0) input)
    let here (members : Option (List (String × Json))) (input : Input) :
        Attempt (Except Nat (List (String × Json)) × Input) := do
      match members with
      | none => return (.error index, input)
      | some members =>
        let (later, input) ← readPlaces fuel fields depth (index + 1) input
        return (later.map (members ++ ·), input)
    if more then
      let (v, rest) ← within (.index index) (readField fuel ⟨name, absent, void, form⟩ depth input)
      here (if v.isNull then void.members? name else some [(name, v)]) rest
    else
      match absent with
      | .omitPlaced => here none input
      | _ => here (absent.members? name) input

end

/-- Fuel for reading a typed text: three steps for each byte. -/
def typedFuel (text : Input) : Nat := 3 * text.length + 3

/-- Reads a text that holds one typed value. -/
def Schema.read (schema : Schema) (text : Input) : Attempt Json := do
  let (value, rest) ← readTyped (typedFuel text) schema depthLimit text
  readEnd rest
  return value

end Tenancy.Json
