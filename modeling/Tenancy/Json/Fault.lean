import Tenancy.Json.Printer

/-! # Why a text or a document is refused

A `Flaw` is a break of the JSON grammar. A `Mismatch` is a well-formed document that does not have
the wanted shape. Each has one wording, and `Dialect` holds the two points in which the wordings of
the readers differ: what an absent value is called, and how a double is shown.
-/

namespace Tenancy.Json

/-- A break of the JSON grammar. -/
inductive Flaw where
  | endInValue
  | endInList
  | endInObject
  | endInString
  | expectedValue
  | expectedWord
  | expectedColon
  | expectedListEnd
  | expectedObjectEnd
  | keyNotText
  | trailingComma
  | trailingCharacters
  | invalidNumber
  | numberOutOfRange
  | invalidEscape
  | endOfHexEscape
  | loneSurrogate
  | invalidCodePoint
  | controlCharacter
  | tooDeep
  deriving DecidableEq, Repr

def Flaw.message : Flaw → String
  | .endInValue => "EOF while parsing a value"
  | .endInList => "EOF while parsing a list"
  | .endInObject => "EOF while parsing an object"
  | .endInString => "EOF while parsing a string"
  | .expectedValue => "expected value"
  | .expectedWord => "expected ident"
  | .expectedColon => "expected `:`"
  | .expectedListEnd => "expected `,` or `]`"
  | .expectedObjectEnd => "expected `,` or `\x7d`"
  | .keyNotText => "key must be a string"
  | .trailingComma => "trailing comma"
  | .trailingCharacters => "trailing characters"
  | .invalidNumber => "invalid number"
  | .numberOutOfRange => "number out of range"
  | .invalidEscape => "invalid escape"
  | .endOfHexEscape => "unexpected end of hex escape"
  | .loneSurrogate => "lone leading surrogate in hex escape"
  | .invalidCodePoint => "invalid unicode code point"
  | .controlCharacter => "control character (\\u0000-\\u001F) found while parsing a string"
  | .tooDeep => "recursion limit exceeded"

/-- What stands where something else was wanted. -/
inductive Found where
  | nothing
  | boolean (value : Bool)
  | integer (value : Int)
  /-- An integer that does not fit 64 bits. -/
  | wide (value : Int)
  | double (value : Double)
  | text (value : String)
  | list
  | table
  | variant
  deriving DecidableEq, Repr

/-- How a reader words what it found. -/
structure Dialect where
  /-- The name of an absent value. -/
  nothing : String
  /-- The layout of doubles. -/
  doubles : Decimal.Format

def jsonDialect : Dialect := ⟨"null", Decimal.documentFormat⟩

def Found.describe (words : Dialect) : Found → String
  | .nothing => words.nothing
  | .boolean b => "boolean " ++ Text.ticked (toString b)
  | .integer i => "integer " ++ Text.ticked (toString i)
  | .wide i => "integer " ++ Text.ticked (toString i) ++ (if 0 ≤ i then " as u128" else " as i128")
  | .double d => "floating point " ++ Text.ticked (words.doubles.render d)
  | .text s => "string " ++ Text.quote s
  | .list => "sequence"
  | .table => "map"
  | .variant => "enum"

/-- What a value already read is, as a finding. -/
def found : Json → Found
  | .null => .nothing
  | .bool b => .boolean b
  | .number (.integer i) => .integer i
  | .number (.double d) => .double d
  | .string s => .text s
  | .array _ => .list
  | .object _ => .table

/-- A document that does not have the wanted shape. -/
inductive Mismatch where
  | wrongType (found : Found) (expected : String)
  | wrongValue (found : Found) (expected : String)
  | wrongLength (length : Nat) (expected : String)
  | unknownVariant (name : String) (known : List String)
  | missing (field : String)
  | duplicate (field : String)
  | other (reason : String)
  deriving DecidableEq, Repr

/-- Names in a row: the one, the two, or one of all. -/
def oneOf : List String → String
  | [] => "there are no variants"
  | [a] => "expected " ++ Text.ticked a
  | [a, b] => "expected " ++ Text.ticked a ++ " or " ++ Text.ticked b
  | names => "expected one of " ++ String.intercalate ", " (names.map Text.ticked)

def Mismatch.message (words : Dialect) : Mismatch → String
  | .wrongType found expected =>
    "invalid type: " ++ found.describe words ++ ", expected " ++ expected
  | .wrongValue found expected =>
    "invalid value: " ++ found.describe words ++ ", expected " ++ expected
  | .wrongLength length expected =>
    "invalid length " ++ toString length ++ ", expected " ++ expected
  | .unknownVariant name known => "unknown variant " ++ Text.ticked name ++ ", " ++ oneOf known
  | .missing field => "missing field " ++ Text.ticked field
  | .duplicate field => "duplicate field " ++ Text.ticked field
  | .other reason => reason

/-- One step on the way from a document to a value in it. -/
inductive Step where
  | field (name : String)
  | index (n : Nat)
  deriving DecidableEq, Repr

/-- A way from a document to a value in it, such as `spec.items[2].name`. -/
def renderPath : List Step → String
  | [] => ""
  | .field name :: rest => name ++ go rest
  | .index n :: rest => "[" ++ toString n ++ "]" ++ go rest
where
  go : List Step → String
    | [] => ""
    | .field name :: rest => "." ++ name ++ go rest
    | .index n :: rest => "[" ++ toString n ++ "]" ++ go rest

/-- What made a reader stop. -/
inductive Cause where
  | flaw (flaw : Flaw)
  | mismatch (mismatch : Mismatch)
  deriving DecidableEq, Repr

/-- Whether the text itself is broken. -/
def Cause.isFlaw : Cause → Bool
  | .flaw _ => true
  | .mismatch _ => false

def Cause.message : Cause → String
  | .flaw f => f.message
  | .mismatch m => m.message jsonDialect

/-- Why reading stopped, where, and on the way to which value. The place is given by the number of
bytes of the text still ahead. -/
structure ReadError where
  cause : Cause
  ahead : Nat
  path : List Step := []
  deriving DecidableEq, Repr

/-- The same error, seen from one step further out. -/
def ReadError.within (step : Step) (e : ReadError) : ReadError := { e with path := step :: e.path }

/-- A place in a text: lines count from one, columns count the bytes since the last line break. -/
structure Position where
  line : Nat
  column : Nat
  deriving DecidableEq, Repr

def Position.after (bytes : List UInt8) : Position :=
  bytes.foldl (fun p b => if b = 0x0A then ⟨p.line + 1, 0⟩ else ⟨p.line, p.column + 1⟩) ⟨1, 0⟩

def Position.render (p : Position) : String :=
  "line " ++ toString p.line ++ " column " ++ toString p.column

/-- The wording of an error in a text, with its place. -/
def ReadError.message (text : List UInt8) (e : ReadError) : String :=
  let place := Position.after (text.take (text.length - e.ahead))
  e.cause.message ++ " at " ++ place.render

/-- The wording with the way to the value in front. -/
def ReadError.messageWithPath (text : List UInt8) (e : ReadError) : String :=
  if e.path.isEmpty then e.message text
  else renderPath e.path ++ ": " ++ e.message text

end Tenancy.Json
