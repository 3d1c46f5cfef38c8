import Tenancy.Decimal.Nearest
import Tenancy.Json.Fault
import Tenancy.Yaml.Scalar

/-! # What plain scalars stand for

A plain scalar is null, a boolean, an integer, a double or a text. Integers may be written in four
bases; several digits of which the first is zero are a text, and so is a number too large for a
double.
-/

namespace Tenancy.Yaml

inductive Meaning where
  | nothing
  | truth (value : Bool)
  | integer (value : Int)
  /-- An integer that does not fit 64 bits. -/
  | wide (value : Int)
  | double (value : Double)
  | text (value : String)
  deriving DecidableEq, Repr

def saysNull (s : String) : Bool := s ∈ ["null", "Null", "NULL", "~"]

/-- The boolean that a text says. -/
def truth? (s : String) : Option Bool :=
  if s ∈ ["true", "True", "TRUE"] then some true
  else if s ∈ ["false", "False", "FALSE"] then some false
  else none

def withoutSign : List Char → List Char
  | c :: rest => if c = '+' ∨ c = '-' then rest else c :: rest
  | [] => []

/-- Whether the text is of several digits of which the first is zero. -/
def hasNeedlessZero (text : List Char) : Bool :=
  match withoutSign text with
  | '0' :: c :: rest => (c :: rest).all Char.isDigit
  | _ => false

def marked? : List Char → Option Nat
  | '0' :: 'x' :: digits => Text.number? 16 digits
  | '0' :: 'o' :: digits => Text.number? 8 digits
  | '0' :: 'b' :: digits => Text.number? 2 digits
  | _ => none

/-- The number that a text without a sign says. -/
def magnitude? (text : List Char) : Option Nat :=
  (marked? text).or (if hasNeedlessZero text then none else Text.number? 10 text)

def integer? (text : List Char) : Option Int :=
  match text with
  | '+' :: digits => (magnitude? digits).map Int.ofNat
  | '-' :: digits => (magnitude? digits).map fun n => -(n : Int)
  | digits => (magnitude? digits).map Int.ofNat

/-- The exponent that ends a number, where there is one. -/
def exponent? : List Char → Option Int
  | [] => some 0
  | c :: rest =>
    if c = 'e' ∨ c = 'E' then
      match rest with
      | '-' :: digits => (Text.number? 10 digits).map fun n => -(n : Int)
      | '+' :: digits => (Text.number? 10 digits).map Int.ofNat
      | digits => (Text.number? 10 digits).map Int.ofNat
    else none

/-- The double that digits say, with a point or an exponent, or both; digits stand on one side of
the point at least. -/
def unsignedDouble? (text : List Char) : Option Double :=
  let whole := text.takeWhile Char.isDigit
  let rest := text.drop whole.length
  let (fraction, rest) :=
    match rest with
    | '.' :: rest => (rest.takeWhile Char.isDigit, rest.dropWhile Char.isDigit)
    | rest => ([], rest)
  let digits := whole ++ fraction
  if digits.isEmpty then none
  else
    (exponent? rest).map fun e =>
      Double.ofDecimal (Text.digitsValue 10 digits) (e - fraction.length)

/-- The finite double that a text says, with a sign or without one. -/
def finiteDouble? (text : List Char) : Option Double :=
  let d? :=
    match text with
    | '+' :: digits => unsignedDouble? digits
    | '-' :: digits => (unsignedDouble? digits).map Double.negated
    | digits => unsignedDouble? digits
  d?.filter Double.isFinite

def double? (s : String) : Option Double :=
  if s ∈ [".inf", ".Inf", ".INF", "+.inf", "+.Inf", "+.INF"] then some (Double.infinity false)
  else if s ∈ ["-.inf", "-.Inf", "-.INF"] then some (Double.infinity true)
  else if s ∈ [".nan", ".NaN", ".NAN"] then some Double.nan
  else finiteDouble? s.toList

/-- The meaning of an integer; one that does not fit 128 bits has none. -/
def Meaning.ofInteger? (i : Int) : Option Meaning :=
  if -(twoTo 63 : Int) ≤ i ∧ i < twoTo 64 then some (.integer i)
  else if -(twoTo 127 : Int) ≤ i ∧ i < twoTo 128 then some (.wide i)
  else none

/-- What a plain scalar without a tag stands for. -/
def Meaning.ofPlain (s : String) : Meaning :=
  if s = "" ∨ saysNull s then .nothing
  else
    match truth? s, (integer? s.toList).bind ofInteger? with
    | some b, _ => .truth b
    | none, some m => m
    | none, none =>
      if hasNeedlessZero s.toList then .text s
      else
        match double? s with
        | some d => .double d
        | none => .text s

def Meaning.found : Meaning → Json.Found
  | .nothing => .nothing
  | .truth b => .boolean b
  | .integer i => .integer i
  | .wide i => .wide i
  | .double d => .double d
  | .text s => .text s

/-! ## Tags -/

/-- The tags of the types that every reader knows. -/
def nullTag : String := "tag:yaml.org,2002:null"

@[inherit_doc nullTag] def truthTag : String := "tag:yaml.org,2002:bool"

@[inherit_doc nullTag] def integerTag : String := "tag:yaml.org,2002:int"

@[inherit_doc nullTag] def doubleTag : String := "tag:yaml.org,2002:float"

/-- Whether a tag belongs to the text itself and not to all readers. -/
def isOwnTag (tag : String) : Bool := tag.toList.head? = some '!'

/-- What a scalar stands for: a known tag decides, then the style. -/
def Meaning.ofScalar (tag : Option String) (style : Style) (s : String) :
    Except Json.Mismatch Meaning :=
  let require (m : Option Meaning) (name : String) : Except Json.Mismatch Meaning :=
    match m with
    | some m => .ok m
    | none => .error (.wrongValue (.text s) name)
  match tag with
  | none => .ok (if style = .plain then ofPlain s else .text s)
  | some t =>
    if t = truthTag then require ((truth? s).map .truth) "a boolean"
    else if t = integerTag then require ((integer? s.toList).bind ofInteger?) "an integer"
    else if t = doubleTag then require ((double? s).map .double) "a float"
    else if t = nullTag then require (if saysNull s then some .nothing else none) "null"
    else .ok (if isOwnTag t ∧ style = .plain then ofPlain s else .text s)

end Tenancy.Yaml
