import Tenancy.Json.Basic
import Tenancy.Decimal.Shortest
import Tenancy.Text.Quoted
import Tenancy.Text.Utf8

/-! # Writing JSON

`render` writes a value without blanks, members in the order in which the value holds them. In a
string only the quote, the backslash and the controls are escaped. A double is written with the
fewest digits that read back as the same double; one that is not finite is written as null.
-/

namespace Tenancy.Json

/-- How one character stands within a string. -/
def renderChar (c : Char) : List Char :=
  if c = '"' then ['\\', '"']
  else if c = '\\' then ['\\', '\\']
  else if c = '\n' then ['\\', 'n']
  else if c = '\r' then ['\\', 'r']
  else if c = '\t' then ['\\', 't']
  else if c = '\x08' then ['\\', 'b']
  else if c = '\x0c' then ['\\', 'f']
  else if c.toNat < 0x20 then ['\\', 'u'] ++ Text.hex4 c.toNat
  else [c]

def renderText (s : String) : List Char := '"' :: (s.toList.flatMap renderChar ++ ['"'])

/-- The decimal digits of an integer, after its sign. -/
def renderInt (i : Int) : List Char :=
  if i < 0 then '-' :: Nat.toDigits 10 i.natAbs else Nat.toDigits 10 i.natAbs

def Number.render : Number → List Char
  | .integer i => renderInt i
  | .double d =>
    if d.isFinite then (Decimal.documentFormat.render d).toList else ['n', 'u', 'l', 'l']

mutual

def renderChars : Json → List Char
  | .null => ['n', 'u', 'l', 'l']
  | .bool true => ['t', 'r', 'u', 'e']
  | .bool false => ['f', 'a', 'l', 's', 'e']
  | .number n => n.render
  | .string s => renderText s
  | .array [] => ['[', ']']
  | .array (x :: xs) => '[' :: (renderChars x ++ renderItems xs)
  | .object [] => ['{', '}']
  | .object ((k, x) :: xs) => '{' :: (renderText k ++ ':' :: (renderChars x ++ renderMembers xs))

/-- The items after the first, and the closing bracket. -/
def renderItems : List Json → List Char
  | [] => [']']
  | x :: xs => ',' :: (renderChars x ++ renderItems xs)

/-- The members after the first, and the closing brace. -/
def renderMembers : List (String × Json) → List Char
  | [] => ['}']
  | (k, x) :: xs => ',' :: (renderText k ++ ':' :: (renderChars x ++ renderMembers xs))

end

mutual

/-- The value that a text can hold: a double that is not finite has become null. -/
def expressed : Json → Json
  | .number (.double d) => if d.isFinite then .number (.double d) else .null
  | .array items => .array (expressedItems items)
  | .object members => .object (expressedMembers members)
  | j => j

def expressedItems : List Json → List Json
  | [] => []
  | x :: xs => expressed x :: expressedItems xs

/-- The members that a text can hold. -/
def expressedMembers : List (String × Json) → List (String × Json)
  | [] => []
  | (k, x) :: xs => (k, expressed x) :: expressedMembers xs

end

/-- The text of a value, without blanks. -/
def render (j : Json) : String := String.ofList (renderChars j)

def encode (j : Json) : List UInt8 := Text.Utf8.encodeChars (renderChars j)

end Tenancy.Json
