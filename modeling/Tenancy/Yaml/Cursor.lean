import Tenancy.Yaml.Problem

/-! # Going through a text

A cursor is a place in a text with what is left of the text. Line breaks come in five forms; three
of them, and the pair of carriage return and line feed, are read as a line feed.
-/

namespace Tenancy.Yaml

def isBlank (c : Char) : Bool := c == ' ' || c == '\t'

/-- A character that ends a line. -/
def isBreak (c : Char) : Bool :=
  c == '\n' || c == '\r' || c.toNat == 0x85 || c.toNat == 0x2028 || c.toNat == 0x2029

def isNameChar (c : Char) : Bool := c.isAlphanum || c == '_' || c == '-'

/-- A character that may stand in a text. -/
def isAllowed (c : Char) : Bool :=
  let n := c.toNat
  n == 0x09 || n == 0x0A || n == 0x0D || (0x20 ≤ n && n ≤ 0x7E) || n == 0x85
    || (0xA0 ≤ n && n ≤ 0xD7FF) || (0xE000 ≤ n && n ≤ 0xFFFD) || 0x10000 ≤ n

/-- A place in a text with what is left of the text. -/
structure Cursor where
  rest : List Char
  mark : Mark := {}
  deriving DecidableEq, Repr

namespace Cursor

def next? (c : Cursor) : Option Char := c.rest.head?

/-- The character `n` places ahead. -/
def ahead? (c : Cursor) (n : Nat) : Option Char := c.rest[n]?

def isAt (c : Cursor) (x : Char) : Bool := c.next? == some x

def atClass (c : Cursor) (p : Char → Bool) : Bool := c.next?.any p

def atEnd (c : Cursor) : Bool := c.rest.isEmpty

def atLineEnd (c : Cursor) : Bool := c.next?.all isBreak

/-- Whether there is a blank or the end of a line `n` places ahead. -/
def isGapAhead (c : Cursor) (n : Nat) : Bool := (c.ahead? n).all fun x => isBlank x || isBreak x

/-- Passes one character within a line. -/
def skip (c : Cursor) : Cursor :=
  match c.rest with
  | [] => c
  | _ :: rest => ⟨rest, { c.mark with index := c.mark.index + 1, column := c.mark.column + 1 }⟩

/-- Passes `n` characters within a line. -/
def skipMany (c : Cursor) (n : Nat) : Cursor :=
  ⟨c.rest.drop n, { c.mark with index := c.mark.index + n, column := c.mark.column + n }⟩

/-- Takes characters of a class within a line. -/
def takeWhile (c : Cursor) (p : Char → Bool) : List Char × Cursor :=
  let taken := c.rest.takeWhile p
  (taken, c.skipMany taken.length)

/-- Passes characters of a class within a line. -/
def skipWhile (c : Cursor) (p : Char → Bool) : Cursor := (c.takeWhile p).2

/-- The place at the beginning of the next line, `n` characters on. -/
private def nextLine (m : Mark) (n : Nat) : Mark := ⟨m.index + n, m.line + 1, 0⟩

/-- Takes a line break, as it is read. Elsewhere nothing is taken. -/
def takeBreak (c : Cursor) : List Char × Cursor :=
  match c.rest with
  | '\r' :: '\n' :: rest => (['\n'], ⟨rest, nextLine c.mark 2⟩)
  | x :: rest =>
    if x.toNat == 0x2028 || x.toNat == 0x2029 then ([x], ⟨rest, nextLine c.mark 1⟩)
    else if isBreak x then (['\n'], ⟨rest, nextLine c.mark 1⟩)
    else ([], c)
  | [] => ([], c)

def skipComment (c : Cursor) : Cursor :=
  if c.isAt '#' then c.skipWhile fun x => !isBreak x else c

/-- Whether a line starts here with three times the character and then a gap. -/
def atDocumentMark (c : Cursor) (x : Char) : Bool :=
  c.mark.column == 0 && c.rest.take 3 == [x, x, x] && c.isGapAhead 3

/-- Whether a line starts here that begins or ends a document. -/
def atAnyDocumentMark (c : Cursor) : Bool := c.atDocumentMark '-' || c.atDocumentMark '.'

/-- The fault at this place, found while doing something since `start`. -/
def problem (c : Cursor) (fault : Fault) (activity : Activity) (start : Mark) : Problem :=
  { fault, mark := c.mark, context := some (activity, start) }

end Cursor

end Tenancy.Yaml
