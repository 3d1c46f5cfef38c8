import Tenancy.Json.Printer
import Tenancy.Json.Token
import Tenancy.Text.Digits

/-! # How a text spells a document

A text says more than the document in it: where blanks stand, how each character of a string is written, which
of several members with one name came first. A `Spelling` holds all of that. Its characters are the text, and
its `written` value is the document before members are put in order.
-/

namespace Tenancy.Json

/-! ## Parts of a text -/

/-- A blank between the parts of a text. -/
def isGapChar (c : Char) : Bool := c == ' ' || c == '\t' || c == '\n' || c == '\r'

structure Blanks where
  chars : List Char
  blank : ∀ c ∈ chars, isGapChar c

/-- Blanks followed by more of them. -/
def Blanks.append (front back : Blanks) : Blanks :=
  ⟨front.chars ++ back.chars, List.forall_mem_append.mpr ⟨front.blank, back.blank⟩⟩

/-- The letters that stand for a character after a backslash. -/
def shortEscapes : List (Char × Char) :=
  [('"', '"'), ('\\', '\\'), ('/', '/'), ('b', '\x08'), ('f', '\x0c'), ('n', '\n'), ('r', '\r'), ('t', '\t')]

/-- A character of a string, in one of the ways to write it. -/
inductive Piece where
  /-- As it is. -/
  | plain (c : Char) (ordinary : c ≠ '"' ∧ c ≠ '\\' ∧ 0x20 ≤ c.toNat)
  /-- By a letter after a backslash. -/
  | short (letter c : Char) (known : (letter, c) ∈ shortEscapes)
  /-- By its number. -/
  | numbered (digits : List Char) (c : Char) (four : digits.length = 4)
    (number : Text.number? 16 digits = some c.toNat)
  /-- By the numbers of the two halves of a surrogate pair. -/
  | paired (high low : List Char) (c : Char)

namespace Piece

def chars : Piece → List Char
  | plain c _ => [c]
  | short letter _ _ => ['\\', letter]
  | numbered digits _ _ _ => '\\' :: 'u' :: digits
  | paired high low _ => '\\' :: 'u' :: (high ++ '\\' :: 'u' :: low)

def char : Piece → Char
  | plain c _ => c
  | short _ c _ => c
  | numbered _ c _ _ => c
  | paired _ _ c => c

end Piece

def quoted (pieces : List Piece) : List Char := '"' :: (pieces.flatMap Piece.chars ++ ['"'])

def meant (pieces : List Piece) : String := String.ofList (pieces.map Piece.char)

/-- A number as it is written. Only an integer has to be written in the one way that there is for it. -/
structure Numeral where
  chars : List Char
  number : Number
  whole : ∀ i, number = .integer i → chars = renderInt i

inductive ScalarSpelling where
  | null
  | bool (b : Bool)
  | number (numeral : Numeral)
  | string (pieces : List Piece)

namespace ScalarSpelling

def chars : ScalarSpelling → List Char
  | null => renderChars .null
  | bool b => renderChars (.bool b)
  | number numeral => numeral.chars
  | string pieces => quoted pieces

def written : ScalarSpelling → Json
  | null => .null
  | bool b => .bool b
  | number numeral => .number numeral.number
  | string pieces => .string (meant pieces)

end ScalarSpelling

/-- The name of a member with the blanks around it. -/
structure Label where
  before : Blanks
  pieces : List Piece
  after : Blanks

/-- The characters of a name up to its colon. -/
def Label.chars (label : Label) : List Char :=
  label.before.chars ++ (quoted label.pieces ++ (label.after.chars ++ [':']))

/-! ## Whole values -/

mutual

inductive Spelling where
  | scalar (scalar : ScalarSpelling)
  | emptyArray (gap : Blanks)
  | array (gap : Blanks) (first : Spelling) (others : ItemsLeft)
  | emptyObject (gap : Blanks)
  | object (label : Label) (gap : Blanks) (first : Spelling) (others : MembersLeft)

/-- The items after the first one, and the bracket. -/
inductive ItemsLeft where
  | close (gap : Blanks)
  | item (before after : Blanks) (value : Spelling) (others : ItemsLeft)

/-- The members after the first one, and the brace. -/
inductive MembersLeft where
  | close (gap : Blanks)
  | member (before : Blanks) (label : Label) (gap : Blanks) (value : Spelling) (others : MembersLeft)

end

mutual

/-- The characters of the text. -/
def Spelling.chars : Spelling → List Char
  | .scalar scalar => scalar.chars
  | .emptyArray gap => '[' :: (gap.chars ++ [']'])
  | .array gap first others => '[' :: (gap.chars ++ (first.chars ++ others.chars))
  | .emptyObject gap => '\x7b' :: (gap.chars ++ ['\x7d'])
  | .object label gap first others =>
    '\x7b' :: (label.chars ++ (gap.chars ++ (first.chars ++ others.chars)))

@[inherit_doc Spelling.chars] def ItemsLeft.chars : ItemsLeft → List Char
  | .close gap => gap.chars ++ [']']
  | .item before after value others =>
    before.chars ++ ',' :: (after.chars ++ (value.chars ++ others.chars))

@[inherit_doc Spelling.chars] def MembersLeft.chars : MembersLeft → List Char
  | .close gap => gap.chars ++ ['\x7d']
  | .member before label gap value others =>
    before.chars ++ ',' :: (label.chars ++ (gap.chars ++ (value.chars ++ others.chars)))

end

mutual

/-- The document as it is written: members in the order of the text, some of them perhaps with one name. -/
def Spelling.written : Spelling → Json
  | .scalar scalar => scalar.written
  | .emptyArray _ => .array []
  | .array _ first others => .array (first.written :: others.written)
  | .emptyObject _ => .object []
  | .object label _ first others => .object ((meant label.pieces, first.written) :: others.written)

@[inherit_doc Spelling.written] def ItemsLeft.written : ItemsLeft → List Json
  | .close _ => []
  | .item _ _ value others => value.written :: others.written

@[inherit_doc Spelling.written] def MembersLeft.written : MembersLeft → List (String × Json)
  | .close _ => []
  | .member _ label _ value others => (meant label.pieces, value.written) :: others.written

end

/-- A text as it is written: a value between blanks. -/
structure TextSpelling where
  before : Blanks
  root : Spelling
  after : Blanks

def TextSpelling.chars (s : TextSpelling) : List Char := s.before.chars ++ (s.root.chars ++ s.after.chars)

end Tenancy.Json
