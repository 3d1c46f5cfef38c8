import Tenancy.Text.Digits
import Tenancy.Yaml.Cursor

/-! # Scalars

A scalar is written in one of five styles: plain, in single or double quotes, or as a block whose
lines are kept (literal) or joined (folded). The functions here take a scalar from the front of a
text and give its content; each takes at least the first character.
-/

namespace Tenancy.Yaml

inductive Style where
  | plain
  | single
  | double
  | literal
  | folded
  deriving DecidableEq, Repr

/-- The line breaks between two lines, joined: a single line feed becomes a space, of several the
first is dropped. -/
def foldBreaks (first later : List Char) : List Char :=
  if first.head? = some '\n' then (if later.isEmpty then [' '] else later) else first ++ later

/-- The blanks and breaks between two words of a scalar. -/
structure Spacing where
  blanks : List Char := []
  first : List Char := []
  later : List Char := []
  /-- Whether a line has ended. -/
  broken : Bool := false
  deriving DecidableEq, Repr

/-- What the spacing contributes to the content. -/
def Spacing.text (s : Spacing) : List Char :=
  if s.broken then foldBreaks s.first s.later else s.blanks

/-- Takes blanks and breaks. Where tabs are refused, none may stand before the column `refused` on a
new line; then the place of the tab is given. -/
def takeSpacing (refused : Nat) : Nat → Spacing → Cursor → Except Cursor (Spacing × Cursor)
  | 0, s, c => .ok (s, c)
  | fuel + 1, s, c =>
    match c.next? with
    | none => .ok (s, c)
    | some x =>
      if isBlank x then
        if s.broken ∧ c.mark.column < refused ∧ x = '\t' then .error c
        else
          let s := if s.broken then s else { s with blanks := s.blanks ++ [x] }
          takeSpacing refused fuel s c.skip
      else if isBreak x then
        let (text, c) := c.takeBreak
        let s := if s.broken then { s with later := s.later ++ text }
          else { s with first := text, broken := true }
        takeSpacing refused fuel s c
      else .ok (s, c)

/-! ## Quoted scalars -/

/-- What a letter stands for after a backslash. -/
def escape? (c : Char) : Option Char :=
  match c with
  | '0' => some (Char.ofNat 0x00)
  | 'a' => some (Char.ofNat 0x07)
  | 'b' => some (Char.ofNat 0x08)
  | 't' | '\t' => some (Char.ofNat 0x09)
  | 'n' => some (Char.ofNat 0x0A)
  | 'v' => some (Char.ofNat 0x0B)
  | 'f' => some (Char.ofNat 0x0C)
  | 'r' => some (Char.ofNat 0x0D)
  | 'e' => some (Char.ofNat 0x1B)
  | ' ' => some ' '
  | '"' => some '"'
  | '/' => some '/'
  | '\\' => some '\\'
  | 'N' => some (Char.ofNat 0x85)
  | '_' => some (Char.ofNat 0xA0)
  | 'L' => some (Char.ofNat 0x2028)
  | 'P' => some (Char.ofNat 0x2029)
  | _ => none

/-- How many hexadecimal digits follow a letter after a backslash. -/
def escapeLength? (c : Char) : Option Nat :=
  match c with
  | 'x' => some 2
  | 'u' => some 4
  | 'U' => some 8
  | _ => none

/-- The value of `n` hexadecimal digits. -/
def hexNumber? (n : Nat) (text : List Char) : Option Nat :=
  let digits := text.take n
  if digits.length = n then Text.number? 16 digits else none

/-- Takes an escape, from its backslash on. -/
def takeEscape (start : Mark) (c : Cursor) : Except Problem (Char × Cursor) :=
  match c.ahead? 1 with
  | none => .error (c.problem .unknownEscape .escape start)
  | some x =>
    match escape? x, escapeLength? x with
    | some y, _ => .ok (y, c.skipMany 2)
    | none, none => .error (c.problem .unknownEscape .escape start)
    | none, some n =>
      let c := c.skipMany 2
      match hexNumber? n c.rest with
      | none => .error (c.problem .noHexDigits .escape start)
      | some v =>
        if v.isValidChar then .ok (Char.ofNat v, c.skipMany n)
        else .error (c.problem .badCodePoint .escape start)

/-- Takes the characters of a quoted scalar up to a blank, a break or the closing quote, or up to
and with an escaped break; says whether there was one. -/
def takeQuotedWord (quote : Char) (start : Mark) :
    Nat → Cursor → Except Problem (List Char × Bool × Cursor)
  | 0, c => .ok ([], false, c)
  | fuel + 1, c =>
    match c.next? with
    | none => .ok ([], false, c)
    | some x =>
      let more (y : Char) (c : Cursor) : Except Problem (List Char × Bool × Cursor) := do
        let (text, broken, c) ← takeQuotedWord quote start fuel c
        return (y :: text, broken, c)
      if isBlank x || isBreak x then .ok ([], false, c)
      else if x = quote then
        if quote = '\'' ∧ c.ahead? 1 = some '\'' then more '\'' (c.skipMany 2)
        else .ok ([], false, c)
      else if quote = '"' ∧ x = '\\' then
        if (c.ahead? 1).any isBreak then .ok ([], true, c.skip.takeBreak.2)
        else do
          let (y, c) ← takeEscape start c
          more y c
      else more x c.skip

/-- Takes the content of a quoted scalar after its opening quote, with the closing quote. -/
def takeQuotedContent (quote : Char) (start : Mark) :
    Nat → Cursor → Except Problem (List Char × Cursor)
  | 0, c => .error (c.problem .endOfText .quotedScalar start)
  | fuel + 1, c =>
    if c.atAnyDocumentMark then .error (c.problem .documentMark .quotedScalar start)
    else if c.atEnd then .error (c.problem .endOfText .quotedScalar start)
    else do
      let (word, broken, c) ← takeQuotedWord quote start (fuel + 1) c
      if c.isAt quote then return (word, c.skip)
      else
        match takeSpacing 0 (fuel + 1) { broken } c with
        | .error c => .error (c.problem .tabInIndentation .quotedScalar start)
        | .ok (spacing, c) =>
          let (text, c) ← takeQuotedContent quote start fuel c
          return (word ++ spacing.text ++ text, c)

def takeQuoted (quote : Char) (c : Cursor) : Except Problem (List Char × Cursor) :=
  takeQuotedContent quote c.mark (c.rest.length + 1) c.skip

/-! ## Plain scalars -/

/-- A character that stands for itself between brackets and braces. -/
def isFlowMark (c : Char) : Bool := c == ',' || c == '[' || c == ']' || c == '\x7b' || c == '\x7d'

/-- Takes the characters of a plain scalar up to a blank, a break or a mark. -/
def takePlainWord (inFlow : Bool) (start : Mark) :
    Nat → Cursor → Except Problem (List Char × Cursor)
  | 0, c => .ok ([], c)
  | fuel + 1, c =>
    match c.next? with
    | none => .ok ([], c)
    | some x =>
      if isBlank x || isBreak x then .ok ([], c)
      else if inFlow ∧ x = ':' ∧ (c.ahead? 1).any (fun y => isFlowMark y || y == '?') then
        .error (c.problem .colonInPlain .plainScalar start)
      else if (x = ':' ∧ c.isGapAhead 1) ∨ (inFlow ∧ isFlowMark x) then .ok ([], c)
      else do
        let (text, c) ← takePlainWord inFlow start fuel c.skip
        return (x :: text, c)

/-- What has been taken of a plain scalar. -/
structure PlainText where
  text : List Char
  /-- Where reading goes on. -/
  cursor : Cursor
  /-- Whether a line has ended since the last character. -/
  broken : Bool

/-- Takes the rest of a plain scalar, with the spacing in front of the next word. -/
def takePlainWords (inFlow : Bool) (indent : Nat) (start : Mark) :
    Nat → Spacing → Cursor → Except Problem PlainText
  | 0, s, c => .ok ⟨[], c, s.broken⟩
  | fuel + 1, s, c =>
    if c.atAnyDocumentMark || c.isAt '#' then .ok ⟨[], c, s.broken⟩
    else do
      let (word, c) ← takePlainWord inFlow start (fuel + 1) c
      let here := if word.isEmpty then [] else s.text ++ word
      if !c.atClass (fun x => isBlank x || isBreak x) then
        return ⟨here, c, word.isEmpty && s.broken⟩
      match takeSpacing indent (fuel + 1) {} c with
      | .error c => .error (c.problem .tabInIndentation .plainScalar start)
      | .ok (s, c) =>
        if !inFlow ∧ c.mark.column < indent then return ⟨here, c, s.broken⟩
        let more ← takePlainWords inFlow indent start fuel s c
        return { more with text := here ++ more.text }

/-- Takes a plain scalar whose later lines are indented by at least `indent` columns. -/
def takePlain (inFlow : Bool) (indent : Nat) (c : Cursor) : Except Problem PlainText :=
  takePlainWords inFlow indent c.mark (c.rest.length + 1) {} c

/-! ## Block scalars -/

/-- What becomes of the line breaks at the end of a block. -/
inductive Chomping where
  /-- All are dropped. -/
  | strip
  /-- One is kept. -/
  | clip
  /-- All are kept. -/
  | keep
  deriving DecidableEq, Repr

/-- What follows the mark of a block. -/
structure BlockHeader where
  chomping : Chomping := .clip
  /-- How far the block is indented, if that is said. -/
  increment : Option Nat := none
  deriving DecidableEq, Repr

def takeChomping (c : Cursor) : Option Chomping × Cursor :=
  if c.isAt '+' then (some .keep, c.skip)
  else if c.isAt '-' then (some .strip, c.skip)
  else (none, c)

/-- Takes what is said about the indentation. -/
def takeIncrement (start : Mark) (c : Cursor) : Except Problem (Option Nat × Cursor) :=
  match c.next? with
  | some x =>
    if x.isDigit then
      if x = '0' then .error (c.problem .zeroIndentation .blockScalar start)
      else .ok (some (x.toNat - '0'.toNat), c.skip)
    else .ok (none, c)
  | none => .ok (none, c)

/-- Takes what follows the mark of a block: chomping and indentation in either order, blanks, a
comment and the line break. -/
def takeBlockHeader (start : Mark) (c : Cursor) : Except Problem (BlockHeader × Cursor) := do
  let (before, c) := takeChomping c
  let (increment, c) ← takeIncrement start c
  let (after, c) := if before.isNone ∧ increment.isSome then takeChomping c else (none, c)
  let c := (c.skipWhile isBlank).skipComment
  if !c.atLineEnd then .error (c.problem .noCommentOrBreak .blockScalar start)
  return (⟨(before.or after).getD .clip, increment⟩, c.takeBreak.2)

/-- The line breaks before a line of a block. -/
structure BlockGap where
  breaks : List Char := []
  /-- The greatest column that spaces have reached. -/
  widest : Nat := 0
  cursor : Cursor

/-- Takes indentation and empty lines. The indentation ends at the column `indent`, if it is known. -/
def takeBlockGap (indent : Option Nat) (start : Mark) : Nat → BlockGap → Except Problem BlockGap
  | 0, g => .ok g
  | fuel + 1, g =>
    let c := g.cursor
    let spaces := (c.rest.takeWhile (· == ' ')).length
    let c := c.skipMany (match indent with
      | some n => min spaces (n - c.mark.column)
      | none => spaces)
    let widest := max g.widest c.mark.column
    if indent.all (c.mark.column < ·) ∧ c.isAt '\t' then
      .error (c.problem .tabForSpace .blockScalar start)
    else if c.atClass isBreak then
      let (text, c) := c.takeBreak
      takeBlockGap indent start fuel ⟨g.breaks ++ text, widest, c⟩
    else .ok { g with widest, cursor := c }

structure BlockText where
  text : List Char
  /-- The last break, and the empty lines after it. -/
  last : List Char
  tail : List Char
  cursor : Cursor

/-- Takes the lines of a block that is indented by `indent` columns. -/
def takeBlockLines (isLiteral : Bool) (indent : Nat) (start : Mark) :
    Nat → (afterBlank : Bool) → (last : List Char) → BlockGap → Except Problem BlockText
  | 0, _, last, g => .ok ⟨[], last, g.breaks, g.cursor⟩
  | fuel + 1, afterBlank, last, g =>
    let c := g.cursor
    if c.mark.column ≠ indent ∨ c.atEnd then .ok ⟨[], last, g.breaks, c⟩
    else do
      let startsBlank := c.atClass isBlank
      let joined :=
        if !isLiteral ∧ last.head? = some '\n' ∧ !afterBlank ∧ !startsBlank then
          (if g.breaks.isEmpty then [' '] else [])
        else last
      let (line, c) := c.takeWhile fun x => !isBreak x
      let (ending, c) := c.takeBreak
      let after ← takeBlockGap (some indent) start (fuel + 1) { cursor := c }
      let more ← takeBlockLines isLiteral indent start fuel startsBlank ending after
      return { more with text := joined ++ g.breaks ++ line ++ more.text }

/-- Takes a block, whose parent is indented by `parent` columns, or by none. -/
def takeBlock (isLiteral : Bool) (parent : Option Nat) (c : Cursor) :
    Except Problem (List Char × Cursor) := do
  let start := c.mark
  let (header, c) ← takeBlockHeader start c.skip
  let known := header.increment.map fun n => parent.getD 0 + n
  let gap ← takeBlockGap known start (c.rest.length + 1) { cursor := c }
  let least := max 1 (match parent with | some n => n + 1 | none => 0)
  let indent := known.getD (max gap.widest least)
  let block ← takeBlockLines isLiteral indent start (gap.cursor.rest.length + 1) false [] gap
  let ending :=
    match header.chomping with
    | .strip => []
    | .clip => block.last
    | .keep => block.last ++ block.tail
  return (block.text ++ ending, block.cursor)

end Tenancy.Yaml
