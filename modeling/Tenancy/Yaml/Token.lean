import Tenancy.Yaml.Scalar
import Tenancy.Yaml.Tag

/-! # Tokens

A text is a row of tokens: scalars, names, indicators, and the beginnings and ends of blocks, which
are told by indentation. Whether a scalar is the key of a table shows only at the colon after it, on
the same line and within 1024 characters; the tokens for the key are then put in front of it. So a
token is *released* only when nothing can be put in front of it any more, and `Token.ofText` gives
the tokens that are released, and the problem that ends them, if there is one.
-/

namespace Tenancy.Yaml

inductive TokenKind where
  | textStart
  | textEnd
  | directive (directive : Directive)
  | documentStart
  | documentEnd
  | blockListStart
  | blockTableStart
  | blockEnd
  | flowListStart
  | flowListEnd
  | flowTableStart
  | flowTableEnd
  | item
  | comma
  | key
  | value
  | alias (name : String)
  | anchor (name : String)
  | tag (tag : TagText)
  | scalar (style : Style) (text : String)
  deriving DecidableEq, Repr

/-- A token and the places where it starts and stops. -/
structure Token where
  kind : TokenKind
  start : Mark
  stop : Mark
  deriving DecidableEq, Repr

/-- A token that may turn out to be a key. -/
structure KeyCandidate where
  /-- In a block, what stands at the block's own column has to be a key. -/
  required : Bool
  /-- The number of tokens before it. -/
  number : Nat
  mark : Mark
  deriving DecidableEq, Repr

/-- The greatest number of characters between a key and its colon. -/
def keyLimit : Nat := 1024

/-- How far a text has been taken apart. -/
structure Lexer where
  cursor : Cursor
  /-- The number of brackets and braces that are open. -/
  depth : Nat := 0
  /-- The column of the innermost block, if there is one. -/
  indent : Option Nat := none
  /-- The columns of the blocks around it. -/
  outer : List (Option Nat) := []
  /-- Whether a key may start here. -/
  keyAllowed : Bool := true
  /-- The candidate of each open bracket, the innermost first, and of the block. -/
  candidates : List (Option KeyCandidate) := [none]
  /-- The tokens that are not released yet. -/
  queue : List Token
  /-- The number of tokens released. -/
  released : Nat := 0
  /-- Whether the last token has been taken. -/
  ended : Bool := false

namespace Lexer

def start (text : List Char) : Lexer := { cursor := ⟨text, {}⟩, queue := [⟨.textStart, {}, {}⟩] }

/-- Whether a bracket or a brace is open. -/
def inFlow (l : Lexer) : Bool := l.depth != 0

def push (l : Lexer) (kind : TokenKind) (start stop : Mark) : Lexer :=
  { l with queue := l.queue ++ [⟨kind, start, stop⟩] }

/-- Puts a token in front of the one with the given number. -/
def pushBefore (l : Lexer) (number : Nat) (kind : TokenKind) (mark : Mark) : Lexer :=
  let (before, after) := l.queue.splitAt (number - l.released)
  { l with queue := before ++ ⟨kind, mark, mark⟩ :: after }

/-- Takes an indicator of `n` characters. -/
def takeMark (l : Lexer) (kind : TokenKind) (n : Nat) : Lexer :=
  let after := l.cursor.skipMany n
  { l.push kind l.cursor.mark after.mark with cursor := after }

/-- The problem that an expected key is none. -/
def missedKey (l : Lexer) (k : KeyCandidate) : Problem := l.cursor.problem .noColon .simpleKey k.mark

/-- The problem that something is not allowed at the current place. -/
def notAllowed (l : Lexer) (fault : Fault) : Problem := { fault, mark := l.cursor.mark }

/-! ## Keys -/

/-- Whether a candidate is too far away to be a key. -/
def isStale (l : Lexer) (k : KeyCandidate) : Bool :=
  k.mark.line < l.cursor.mark.line || k.mark.index + keyLimit < l.cursor.mark.index

/-- Drops the candidates that are too far away. The outermost is looked at first. -/
def dropStale (l : Lexer) : Except Problem Lexer :=
  let stale := l.candidates.reverse.filterMap fun k => k.filter l.isStale
  match stale.find? (·.required) with
  | some k => .error (l.missedKey k)
  | none => .ok { l with candidates := l.candidates.map fun k => k.filter (!l.isStale ·) }

def dropKey (l : Lexer) : Except Problem Lexer :=
  match l.candidates with
  | some k :: rest =>
    if k.required then .error (l.missedKey k) else .ok { l with candidates := none :: rest }
  | _ => .ok l

/-- Makes the next token a candidate, if a key may start here. -/
def markKey (l : Lexer) : Except Problem Lexer :=
  if !l.keyAllowed then .ok l
  else do
    let l ← l.dropKey
    let k : KeyCandidate := {
      required := !l.inFlow && l.indent == some l.cursor.mark.column
      number := l.released + l.queue.length
      mark := l.cursor.mark }
    return { l with candidates := some k :: l.candidates.tail }

/-! ## Indentation -/

/-- Begins a block at a column, if it is further right than the innermost block. The token goes in
front of the one with the given number, or to the end. -/
def openBlock (l : Lexer) (column : Nat) (number : Option Nat) (kind : TokenKind) (mark : Mark) :
    Lexer :=
  if l.inFlow ∨ !l.indent.all (· < column) then l
  else
    let l := { l with outer := l.indent :: l.outer, indent := some column }
    match number with
    | some n => l.pushBefore n kind mark
    | none => l.push kind mark mark

/-- Ends the blocks that are further right than a column; all, if there is none. -/
def closeBlocks (column : Option Nat) (l : Lexer) : Lexer :=
  if l.inFlow then l else go l l.indent l.outer
where
  /-- Ends blocks from the innermost on. -/
  go (l : Lexer) (indent : Option Nat) : List (Option Nat) → Lexer
    | [] => { l with indent, outer := [] }
    | next :: outer =>
      if indent.any fun i => column.all (· < i) then
        go (l.push .blockEnd l.cursor.mark l.cursor.mark) next outer
      else { l with indent, outer := next :: outer }

/-! ## Taking tokens -/

/-- Passes blanks, comments and line breaks. In a block, a tab may not stand where a key may start,
and after a line break a key may start. -/
def skipGap : Nat → Lexer → Lexer
  | 0, l => l
  | fuel + 1, l =>
    let c := l.cursor
    let c := if c.mark.index = 0 ∧ c.isAt '\uFEFF' then c.skip else c
    let c := c.skipWhile fun x => x == ' ' || ((l.inFlow || !l.keyAllowed) && x == '\t')
    let c := c.skipComment
    if c.atClass isBreak then
      skipGap fuel { l with cursor := c.takeBreak.2, keyAllowed := l.keyAllowed || !l.inFlow }
    else { l with cursor := c }

def takeEnd (l : Lexer) : Except Problem Lexer := do
  let m := l.cursor.mark
  let m := if m.column = 0 then m else { m with line := m.line + 1, column := 0 }
  let l := closeBlocks none { l with cursor := { l.cursor with mark := m } }
  let l ← l.dropKey
  return { l.push .textEnd m m with keyAllowed := false, ended := true }

/-- Takes what stands alone at the beginning of a line: a directive or a document's mark. -/
def takeAlone (l : Lexer) : Except Problem Lexer := do
  let l ← (closeBlocks none l).dropKey
  return { l with keyAllowed := false }

def takeOpening (l : Lexer) (kind : TokenKind) : Except Problem Lexer := do
  let l ← l.markKey
  return { l.takeMark kind 1 with
    depth := l.depth + 1, candidates := none :: l.candidates, keyAllowed := true }

def takeClosing (l : Lexer) (kind : TokenKind) : Except Problem Lexer := do
  let l ← l.dropKey
  let l := if l.inFlow then
    { l with depth := l.depth - 1, candidates := l.candidates.tail } else l
  return { l.takeMark kind 1 with keyAllowed := false }

def takeComma (l : Lexer) : Except Problem Lexer := do
  let l ← l.dropKey
  return { l.takeMark .comma 1 with keyAllowed := true }

/-- Begins a block at the current column, where a key may start. -/
def openHere (l : Lexer) (kind : TokenKind) (fault : Fault) : Except Problem Lexer :=
  if l.inFlow then .ok l
  else if !l.keyAllowed then .error (l.notAllowed fault)
  else .ok (l.openBlock l.cursor.mark.column none kind l.cursor.mark)

def takeItem (l : Lexer) : Except Problem Lexer := do
  let l ← l.openHere .blockListStart .itemNotAllowed
  let l ← l.dropKey
  return { l.takeMark .item 1 with keyAllowed := true }

def takeKey (l : Lexer) : Except Problem Lexer := do
  let l ← l.openHere .blockTableStart .keyNotAllowed
  let l ← l.dropKey
  return { l.takeMark .key 1 with keyAllowed := !l.inFlow }

/-- Takes the colon of a value. If there is a candidate, it is the key. -/
def takeValue (l : Lexer) : Except Problem Lexer :=
  match l.candidates with
  | some k :: rest =>
    let l := l.pushBefore k.number .key k.mark
    let l := l.openBlock k.mark.column (some k.number) .blockTableStart k.mark
    .ok { l.takeMark .value 1 with candidates := none :: rest, keyAllowed := false }
  | _ => do
    let l ← l.openHere .blockTableStart .valueNotAllowed
    return { l.takeMark .value 1 with keyAllowed := !l.inFlow }

/-- Puts what was taken at the end, with the text after it. -/
def taken (l : Lexer) (kind : TokenKind) (after : Cursor) : Lexer :=
  { l.push kind l.cursor.mark after.mark with cursor := after }

def takeReference (l : Lexer) (activity : Activity) (kind : String → TokenKind) :
    Except Problem Lexer := do
  let l ← l.markKey
  let (name, after) ← takeName activity l.cursor
  return { l.taken (kind name) after with keyAllowed := false }

def takeTagToken (l : Lexer) : Except Problem Lexer := do
  let l ← l.markKey
  let (tag, after) ← takeTag l.inFlow l.cursor
  return { l.taken (.tag tag) after with keyAllowed := false }

def takeBlockScalar (l : Lexer) (style : Style) : Except Problem Lexer := do
  let l ← l.dropKey
  let (text, after) ← takeBlock (style == .literal) l.indent l.cursor
  return { l.taken (.scalar style (String.ofList text)) after with keyAllowed := true }

def takeQuotedScalar (l : Lexer) (style : Style) (quote : Char) : Except Problem Lexer := do
  let l ← l.markKey
  let (text, after) ← takeQuoted quote l.cursor
  return { l.taken (.scalar style (String.ofList text)) after with keyAllowed := false }

def takePlainScalar (l : Lexer) : Except Problem Lexer := do
  let l ← l.markKey
  let indent := match l.indent with | some n => n + 1 | none => 0
  let taken ← takePlain l.inFlow indent l.cursor
  return { l.taken (.scalar .plain (String.ofList taken.text)) taken.cursor with
    keyAllowed := taken.broken }

def takeDirectiveToken (l : Lexer) : Except Problem Lexer := do
  let l ← l.takeAlone
  let (directive, after) ← takeDirective l.cursor
  return l.taken (.directive directive) after

def takeDocumentMark (l : Lexer) (kind : TokenKind) : Except Problem Lexer := do
  return (← l.takeAlone).takeMark kind 3

/-- A character with which no plain scalar starts. -/
def isReserved (c : Char) : Bool :=
  c == '-' || c == '?' || c == ':' || isFlowMark c || c == '#' || c == '&' || c == '*' || c == '!'
    || c == '|' || c == '>' || c == '\'' || c == '"' || c == '%' || c == '@' || c == '\x60'

/-- Whether a plain scalar starts here with the character `x`. -/
def startsPlain (l : Lexer) (x : Char) : Bool :=
  !(isBlank x || isBreak x || isReserved x)
    || (x == '-' && !(l.cursor.ahead? 1).any isBlank)
    || (!l.inFlow && (x == '?' || x == ':') && !l.cursor.isGapAhead 1)

/-- Takes the next token, which starts with the character `x`. -/
def takeAt (l : Lexer) (x : Char) : Except Problem Lexer :=
  let c := l.cursor
  let stands := l.inFlow || c.isGapAhead 1
  if c.mark.column = 0 ∧ x = '%' then l.takeDirectiveToken
  else if c.atDocumentMark '-' then l.takeDocumentMark .documentStart
  else if c.atDocumentMark '.' then l.takeDocumentMark .documentEnd
  else if x = '[' then l.takeOpening .flowListStart
  else if x = '\x7b' then l.takeOpening .flowTableStart
  else if x = ']' then l.takeClosing .flowListEnd
  else if x = '\x7d' then l.takeClosing .flowTableEnd
  else if x = ',' then l.takeComma
  else if x = '-' ∧ c.isGapAhead 1 then l.takeItem
  else if x = '?' ∧ stands then l.takeKey
  else if x = ':' ∧ stands then l.takeValue
  else if x = '*' then l.takeReference .alias .alias
  else if x = '&' then l.takeReference .anchor .anchor
  else if x = '!' then l.takeTagToken
  else if x = '|' ∧ !l.inFlow then l.takeBlockScalar .literal
  else if x = '>' ∧ !l.inFlow then l.takeBlockScalar .folded
  else if x = '\'' then l.takeQuotedScalar .single '\''
  else if x = '"' then l.takeQuotedScalar .double '"'
  else if l.startsPlain x then l.takePlainScalar
  else .error (c.problem .noToken .nextToken c.mark)

def takeNext (l : Lexer) : Except Problem Lexer := do
  let l ← (l.skipGap (l.cursor.rest.length + 1)).dropStale
  let l := closeBlocks (some l.cursor.mark.column) l
  match l.cursor.next? with
  | none => l.takeEnd
  | some x => l.takeAt x

/-- Whether something may still be put in front of the next token. -/
def isOpen (l : Lexer) : Bool :=
  l.candidates.any fun k => k.any (·.number == l.released)

/-- Releases tokens until the text ends or is broken. -/
def run : Nat → Lexer → List Token × Option Problem
  | 0, _ => ([], none)
  | fuel + 1, l =>
    match l.queue with
    | [] =>
      if l.ended then ([], none)
      else
        match l.takeNext with
        | .error p => ([], some p)
        | .ok l => l.run fuel
    | token :: queue =>
      match l.dropStale with
      | .error p => ([], some p)
      | .ok l =>
        if l.isOpen then
          match l.takeNext with
          | .error p => ([], some p)
          | .ok l => l.run fuel
        else
          let (tokens, problem) := { l with queue, released := l.released + 1 }.run fuel
          (token :: tokens, problem)

end Lexer

/-- The problem of a text with a character that may not stand in it. -/
def controlProblem? (text : List Char) : Option Problem :=
  let before := text.takeWhile isAllowed
  if before.length = text.length then none
  else
    some { fault := .controlCharacter, mark := {},
           offset := (String.ofList before).utf8ByteSize }

/-- The tokens of a text, and the problem that ends them, if there is one. Of every character come
no more than eight steps. -/
def Token.ofText (text : List Char) : List Token × Option Problem :=
  match controlProblem? text with
  | some p => ([], some p)
  | none => (Lexer.start text).run (8 * text.length + 16)

end Tenancy.Yaml
