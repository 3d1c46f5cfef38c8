/-! # Broken YAML texts

A `Fault` says what is wrong with a text, an `Activity` in the course of what it was found. A
`Problem` puts them together with their places. Of two equal places the second is not written, and
neither is a place at the very beginning.
-/

namespace Tenancy.Yaml

/-- A place in a text: the number of characters before it, and its line and column, all counted from
zero. -/
structure Mark where
  index : Nat := 0
  line : Nat := 0
  column : Nat := 0
  deriving DecidableEq, Repr, Inhabited

namespace Mark

/-- Whether the place is at the beginning of the text. -/
def isOrigin (m : Mark) : Bool := m.line = 0 ∧ m.column = 0

/-- Whether two places are on the same line and column. -/
def meets (m n : Mark) : Bool := m.line = n.line ∧ m.column = n.column

def render (m : Mark) : String :=
  "line " ++ toString (m.line + 1) ++ " column " ++ toString (m.column + 1)

/-- What follows a message about the place. -/
def suffix (m : Mark) : String := if m.isOrigin then "" else " at " ++ m.render

end Mark

inductive Fault where
  | controlCharacter
  | noToken
  | noColon
  | itemNotAllowed
  | keyNotAllowed
  | valueNotAllowed
  | noDirectiveName
  | directiveNameNotAlphabetic
  | unknownDirective
  | noVersionNumber
  | noVersionPoint
  | longVersionNumber
  | noBlank
  | noBlankOrBreak
  | noCommentOrBreak
  | noName
  | noExclamation
  | noAngle
  | noUri
  | noUriEscape
  | badFirstOctet
  | badLaterOctet
  | zeroIndentation
  | tabInIndentation
  | tabForSpace
  | documentMark
  | endOfText
  | unknownEscape
  | noHexDigits
  | badCodePoint
  | colonInPlain
  | noDocumentStart
  | repeatedVersion
  | otherVersion
  | repeatedHandle
  | unknownHandle
  | noContent
  | noDash
  | noKey
  | noFlowItem
  | noFlowMember
  deriving DecidableEq, Repr

def Fault.message : Fault → String
  | .controlCharacter => "control characters are not allowed"
  | .noToken => "found character that cannot start any token"
  | .noColon => "could not find expected ':'"
  | .itemNotAllowed => "block sequence entries are not allowed in this context"
  | .keyNotAllowed => "mapping keys are not allowed in this context"
  | .valueNotAllowed => "mapping values are not allowed in this context"
  | .noDirectiveName => "could not find expected directive name"
  | .directiveNameNotAlphabetic => "found unexpected non-alphabetical character"
  | .unknownDirective => "found unknown directive name"
  | .noVersionNumber => "did not find expected version number"
  | .noVersionPoint => "did not find expected digit or '.' character"
  | .longVersionNumber => "found extremely long version number"
  | .noBlank => "did not find expected whitespace"
  | .noBlankOrBreak => "did not find expected whitespace or line break"
  | .noCommentOrBreak => "did not find expected comment or line break"
  | .noName => "did not find expected alphabetic or numeric character"
  | .noExclamation => "did not find expected '!'"
  | .noAngle => "did not find the expected '>'"
  | .noUri => "did not find expected tag URI"
  | .noUriEscape => "did not find URI escaped octet"
  | .badFirstOctet => "found an incorrect leading UTF-8 octet"
  | .badLaterOctet => "found an incorrect trailing UTF-8 octet"
  | .zeroIndentation => "found an indentation indicator equal to 0"
  | .tabInIndentation => "found a tab character that violates indentation"
  | .tabForSpace => "found a tab character where an indentation space is expected"
  | .documentMark => "found unexpected document indicator"
  | .endOfText => "found unexpected end of stream"
  | .unknownEscape => "found unknown escape character"
  | .noHexDigits => "did not find expected hexdecimal number"
  | .badCodePoint => "found invalid Unicode character escape code"
  | .colonInPlain => "found unexpected ':'"
  | .noDocumentStart => "did not find expected <document start>"
  | .repeatedVersion => "found duplicate %YAML directive"
  | .otherVersion => "found incompatible YAML document"
  | .repeatedHandle => "found duplicate %TAG directive"
  | .unknownHandle => "found undefined tag handle"
  | .noContent => "did not find expected node content"
  | .noDash => "did not find expected '-' indicator"
  | .noKey => "did not find expected key"
  | .noFlowItem => "did not find expected ',' or ']'"
  | .noFlowMember => "did not find expected ',' or '\x7d'"

/-- What was being read when a fault was found. -/
inductive Activity where
  | nextToken
  | simpleKey
  | directive
  | versionDirective
  | tagDirective
  | tagDirectiveHandle
  | tagDirectiveEnd
  | tagDirectiveUri
  | anchor
  | alias
  | tag
  | tagUri
  | blockScalar
  | quotedScalar
  | escape
  | plainScalar
  | node
  | blockNode
  | flowNode
  | blockList
  | blockTable
  | flowList
  | flowTable
  deriving DecidableEq, Repr

def Activity.message : Activity → String
  | .nextToken => "while scanning for the next token"
  | .simpleKey => "while scanning a simple key"
  | .directive => "while scanning a directive"
  | .versionDirective => "while scanning a %YAML directive"
  | .tagDirective => "while scanning a %TAG directive"
  | .tagDirectiveHandle => "while scanning a tag directive"
  | .tagDirectiveEnd => "while parsing a tag directive"
  | .tagDirectiveUri => "while parsing a %TAG directive"
  | .anchor => "while scanning an anchor"
  | .alias => "while scanning an alias"
  | .tag => "while scanning a tag"
  | .tagUri => "while parsing a tag"
  | .blockScalar => "while scanning a block scalar"
  | .quotedScalar => "while scanning a quoted scalar"
  | .escape => "while parsing a quoted scalar"
  | .plainScalar => "while scanning a plain scalar"
  | .node => "while parsing a node"
  | .blockNode => "while parsing a block node"
  | .flowNode => "while parsing a flow node"
  | .blockList => "while parsing a block collection"
  | .blockTable => "while parsing a block mapping"
  | .flowList => "while parsing a flow sequence"
  | .flowTable => "while parsing a flow mapping"

/-- A fault, its place, and what was being read since when. -/
structure Problem where
  fault : Fault
  mark : Mark
  /-- The number of bytes before the fault, where that is the only place that is known. -/
  offset : Nat := 0
  context : Option (Activity × Mark) := none
  deriving DecidableEq, Repr

def Problem.message (p : Problem) : String :=
  let place :=
    if p.mark.isOrigin ∧ p.offset ≠ 0 then " at position " ++ toString p.offset else p.mark.suffix
  let context :=
    match p.context with
    | none => ""
    | some (activity, start) =>
      ", " ++ activity.message ++ (if start.meets p.mark then "" else start.suffix)
  p.fault.message ++ place ++ context

end Tenancy.Yaml
