import Tenancy.Json.Printer
import Tenancy.Yaml.Meaning

/-! # Writing YAML

`render` writes a document in block style, two columns for each level; the dashes of a list in a
table are not indented. A text is written plain where that reads back as the same text. Else it
stands in quotes, or, if it has several lines, as a literal block.
-/

namespace Tenancy.Yaml

/-- A character with which a text in a block cannot start, whatever follows. -/
def isStartMark (c : Char) : Bool :=
  isFlowMark c || c == '#' || c == '&' || c == '*' || c == '!' || c == '|' || c == '>' || c == '\''
    || c == '"' || c == '%' || c == '@' || c == '\x60'

/-- Whether a text may start with these characters: a dash, a question mark or a colon needs
something behind it. -/
def startsWell : List Char → Bool
  | [] => false
  | '-' :: '-' :: '-' :: _ | '.' :: '.' :: '.' :: _ => false
  | [c] => !(isStartMark c || c == '-' || c == '?' || c == ':' || isBlank c)
  | c :: d :: _ =>
    !(isStartMark c || isBlank c || ((c == '-' || c == '?' || c == ':') && isBlank d))

/-- Whether no colon in a text ends a key and no `#` begins a comment. -/
def hasNoMark : List Char → Bool
  | [] => true
  | [c] => c != ':'
  | ':' :: ' ' :: _ | ' ' :: '#' :: _ => false
  | _ :: rest => hasNoMark rest

/-- Whether a text may stand without quotes. -/
def isPlainText (text : List Char) : Bool :=
  startsWell text && hasNoMark text && text.getLast?.all (!isBlank ·)
    && text.all fun c => isAllowed c && !isBreak c && c != '\t'

def renderLine (s : String) : String :=
  if !s.toList.all (fun c => isAllowed c && !isBreak c) then String.ofList (Json.renderText s)
  else if Meaning.ofPlain s = .text s ∧ isPlainText s.toList then s
  else
    let quoted := s.toList.flatMap fun c => if c = '\'' then ['\'', '\''] else [c]
    "'" ++ String.ofList quoted ++ "'"

/-- The lines of a text, without the line feeds between them. -/
def linesOf (text : List Char) : List String :=
  (text.splitOn '\n').map String.ofList

/-- A literal block: what stands on the line of its mark, and the lines of its content. -/
structure Literal where
  header : String
  lines : List String

/-- The literal block that says a text; only a text with line feeds is written so. -/
def literal? (s : String) : Option Literal :=
  let text := s.toList
  if !text.contains '\n' then none
  else
    let lines := linesOf text
    let indication := if text.head?.any fun c => c == ' ' || c == '\n' then "2" else ""
    match lines.getLast?, lines.dropLast with
    | some "", before =>
      if before.getLast? = some "" then some ⟨"|" ++ indication ++ "+", before⟩
      else some ⟨"|" ++ indication, before⟩
    | _, _ => some ⟨"|" ++ indication ++ "-", lines⟩

/-- Moves lines to the right by one level. An empty line stays empty. -/
def indentLines (lines : List String) : List String :=
  lines.map fun line => if line = "" then "" else "  " ++ line

/-- Lines with a dash before the first. -/
def itemLines : List String → List String
  | [] => ["-"]
  | line :: rest => ("- " ++ line) :: indentLines rest

/-- A value on the line of its key. -/
def inline? : Json → Option String
  | .null => some "null"
  | .bool b => some (toString b)
  | .number n => some (String.ofList n.render)
  | .string s => if s.toList.contains '\n' then none else some (renderLine s)
  | .array [] => some "[]"
  | .object [] => some "\x7b\x7d"
  | _ => none

mutual

def blockLines : Json → List String
  | .array (x :: xs) => itemLines (blockLines x) ++ itemsLines xs
  | .object ((k, v) :: rest) => memberLines k v (blockLines v) ++ membersLines rest
  | .string s =>
    match literal? s with
    | some l => l.header :: l.lines
    | none => [renderLine s]
  | j => [(inline? j).getD ""]

def itemsLines : List Json → List String
  | [] => []
  | x :: xs => itemLines (blockLines x) ++ itemsLines xs

def membersLines : List (String × Json) → List String
  | [] => []
  | (k, v) :: rest => memberLines k v (blockLines v) ++ membersLines rest

def memberLines (key : String) (value : Json) (lines : List String) : List String :=
  let key := renderLine key ++ ":"
  match inline? value, value, lines with
  | some text, _, _ => [key ++ " " ++ text]
  | none, .string _, header :: content => (key ++ " " ++ header) :: indentLines content
  | none, .array _, lines => key :: lines
  | none, _, lines => key :: indentLines lines

end

def render (document : Json) : String :=
  String.join ((blockLines document).map (· ++ "\n"))

end Tenancy.Yaml
