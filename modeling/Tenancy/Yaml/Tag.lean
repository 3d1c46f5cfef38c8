import Tenancy.Text.Digits
import Tenancy.Text.Utf8
import Tenancy.Yaml.Cursor

/-! # Names in a text

Anchors, aliases, tags and directives. A tag is a handle and a suffix: the handle is one, two or
more characters between exclamation marks and stands for the beginning of the tag's full name; an
empty handle means that the suffix is the whole name.
-/

namespace Tenancy.Yaml

structure TagText where
  handle : String
  suffix : String
  deriving DecidableEq, Repr

/-- A character that may follow the name of an anchor. -/
def endsName (c : Char) : Bool :=
  isBlank c || isBreak c || c == '?' || c == ':' || c == ',' || c == ']' || c == '\x7d' || c == '%'
    || c == '@' || c == '\x60'

/-- Takes the name of an anchor or an alias, from its mark on. -/
def takeName (activity : Activity) (c : Cursor) : Except Problem (String × Cursor) :=
  let (name, after) := c.skip.takeWhile isNameChar
  if name.isEmpty ∨ !after.next?.all endsName then .error (after.problem .noName activity c.mark)
  else .ok (String.ofList name, after)

/-! ## Tags -/

/-- A character that may stand in a tag. -/
def isTagChar (verbatim : Bool) (c : Char) : Bool :=
  isNameChar c || c == ';' || c == '/' || c == '?' || c == ':' || c == '@' || c == '&' || c == '='
    || c == '+' || c == '$' || c == '.' || c == '%' || c == '!' || c == '~' || c == '*' || c == '\''
    || c == '(' || c == ')' || (verbatim && (c == ',' || c == '[' || c == ']'))

/-- The value of an octet that is written as a percent sign and two digits. -/
def octet? (text : List Char) : Option Nat :=
  match text with
  | '%' :: a :: b :: _ => do
    let high ← Text.digitValue? 16 a
    let low ← Text.digitValue? 16 b
    return high * 16 + low
  | _ => none

/-- The number of octets of a character, by its first one. -/
def octetCount (first : Nat) : Nat :=
  if first < 0x80 then 1
  else if first / 0x20 = 0x06 then 2
  else if first / 0x10 = 0x0E then 3
  else if first / 0x08 = 0x1E then 4
  else 0

/-- Takes `n` more octets of a character. -/
def takeOctets (activity : Activity) (start : Mark) :
    Nat → Cursor → Except Problem (List UInt8 × Cursor)
  | 0, c => .ok ([], c)
  | n + 1, c =>
    match octet? c.rest with
    | none => .error (c.problem .noUriEscape activity start)
    | some o =>
      if o / 0x40 ≠ 0x02 then .error (c.problem .badLaterOctet activity start)
      else do
        let (more, c) ← takeOctets activity start n (c.skipMany 3)
        return (UInt8.ofNat o :: more, c)

def takeOctetChar (activity : Activity) (start : Mark) (c : Cursor) :
    Except Problem (List UInt8 × Cursor) :=
  match octet? c.rest with
  | none => .error (c.problem .noUriEscape activity start)
  | some o =>
    match octetCount o with
    | 0 => .error (c.problem .badFirstOctet activity start)
    | n + 1 => do
      let (more, c) ← takeOctets activity start n (c.skipMany 3)
      return (UInt8.ofNat o :: more, c)

def takeTagBytes (activity : Activity) (start : Mark) (verbatim : Bool) :
    Nat → Cursor → Except Problem (List UInt8 × Cursor)
  | 0, c => .ok ([], c)
  | fuel + 1, c =>
    match c.next? with
    | none => .ok ([], c)
    | some x =>
      if !isTagChar verbatim x then .ok ([], c)
      else do
        let (bytes, c) ←
          if x = '%' then takeOctetChar activity start c
          else pure (Text.Utf8.encode (String.singleton x), c.skip)
        let (more, c) ← takeTagBytes activity start verbatim fuel c
        return (bytes ++ more, c)

/-- Takes what is left of a tag, of which something may have been taken already. -/
def takeTagRest (activity : Activity) (start : Mark) (verbatim : Bool) (taken : List Char)
    (c : Cursor) : Except Problem (String × Cursor) := do
  let (bytes, after) ← takeTagBytes activity start verbatim (c.rest.length + 1) c
  if taken.isEmpty ∧ after.mark.index = c.mark.index then .error (after.problem .noUri activity start)
  let suffix := (String.fromUTF8? (ByteArray.mk bytes.toArray)).getD ""
  return (String.ofList taken.tail ++ suffix, after)

/-- Takes a handle: an exclamation mark, name characters and perhaps a second mark, with which the
handle is complete. -/
def takeHandle (activity : Activity) (start : Mark) (c : Cursor) :
    Except Problem (List Char × Bool × Cursor) :=
  if !c.isAt '!' then .error (c.problem .noExclamation activity start)
  else
    let (name, after) := c.skip.takeWhile isNameChar
    if after.isAt '!' then .ok ('!' :: name ++ ['!'], true, after.skip)
    else .ok ('!' :: name, false, after)

def takeTag (inFlow : Bool) (c : Cursor) : Except Problem (TagText × Cursor) := do
  let start := c.mark
  let (tag, after) ←
    if c.ahead? 1 = some '<' then do
      let (suffix, after) ← takeTagRest .tagUri start true [] (c.skipMany 2)
      if !after.isAt '>' then .error (after.problem .noAngle .tag start)
      pure (⟨"", suffix⟩, after.skip)
    else do
      let (handle, complete, after) ← takeHandle .tag start c
      if complete then
        let (suffix, after) ← takeTagRest .tagUri start false [] after
        pure (⟨String.ofList handle, suffix⟩, after)
      else
        let (suffix, after) ← takeTagRest .tagUri start false handle after
        pure (if suffix.isEmpty then ⟨"", "!"⟩ else ⟨"!", suffix⟩, after)
  if after.isGapAhead 0 ∨ (inFlow ∧ after.isAt ',') then return (tag, after)
  else .error (after.problem .noBlankOrBreak .tag start)

/-! ## Directives -/

inductive Directive where
  | version (major minor : Nat)
  | handle (name stem : String)
  deriving DecidableEq, Repr

def takeVersionNumber (start : Mark) (c : Cursor) : Except Problem (Nat × Cursor) :=
  let digits := c.rest.takeWhile Char.isDigit
  if 9 < digits.length then .error ((c.skipMany 9).problem .longVersionNumber .versionDirective start)
  else if digits.isEmpty then .error (c.problem .noVersionNumber .versionDirective start)
  else .ok (Text.digitsValue 10 digits, c.skipMany digits.length)

def takeVersion (start : Mark) (c : Cursor) : Except Problem (Directive × Cursor) := do
  let (major, c) ← takeVersionNumber start (c.skipWhile isBlank)
  if !c.isAt '.' then .error (c.problem .noVersionPoint .versionDirective start)
  let (minor, c) ← takeVersionNumber start c.skip
  return (.version major minor, c)

def takeHandleDirective (start : Mark) (c : Cursor) : Except Problem (Directive × Cursor) := do
  let (handle, complete, c) ← takeHandle .tagDirectiveHandle start (c.skipWhile isBlank)
  if !complete ∧ handle ≠ ['!'] then .error (c.problem .noExclamation .tagDirectiveEnd start)
  if !c.atClass isBlank then .error (c.problem .noBlank .tagDirective start)
  let (stem, c) ← takeTagRest .tagDirectiveUri start true [] (c.skipWhile isBlank)
  if !c.isGapAhead 0 then .error (c.problem .noBlankOrBreak .tagDirective start)
  return (.handle (String.ofList handle) stem, c)

def takeDirective (c : Cursor) : Except Problem (Directive × Cursor) := do
  let start := c.mark
  let (name, c) := c.skip.takeWhile isNameChar
  if name.isEmpty then .error (c.problem .noDirectiveName .directive start)
  if !c.isGapAhead 0 then .error (c.problem .directiveNameNotAlphabetic .directive start)
  let (directive, c) ←
    if name = ['Y', 'A', 'M', 'L'] then takeVersion start c
    else if name = ['T', 'A', 'G'] then takeHandleDirective start c
    else .error (c.problem .unknownDirective .directive start)
  let c := (c.skipWhile isBlank).skipComment
  if !c.atLineEnd then .error (c.problem .noCommentOrBreak .directive start)
  return (directive, c.takeBreak.2)

end Tenancy.Yaml
