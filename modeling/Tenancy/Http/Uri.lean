import Tenancy.Http.Target

/-! # Endpoints

An endpoint is given by its address: a scheme and two slashes, an authority and a path, or an
authority alone, or a path alone. The functions here say what is wrong with a text that is none of
these.
-/

namespace Tenancy.Http

inductive UriFault where
  | empty
  | tooLong
  | schemeTooLong
  | badChar
  | badAuthority
  | badFormat
  deriving DecidableEq, Repr

def UriFault.message : UriFault → String
  | .empty => "empty string"
  | .tooLong => "uri too long"
  | .schemeTooLong => "scheme too long"
  | .badChar => "invalid uri character"
  | .badAuthority => "invalid authority"
  | .badFormat => "invalid format"

namespace Uri

/-- The greatest number of bytes of an address. -/
def longest : Nat := 0xFFFE

/-- The greatest number of characters of a scheme. -/
def longestScheme : Nat := 64

/-- A character that may stand in a scheme. -/
def isSchemeChar (c : Char) : Bool := c.isAlphanum || c == '+' || c == '-' || c == '.' || c == '~'

/-- A character that may stand in an authority or is a mark in it. -/
def isAuthorityChar (c : Char) : Bool :=
  c.isAlphanum || "!$&'()*+,-.:;=@[]_~".contains c

def endsAuthority (c : Char) : Bool := c == '/' || c == '?' || c == '#'

/-- What has been seen of an authority. -/
structure Authority where
  /-- The colons since the last `@` or bracket. -/
  colons : Nat := 0
  opened : Bool := false
  closed : Bool := false
  /-- Whether there is a percent sign since the last `@` or bracket. -/
  percent : Bool := false
  /-- Whether the last character is an `@`. -/
  afterSign : Bool := false

def Authority.next (a : Authority) (c : Char) : Except UriFault Authority :=
  let a := { a with afterSign := false }
  if c = ':' then
    if 8 ≤ a.colons then .error .badAuthority else .ok { a with colons := a.colons + 1 }
  else if c = '[' then
    if a.percent ∨ a.opened then .error .badAuthority else .ok { a with opened := true }
  else if c = ']' then
    if !a.opened ∨ a.closed then .error .badAuthority
    else .ok { a with closed := true, colons := 0, percent := false }
  else if c = '@' then .ok { a with colons := 0, percent := false, afterSign := true }
  else if c = '%' then .ok { a with percent := true }
  else if isAuthorityChar c then .ok a
  else .error .badChar

def Authority.isComplete (a : Authority) : Bool :=
  a.opened == a.closed && a.colons ≤ 1 && !a.afterSign && !a.percent

def authority (text : List Char) : Except UriFault (List Char × List Char) := do
  let front := text.takeWhile (!endsAuthority ·)
  let a ← front.foldlM Authority.next {}
  if a.isComplete then return (front, text.drop front.length) else .error .badAuthority

/-- What is wrong with the scheme of an address, or how long the scheme is; nothing if there is no
scheme. -/
def scheme (text : List Char) : Except UriFault (Option Nat) :=
  let front := text.takeWhile isSchemeChar
  if (text.drop front.length).take 3 = [':', '/', '/'] ∧ 3 < text.length then
    if longestScheme < front.length then .error .schemeTooLong else .ok (some front.length)
  else .ok none

/-- Checks an address with a scheme or an authority. -/
def checkFull (text : List Char) : Except UriFault Unit := do
  match ← scheme text with
  | none =>
    let (_, rest) ← authority text
    if !rest.isEmpty then .error .badFormat
  | some n =>
    let (front, rest) ← authority (text.drop (n + 3))
    if front.isEmpty then .error .badFormat
    if (target? (String.ofList rest)).isNone then .error .badChar

def check (text : String) : Except UriFault Unit :=
  if longest < text.utf8ByteSize then .error .tooLong
  else
    match text.toList with
    | [] => .error .empty
    | ['/'] | ['*'] => .ok ()
    | [c] => do
      let (_, rest) ← authority [c]
      if !rest.isEmpty then .error .badChar
    | '/' :: rest => if (target? (String.ofList ('/' :: rest))).isNone then .error .badChar else .ok ()
    | cs => checkFull cs

end Uri

end Tenancy.Http
