/-! # Media types

Just enough of the syntax of `Content-Type` to tell JSON from everything else: a type, a subtype
that may end in a suffix after `+`, and parameters.
-/

namespace Tenancy.Http

/-- Whether a character may stand in a name. -/
def isTokenChar (c : Char) : Bool :=
  c.isAlphanum || "!#$%&'+-.^_`|~".toList.contains c

/-- A media type without its parameters, in small letters. -/
structure MediaType where
  main : String
  /-- The subtype up to the last `+`. -/
  sub : String
  /-- What follows the last `+`. -/
  suffix : Option String
  deriving DecidableEq, Repr

/-- Whether a character may stand in a quoted value. -/
def isQuotable (c : Char) : Bool := 31 < c.toNat && c.toNat != 127

/-- What follows the closing quote of a value, if it has one. -/
def quotedEnd? : List Char → Option (List Char)
  | [] => none
  | '"' :: rest => some rest
  | c :: rest => if isQuotable c then quotedEnd? rest else none

/-- What follows a parameter's value, `none` if the value is broken. -/
def valueEnd? (cs : List Char) : Option (List Char) :=
  match cs with
  | '"' :: c :: rest =>
    -- the first character of a quoted value may be anything, even a quote
    if isQuotable c then do
      let after ← quotedEnd? rest
      match after.dropWhile (· = ' ') with
      | [] => some []
      | ';' :: rest => some rest
      | _ => none
    else none
  | _ =>
    match cs.dropWhile isTokenChar with
    | [] => some []
    | ';' :: rest => if (cs.takeWhile isTokenChar).isEmpty then none else some rest
    | _ => none

/-- Whether these are parameters, each after a semicolon. -/
def areParameters : Nat → List Char → Bool
  | 0, cs => cs.isEmpty
  | fuel + 1, cs =>
    match cs.dropWhile (· = ' ') with
    | [] => true
    | cs =>
      match cs.dropWhile isTokenChar with
      | '=' :: rest =>
        if (cs.takeWhile isTokenChar).isEmpty then false
        else
          match valueEnd? rest with
          | some rest => areParameters fuel rest
          | none => false
      | _ => false

/-- Splits a subtype at its last `+`, which is not its first character. -/
def splitSuffix (cs : List Char) : List Char × Option (List Char) :=
  let suffix := (cs.reverse.takeWhile (· ≠ '+')).reverse
  let stem := cs.take (cs.length - suffix.length - 1)
  if stem.isEmpty ∨ suffix.length = cs.length then (cs, none) else (stem, some suffix)

def MediaType.read? (s : String) : Option MediaType :=
  let cs := s.toList.map Char.toLower
  let main := cs.takeWhile isTokenChar
  match cs.dropWhile isTokenChar with
  | '/' :: rest =>
    let sub := rest.takeWhile isTokenChar
    let known : Bool :=
      match rest.dropWhile isTokenChar with
      | [] => true
      | ';' :: parameters => !sub.isEmpty && areParameters (parameters.length + 1) parameters
      | _ => false
    if main.isEmpty ∨ !known then none
    else
      let (sub, suffix) := splitSuffix sub
      some ⟨String.ofList main, String.ofList sub, suffix.map String.ofList⟩
  | _ => none

def MediaType.isJson (m : MediaType) : Bool :=
  m.main = "application" && (m.sub = "json" || m.suffix = some "json")

end Tenancy.Http
