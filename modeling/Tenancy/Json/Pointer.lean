import Tenancy.Json.Basic

/-! # Pointers into documents

A pointer names a place in a document by the names and indices on the way to it. As text each is
written after a slash, with `~0` for a tilde and `~1` for a slash in it; the empty text is the whole
document.
-/

namespace Tenancy.Json

/-- The names and indices on the way to a place. -/
structure Pointer where
  tokens : List String
  deriving DecidableEq, Repr

namespace Pointer

def root : Pointer := ⟨[]⟩

def push (p : Pointer) (token : String) : Pointer := ⟨p.tokens ++ [token]⟩

/-- How one character of a token is written. -/
def renderChar (c : Char) : List Char :=
  if c = '~' then ['~', '0'] else if c = '/' then ['~', '1'] else [c]

def render (p : Pointer) : String :=
  String.ofList (p.tokens.flatMap fun token => '/' :: token.toList.flatMap renderChar)

inductive Flaw where
  /-- It is not empty and does not start with a slash. -/
  | noSlash
  /-- A tilde in it is followed by neither `0` nor `1`. -/
  | loneTilde
  deriving DecidableEq, Repr

def Flaw.message : Flaw → String
  | .noSlash => "json pointer failed to parse; does not start with a slash ('/') and is not empty"
  | .loneTilde => "json pointer failed to parse; token contains invalid encoding"

/-- Reads the tokens after the first slash. `token` holds the one being read, last character
first. -/
def readTokens (token : List Char) : List Char → Except Flaw (List String)
  | [] => .ok [String.ofList token.reverse]
  | '~' :: '0' :: rest => readTokens ('~' :: token) rest
  | '~' :: '1' :: rest => readTokens ('/' :: token) rest
  | c :: rest =>
    if c = '~' then .error .loneTilde
    else if c = '/' then (readTokens [] rest).map (String.ofList token.reverse :: ·)
    else readTokens (c :: token) rest

def read (s : String) : Except Flaw Pointer :=
  match s.toList with
  | [] => .ok root
  | '/' :: rest => (readTokens [] rest).map Pointer.mk
  | _ => .error .noSlash

end Pointer

/-- The index that a token names in a list: digits without a zero in front of others. -/
def index? (token : String) : Option Nat :=
  match token.toList with
  | ['0'] => some 0
  | '0' :: _ => none
  | [] => none
  | cs => if cs.all Char.isDigit then token.toNat? else none

/-- The value one step inside another. -/
def child? (token : String) : Json → Option Json
  | .object members => lookup token members
  | .array items => (index? token).bind (items[·]?)
  | _ => none

/-- The value with another one step inside it, where there was one before. -/
def setChild? (token : String) (container child : Json) : Option Json :=
  match container with
  | .object members => some (.object (insert token child members))
  | .array items => (index? token).map fun i => .array (items.set i child)
  | _ => none

def at? : List String → Json → Option Json
  | [], j => some j
  | token :: rest, j => do at? rest (← j.child? token)

/-- Changes the container of the last token, on the way of the tokens before it. -/
def edit? (change : String → Json → Option Json) (token : String) :
    List String → Json → Option Json
  | [], j => change token j
  | next :: rest, j => do
    let child ← j.child? token
    j.setChild? token (← edit? change next rest child)

end Tenancy.Json
