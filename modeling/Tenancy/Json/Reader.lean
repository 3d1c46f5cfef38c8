import Tenancy.Json.Token

/-! # Reading documents

`read` turns the bytes of a JSON text into a document. Of members with one name the last counts,
and the members are put into increasing order. A text may nest at most 127 containers.
-/

namespace Tenancy.Json

/-- The number of containers that may be open at once is one less than this. -/
def depthLimit : Nat := 128

mutual

/-- Reads a value. Every call takes a byte off the input or ends, so that twice the length of the
input is fuel enough. -/
def readDocument : Nat → Nat → Input → Attempt (Json × Input)
  | 0, _, _ => stop (.flaw .endInValue) []
  | fuel + 1, depth, input =>
    match skipSpace input with
    | [] => stop (.flaw .endInValue) []
    | b :: rest =>
      if b = ascii '[' then
        if depth ≤ 1 then stopAt .tooDeep (b :: rest)
        else do
          let (items, rest) ← readItems fuel (depth - 1) 0 rest
          return (.array items, rest)
      else if b = ascii '\x7b' then
        if depth ≤ 1 then stopAt .tooDeep (b :: rest)
        else do
          let (members, rest) ← readMembers fuel (depth - 1) true rest
          return (.object (ofMembers members), rest)
      else readScalar b rest

/-- Reads the items of a list from the one with the given index on, and the closing bracket. -/
def readItems : Nat → Nat → Nat → Input → Attempt (List Json × Input)
  | 0, _, _, _ => stop (.flaw .endInList) []
  | fuel + 1, depth, index, input => do
    let (more, input) ← within (.index index) (nextItem (index == 0) input)
    if more then
      let (item, rest) ← within (.index index) (readDocument fuel depth input)
      let (items, rest) ← readItems fuel depth (index + 1) rest
      return (item :: items, rest)
    else
      return ([], input.tail)

/-- Reads the members of an object and the closing brace. -/
def readMembers : Nat → Nat → Bool → Input → Attempt (List (String × Json) × Input)
  | 0, _, _, _ => stop (.flaw .endInObject) []
  | fuel + 1, depth, first, input => do
    let (more, input) ← nextMember first input
    if more then
      let (name, rest) ← readText input
      let (value, rest) ← within (.field name) do
        readDocument fuel depth (← readColon rest)
      let (members, rest) ← readMembers fuel depth false rest
      return ((name, value) :: members, rest)
    else
      return ([], input.tail)

end

def readFuel (text : Input) : Nat := 2 * text.length + 2

/-- Nothing but blanks may follow. -/
def readEnd (rest : Input) : Attempt Unit :=
  match skipSpace rest with
  | [] => .ok ()
  | b :: rest => stopAt .trailingCharacters (b :: rest)

def read (text : Input) : Attempt Json := do
  let (value, rest) ← readDocument (readFuel text) depthLimit text
  readEnd rest
  return value

end Tenancy.Json
