import Tenancy.Text.Digits

/-! # Socket addresses

An address to listen on: a host, in one of the two versions of the internet protocol, and a port.
Reading takes the whole text; a host of version four has no needless zeros, one of version six
stands in brackets and may leave out one row of zero groups. Writing gives the shortest form.
-/

namespace Tenancy.Http

/-- A host. The groups of version six are eight numbers below `2 ^ 16`; the zone is zero unless the
host is known by it. -/
inductive Host where
  | v4 (a b c d : Nat)
  | v6 (groups : List Nat) (zone : Nat)
  deriving DecidableEq, Repr

structure Address where
  host : Host
  port : Nat
  deriving DecidableEq, Repr

namespace Address

/-! ## Reading -/

/-- Which numbers may stand in a place of an address. -/
structure Numeral where
  base : Nat
  /-- The greatest number of digits, if there is one. -/
  width : Option Nat
  /-- Whether a number of several digits may start with zero. -/
  leadingZero : Bool
  greatest : Nat

/-- One of the four numbers of a version four host. -/
def octet : Numeral := ⟨10, some 3, false, 255⟩

/-- One of the eight numbers of a version six host. -/
def group : Numeral := ⟨16, some 4, true, 0xFFFF⟩

def portNumber : Numeral := ⟨10, none, true, 0xFFFF⟩

/-- The zone of a version six host. -/
def zoneNumber : Numeral := ⟨10, none, true, 0xFFFFFFFF⟩

/-- Takes a number from the front. -/
def Numeral.take? (n : Numeral) (text : List Char) : Option (Nat × List Char) :=
  let digits := text.takeWhile fun c => (Text.digitValue? n.base c).isSome
  let value := Text.digitsValue n.base digits
  if digits.isEmpty then none
  else if n.width.any (· < digits.length) then none
  else if !n.leadingZero ∧ digits.head? = some '0' ∧ 1 < digits.length then none
  else if n.greatest < value then none
  else some (value, text.drop digits.length)

def char? (c : Char) : List Char → Option (List Char)
  | d :: rest => if d = c then some rest else none
  | [] => none

/-- Takes a version four host from the front. -/
def v4? (text : List Char) : Option ((Nat × Nat × Nat × Nat) × List Char) := do
  let (a, text) ← octet.take? text
  let (b, text) ← octet.take? (← char? '.' text)
  let (c, text) ← octet.take? (← char? '.' text)
  let (d, text) ← octet.take? (← char? '.' text)
  return ((a, b, c, d), text)

/-- Takes groups from the front, at most `limit`, and says whether the last two were written as a
version four host. A colon stands before each group except the first. -/
def takeGroups (limit : Nat) (first : Bool) (text : List Char) : List Nat × Bool × List Char :=
  match limit with
  | 0 => ([], false, text)
  | left + 1 =>
    let here := if first then some text else char? ':' text
    let embedded := if 0 < left then here.bind v4? else none
    match embedded with
    | some ((a, b, c, d), rest) => ([a * 256 + b, c * 256 + d], true, rest)
    | none =>
      match here.bind group.take? with
      | some (g, rest) =>
        let (gs, v4, rest) := takeGroups left false rest
        (g :: gs, v4, rest)
      | none => ([], false, text)

/-- Takes the groups of a version six host from the front. -/
def v6? (text : List Char) : Option (List Nat × List Char) := do
  let (front, v4, rest) := takeGroups 8 true text
  if front.length = 8 then return (front, rest)
  if v4 then none
  let rest ← char? ':' rest
  let rest ← char? ':' rest
  let (back, _, rest) := takeGroups (7 - front.length) true rest
  return (front ++ List.replicate (8 - front.length - back.length) 0 ++ back, rest)

/-- Takes the zone of a version six host; without one it is zero. -/
def zone (text : List Char) : Nat × List Char :=
  match (char? '%' text).bind zoneNumber.take? with
  | some result => result
  | none => (0, text)

def port? (text : List Char) : Option Nat := do
  let (port, rest) ← portNumber.take? (← char? ':' text)
  if rest.isEmpty then return port else none

def read? (text : String) : Option Address :=
  let cs := text.toList
  match v4? cs with
  | some ((a, b, c, d), rest) => (port? rest).map (⟨.v4 a b c d, ·⟩)
  | none => do
    let (groups, rest) ← v6? (← char? '[' cs)
    let (zone, rest) := zone rest
    return ⟨.v6 groups zone, ← port? (← char? ']' rest)⟩

/-! ## Writing -/

/-- Four numbers with dots between. -/
def dotted (a b c d : Nat) : String :=
  String.intercalate "." [toString a, toString b, toString c, toString d]

def coloned (groups : List Nat) : String :=
  String.intercalate ":" (groups.map fun g => String.ofList (Nat.toDigits 16 g))

/-- The length of the row of zeros at the front. -/
def zeroRun (groups : List Nat) : Nat := (groups.takeWhile (· == 0)).length

/-- Where the longest row of zeros starts, and its length; of several, the first. -/
def longestZeros (groups : List Nat) : Nat × Nat :=
  (List.range groups.length).foldl
    (fun best start =>
      let n := zeroRun (groups.drop start)
      if best.2 < n then (start, n) else best)
    (0, 0)

/-- The shortest form of eight groups. -/
def renderGroups (groups : List Nat) : String :=
  match groups with
  | [0, 0, 0, 0, 0, 0xFFFF, high, low] =>
    "::ffff:" ++ dotted (high / 256) (high % 256) (low / 256) (low % 256)
  | groups =>
    let (start, n) := longestZeros groups
    if 1 < n then coloned (groups.take start) ++ "::" ++ coloned (groups.drop (start + n))
    else coloned groups

def renderHost : Host → String
  | .v4 a b c d => dotted a b c d
  | .v6 groups 0 => "[" ++ renderGroups groups ++ "]"
  | .v6 groups zone => "[" ++ renderGroups groups ++ "%" ++ toString zone ++ "]"

def render (a : Address) : String := renderHost a.host ++ ":" ++ toString a.port

/-- Whether only this machine, or every interface of it, is meant. -/
def isLocal (a : Address) : Bool :=
  match a.host with
  | .v4 127 _ _ _ | .v4 0 0 0 0 => true
  | .v6 [0, 0, 0, 0, 0, 0, 0, last] _ => last ≤ 1
  | _ => false

end Address

end Tenancy.Http
