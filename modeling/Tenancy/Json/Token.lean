import Tenancy.Json.Fault

/-! # The tokens of a JSON text

A reader takes something off the front of the bytes and gives what it read with the bytes that
remain. Where it stops, the place of the error is the number of bytes still ahead: `stop` counts
all that was read as passed, `stopAt` also counts the byte that was only looked at.

Strings, numbers and words are read here. A string's bytes are checked as characters only when its
end has been found, so that a broken escape is reported before a broken character.
-/

namespace Tenancy.Json

/-- The bytes of a text that are still to be read. -/
abbrev Input := List UInt8

/-- What a reader gives, unless it stops. -/
abbrev Attempt := Except ReadError

def ascii (c : Char) : UInt8 := UInt8.ofNat c.toNat

def asciis (s : String) : List UInt8 := s.toList.map ascii

/-- Stops, with everything before `rest` read. -/
def stop {α : Type} (cause : Cause) (rest : Input) : Attempt α :=
  .error ⟨cause, rest.length, []⟩

/-- Stops at the first byte of `rest`, if there is one. -/
def stopAt {α : Type} (flaw : Flaw) (rest : Input) : Attempt α :=
  .error ⟨.flaw flaw, rest.length - 1, []⟩

/-- What is read is on the way to a value one step further in. -/
def within {α : Type} (step : Step) (r : Attempt α) : Attempt α :=
  r.mapError (ReadError.within step)

/-- The blanks of JSON: space, tab, line feed and carriage return. -/
def isSpace (b : UInt8) : Bool := b == 0x20 || b == 0x09 || b == 0x0A || b == 0x0D

/-- The input from its first byte that is not blank. -/
def skipSpace (input : Input) : Input := input.dropWhile isSpace

def digitOf? (b : UInt8) : Option Nat :=
  if 0x30 ≤ b.toNat ∧ b.toNat ≤ 0x39 then some (b.toNat - 0x30) else none

def isDigitByte (b : UInt8) : Bool := (digitOf? b).isSome

def startsWithDigit : Input → Bool
  | [] => false
  | b :: _ => isDigitByte b

def readWord : List UInt8 → Input → Attempt Input
  | [], rest => .ok rest
  | _ :: _, [] => stop (.flaw .endInValue) []
  | w :: ws, b :: rest => if b = w then readWord ws rest else stop (.flaw .expectedWord) rest

/-! ## Strings -/

def hexDigit? (b : UInt8) : Option Nat :=
  let n := b.toNat
  if 0x30 ≤ n ∧ n ≤ 0x39 then some (n - 0x30)
  else if 0x41 ≤ n ∧ n ≤ 0x46 then some (n - 0x41 + 10)
  else if 0x61 ≤ n ∧ n ≤ 0x66 then some (n - 0x61 + 10)
  else none

/-- The number that four hexadecimal digits spell. -/
def hexQuad? (a b c d : UInt8) : Option Nat := do
  let a ← hexDigit? a
  let b ← hexDigit? b
  let c ← hexDigit? c
  let d ← hexDigit? d
  return ((a * 16 + b) * 16 + c) * 16 + d

/-- Reads four hexadecimal digits. -/
def readQuad : Input → Attempt (Nat × Input)
  | a :: b :: c :: d :: rest =>
    match hexQuad? a b c d with
    | some n => .ok (n, rest)
    | none => stop (.flaw .invalidEscape) rest
  | _ => stop (.flaw .endInString) []

/-- The character that a one-letter escape stands for. -/
def shortEscape? (b : UInt8) : Option Char :=
  if b = ascii '"' then some '"'
  else if b = ascii '\\' then some '\\'
  else if b = ascii '/' then some '/'
  else if b = ascii 'b' then some '\x08'
  else if b = ascii 'f' then some '\x0c'
  else if b = ascii 'n' then some '\n'
  else if b = ascii 'r' then some '\r'
  else if b = ascii 't' then some '\t'
  else none

/-- Whether a number is the second half of a surrogate pair. -/
def isTrailing (n : Nat) : Bool := 0xDC00 ≤ n && n ≤ 0xDFFF

/-- Whether a number is the first half of a surrogate pair. -/
def isLeading (n : Nat) : Bool := 0xD800 ≤ n && n ≤ 0xDBFF

/-- Reads the second half of a surrogate pair, whose first half was `high`. -/
def readTrailing (high : Nat) : Input → Attempt (Char × Input)
  | [] => stop (.flaw .endInString) []
  | a :: rest =>
    if a ≠ ascii '\\' then stop (.flaw .endOfHexEscape) rest
    else
      match rest with
      | [] => stop (.flaw .endInString) []
      | u :: rest =>
        if u ≠ ascii 'u' then stop (.flaw .endOfHexEscape) rest
        else do
          let (low, rest) ← readQuad rest
          if isTrailing low then
            .ok (Char.ofNat (0x10000 + (high - 0xD800) * 0x400 + (low - 0xDC00)), rest)
          else stop (.flaw .loneSurrogate) rest

def readNumbered (input : Input) : Attempt (Char × Input) := do
  let (n, rest) ← readQuad input
  if isTrailing n then stop (.flaw .loneSurrogate) rest
  else if isLeading n then readTrailing n rest
  else .ok (Char.ofNat n, rest)

def readEscape : Input → Attempt (Char × Input)
  | [] => stop (.flaw .endInString) []
  | b :: rest =>
    match shortEscape? b with
    | some c => .ok (c, rest)
    | none => if b = ascii 'u' then readNumbered rest else stop (.flaw .invalidEscape) rest

/-- Reads a string up to its closing quote. `read` holds its characters so far, last first, and
`broken` what remained after the first byte at which no character starts. -/
def scanText : Nat → List Char → Option Input → Input → Attempt (String × Input)
  | 0, _, _, _ => stop (.flaw .endInString) []
  | _ + 1, _, _, [] => stop (.flaw .endInString) []
  | fuel + 1, read, broken, b :: rest =>
    if b = ascii '"' then
      match broken with
      | none => .ok (String.ofList read.reverse, rest)
      | some after => stop (.flaw .invalidCodePoint) after
    else if b = ascii '\\' then do
      let (c, rest) ← readEscape rest
      scanText fuel (c :: read) broken rest
    else if b.toNat < 0x20 then stop (.flaw .controlCharacter) rest
    else
      match Text.Utf8.decodeChar? (b :: rest) with
      | some (c, rest) => scanText fuel (c :: read) broken rest
      | none => scanText fuel read (broken.or (some rest)) rest

/-- Reads a string after its opening quote. -/
def readText (input : Input) : Attempt (String × Input) :=
  scanText (input.length + 1) [] none input

/-! ## Numbers -/

/-- Appends digits to `n` as long as the number stays below `limit`: the number, the count of the
digits taken, and what remains. -/
def gatherDigits (limit : Nat) : Nat → Nat → Input → Nat × Nat × Input
  | n, count, [] => (n, count, [])
  | n, count, b :: rest =>
    match digitOf? b with
    | some d =>
      if n * 10 + d < limit then gatherDigits limit (n * 10 + d) (count + 1) rest
      else (n, count, b :: rest)
    | none => (n, count, b :: rest)

/-- The digits of integers and significands that are kept: as many as 64 bits hold. -/
def wordLimit : Nat := twoTo 64

/-- An exponent of this size or more is out of every range. -/
def exponentLimit : Nat := twoTo 31

/-- The number `± digits * 10 ^ exponent`, which a double must be able to hold. -/
def readScaled (negative : Bool) (digits : Nat) (exponent : Int) (rest : Input) :
    Attempt (Number × Input) :=
  match Double.ofScaled? negative digits exponent with
  | some d => .ok (.double d, rest)
  | none => stop (.flaw .numberOutOfRange) rest

def readExponent (negative : Bool) (digits : Nat) (places : Int) (input : Input) :
    Attempt (Number × Input) :=
  let down : Bool := match input with
    | b :: _ => b == ascii '-'
    | [] => false
  let unsigned := match input with
    | b :: rest => if b = ascii '-' ∨ b = ascii '+' then rest else input
    | [] => []
  match unsigned with
  | [] => stop (.flaw .endInValue) []
  | b :: rest =>
    match digitOf? b with
    | none => stop (.flaw .invalidNumber) rest
    | some first =>
      let (exponent, _, rest) := gatherDigits exponentLimit first 1 rest
      match rest with
      | b :: after =>
        if isDigitByte b then
          if digits ≠ 0 ∧ !down then stop (.flaw .numberOutOfRange) after
          else .ok (.double (Double.zero negative), rest.dropWhile isDigitByte)
        else readScaled negative digits (places + (if down then -(exponent : Int) else exponent)) rest
      | [] => readScaled negative digits (places + (if down then -(exponent : Int) else exponent)) rest

/-- Goes on with an exponent, if there is one. -/
def readScale (negative : Bool) (digits : Nat) (places : Int) (input : Input) :
    Attempt (Number × Input) :=
  match input with
  | b :: rest =>
    if b = ascii 'e' ∨ b = ascii 'E' then readExponent negative digits places rest
    else readScaled negative digits places input
  | [] => readScaled negative digits places []

/-- Reads a fraction after its point. Digits past those that 64 bits hold are passed over. -/
def readFraction (negative : Bool) (digits : Nat) (places : Int) (input : Input) :
    Attempt (Number × Input) :=
  let (digits, count, rest) := gatherDigits wordLimit digits 0 input
  if startsWithDigit rest then
    readScale negative digits (places - count) (rest.dropWhile isDigitByte)
  else if count = 0 then
    if rest.isEmpty then stop (.flaw .endInValue) [] else stopAt .invalidNumber rest
  else readScale negative digits (places - count) rest

/-- The number for an integer with sign. A negative one beyond 64 bits is a double, and so is
negative zero. -/
def wholeNumber (negative : Bool) (n : Nat) : Number :=
  if !negative then .integer n
  else if 0 < n ∧ n ≤ twoTo 63 then .integer (-n)
  else
    let x := Double.ofInt n
    .double (.ofFloat (-x.toFloat))

/-- Goes on after the digits of an integer; `dropped` of them were passed over. -/
def readAfterInteger (negative : Bool) (n : Nat) (dropped : Option Nat) (input : Input) :
    Attempt (Number × Input) :=
  let finish : Attempt (Number × Input) :=
    match dropped with
    | none => .ok (wholeNumber negative n, input)
    | some k => readScaled negative n k input
  match input with
  | b :: rest =>
    if b = ascii '.' then readFraction negative n (dropped.getD 0) rest
    else if b = ascii 'e' ∨ b = ascii 'E' then readExponent negative n (dropped.getD 0) rest
    else finish
  | [] => finish

def readNumber (negative : Bool) : Input → Attempt (Number × Input)
  | [] => stop (.flaw .endInValue) []
  | b :: rest =>
    match digitOf? b with
    | none => stop (.flaw .invalidNumber) rest
    | some 0 =>
      if startsWithDigit rest then stopAt .invalidNumber rest
      else readAfterInteger negative 0 none rest
    | some first =>
      let (n, _, rest) := gatherDigits wordLimit first 1 rest
      if startsWithDigit rest then
        readAfterInteger negative n (some (rest.takeWhile isDigitByte).length)
          (rest.dropWhile isDigitByte)
      else readAfterInteger negative n none rest

/-! ## Scalars and punctuation -/

/-- Reads a scalar that starts with the byte `b`. -/
def readScalar (b : UInt8) (rest : Input) : Attempt (Json × Input) :=
  if b = ascii 'n' then do
    let rest ← readWord (asciis "ull") rest
    return (.null, rest)
  else if b = ascii 't' then do
    let rest ← readWord (asciis "rue") rest
    return (.bool true, rest)
  else if b = ascii 'f' then do
    let rest ← readWord (asciis "alse") rest
    return (.bool false, rest)
  else if b = ascii '"' then do
    let (s, rest) ← readText rest
    return (.string s, rest)
  else if b = ascii '-' then do
    let (n, rest) ← readNumber true rest
    return (.number n, rest)
  else if isDigitByte b then do
    let (n, rest) ← readNumber false (b :: rest)
    return (.number n, rest)
  else stopAt .expectedValue (b :: rest)

/-- Finds the next item of a list: whether there is one, and the input at it or at the closing
bracket. -/
def nextItem (first : Bool) (input : Input) : Attempt (Bool × Input) :=
  match skipSpace input with
  | [] => stop (.flaw .endInList) []
  | b :: rest =>
    if b = ascii ']' then .ok (false, b :: rest)
    else if first then .ok (true, b :: rest)
    else if b = ascii ',' then
      match skipSpace rest with
      | [] => stop (.flaw .endInValue) []
      | c :: rest =>
        if c = ascii ']' then stopAt .trailingComma (c :: rest) else .ok (true, c :: rest)
    else stopAt .expectedListEnd (b :: rest)

/-- Finds the next member of an object: whether there is one, and the input after the opening quote
of its name or at the closing brace. -/
def nextMember (first : Bool) (input : Input) : Attempt (Bool × Input) :=
  match skipSpace input with
  | [] => stop (.flaw .endInObject) []
  | b :: rest =>
    if b = ascii '\x7d' then .ok (false, b :: rest)
    else if first then
      if b = ascii '"' then .ok (true, rest) else stopAt .keyNotText (b :: rest)
    else if b = ascii ',' then
      match skipSpace rest with
      | [] => stop (.flaw .endInValue) []
      | c :: rest =>
        if c = ascii '"' then .ok (true, rest)
        else if c = ascii '\x7d' then stopAt .trailingComma (c :: rest)
        else stopAt .keyNotText (c :: rest)
    else stopAt .expectedObjectEnd (b :: rest)

def readColon (input : Input) : Attempt Input :=
  match skipSpace input with
  | [] => stop (.flaw .endInObject) []
  | b :: rest => if b = ascii ':' then .ok rest else stopAt .expectedColon (b :: rest)

end Tenancy.Json
