import Tenancy.Text.Blank

/-! # Dates with times

`Timestamp.read` accepts the relaxed form of RFC 3339: parts may be one digit short and stand apart,
a `T` or a blank separates the date from the time, fractions of a second are read and dropped, and
the zone is `Z`, `UTC` or an offset. `render` writes whole seconds of universal time.
-/

namespace Tenancy

/-- A second of universal time. A leap second is the one before it, marked. -/
structure Timestamp where
  seconds : Int
  leap : Bool
  deriving DecidableEq, Repr

namespace Timestamp

inductive Flaw where
  | outOfRange
  | invalid
  | tooShort
  | tooLong
  deriving DecidableEq, Repr

def Flaw.message : Flaw → String
  | .outOfRange => "input is out of range"
  | .invalid => "input contains invalid characters"
  | .tooShort => "premature end of input"
  | .tooLong => "trailing input"

/-- The days from 1970-01-01 to a date of the Gregorian calendar. -/
def daysOfDate (year : Int) (month day : Nat) : Int :=
  let y := if month ≤ 2 then year - 1 else year
  let era := y.fdiv 400
  let yearOfEra := y - era * 400
  let shifted := (month + 9) % 12
  let dayOfYear : Int := (153 * shifted + 2) / 5 + day - 1
  let dayOfEra := yearOfEra * 365 + yearOfEra / 4 - yearOfEra / 100 + dayOfYear
  era * 146097 + dayOfEra - 719468

def dateOfDays (days : Int) : Int × Nat × Nat :=
  let z := days + 719468
  let era := z.fdiv 146097
  let dayOfEra := (z - era * 146097).toNat
  let yearOfEra := (dayOfEra - dayOfEra / 1460 + dayOfEra / 36524 - dayOfEra / 146096) / 365
  let dayOfYear := dayOfEra - (365 * yearOfEra + yearOfEra / 4 - yearOfEra / 100)
  let shifted := (5 * dayOfYear + 2) / 153
  let day := dayOfYear - (153 * shifted + 2) / 5 + 1
  let month := if shifted < 10 then shifted + 3 else shifted - 9
  let year := era * 400 + yearOfEra
  (if month ≤ 2 then year + 1 else year, month, day)

def daysInMonth (year : Int) (month : Nat) : Nat :=
  if month = 2 then
    if year % 4 = 0 ∧ (year % 100 ≠ 0 ∨ year % 400 = 0) then 29 else 28
  else if month = 4 ∨ month = 6 ∨ month = 9 ∨ month = 11 then 30
  else 31

/-- Reads at least one and at most `width` digits. -/
private def readNumber (width : Nat) (cs : List Char) : Except Flaw (Nat × List Char) :=
  let run := (cs.take width).takeWhile Text.isDigit
  if cs.isEmpty then .error .tooShort
  else if run.isEmpty then .error .invalid
  else
    let n := (Text.digits run).1
    if n < 0x8000000000000000 then .ok (n, cs.drop run.length) else .error .outOfRange

/-- Reads a number within bounds, after blanks. -/
private def readPart (least greatest : Nat) (cs : List Char) : Except Flaw (Nat × List Char) := do
  let (n, rest) ← readNumber 2 (Text.dropBlank cs)
  if least ≤ n ∧ n ≤ greatest then .ok (n, rest) else .error .outOfRange

/-- Reads a year, which takes more than four digits only after a sign. -/
private def readYear (cs : List Char) : Except Flaw (Int × List Char) := do
  let (year, rest) ← match Text.dropBlank cs with
    | '-' :: cs => do
      let (n, rest) ← readNumber cs.length cs
      pure (-(n : Int), rest)
    | '+' :: cs => do
      let (n, rest) ← readNumber cs.length cs
      pure ((n : Int), rest)
    | cs => do
      let (n, rest) ← readNumber 4 cs
      pure ((n : Int), rest)
  if -0x80000000 ≤ year ∧ year < 0x80000000 then .ok (year, rest) else .error .outOfRange

/-- Reads one mark, after blanks. -/
private def readMark (mark : Char) (cs : List Char) : Except Flaw (List Char) :=
  match Text.dropBlank cs with
  | [] => .error .tooShort
  | c :: rest => if c = mark then .ok rest else .error .invalid

private def readZone (cs : List Char) : Except Flaw (Int × List Char) :=
  match cs with
  | 'Z' :: rest | 'z' :: rest => .ok (0, rest)
  | [] => .error .tooShort
  | sign :: rest => do
    let negative ←
      if sign = '+' then .ok false
      else if sign = '-' ∨ sign = '−' then .ok true
      else .error .invalid
    let (h, rest) ← pair rest
    let hours ← match h with
      | some n => .ok n
      | none => .error .invalid
    let rest := rest.dropWhile fun c => c == ':' || Text.isBlank c
    let (m, rest) ← pair rest
    let minutes ← match m with
      | some n => if n < 60 then .ok n else .error .outOfRange
      | none => .error .invalid
    let seconds : Int := hours * 3600 + minutes * 60
    .ok (if negative then -seconds else seconds, rest)
where
  /-- Two characters, and the number they spell. -/
  pair : List Char → Except Flaw (Option Nat × List Char)
    | a :: b :: rest => .ok (Text.natural? [a, b], rest)
    | _ => .error .tooShort

def read (s : String) : Except Flaw Timestamp := do
  let (year, cs) ← readYear s.toList
  let cs ← readMark '-' cs
  let (month, cs) ← readPart 1 12 cs
  let cs ← readMark '-' cs
  let (day, cs) ← readPart 1 31 cs
  let cs ← match cs with
    | [] => .error .tooShort
    | c :: rest => if c = 'T' ∨ c = 't' ∨ c = ' ' then .ok rest else .error .invalid
  let (hour, cs) ← readPart 0 23 cs
  let cs ← readMark ':' cs
  let (minute, cs) ← readPart 0 59 cs
  let cs ← readMark ':' cs
  let (second, cs) ← readPart 0 60 cs
  let cs ← match cs with
    | '.' :: rest => do
      let (_, rest) ← readNumber 9 rest
      pure (rest.dropWhile Text.isDigit)
    | _ => pure cs
  let cs := Text.dropBlank cs
  let (offset, cs) ←
    if (cs.take 3).map Char.toUpper = ['U', 'T', 'C'] then .ok ((0 : Int), cs.drop 3)
    else readZone cs
  if ¬(Text.dropBlank cs).isEmpty then .error .tooLong
  else if offset ≤ -86400 ∨ 86400 ≤ offset then .error .outOfRange
  else if year < -262143 ∨ 262142 < year ∨ daysInMonth year month < day then .error .outOfRange
  else
    let leap := second == 60
    let clock : Int := hour * 3600 + minute * 60 + (if leap then 59 else second)
    .ok ⟨daysOfDate year month day * 86400 + clock - offset, leap⟩

/-- `n` with at least `width` digits. -/
private def padded (width n : Nat) : String :=
  let digits := Nat.toDigits 10 n
  String.ofList (List.replicate (width - digits.length) '0' ++ digits)

/-- Writes a timestamp in whole seconds of universal time. -/
def render (t : Timestamp) : String :=
  let days := t.seconds.fdiv 86400
  let clock := (t.seconds - days * 86400).toNat
  let (year, month, day) := dateOfDays days
  let yearText :=
    if 0 ≤ year ∧ year ≤ 9999 then padded 4 year.toNat
    else if year < 0 then "-" ++ padded 4 year.natAbs
    else "+" ++ padded 4 year.natAbs
  let second := clock % 60 + (if t.leap then 1 else 0)
  yearText ++ "-" ++ padded 2 month ++ "-" ++ padded 2 day ++ "T" ++ padded 2 (clock / 3600) ++ ":"
    ++ padded 2 (clock / 60 % 60) ++ ":" ++ padded 2 second ++ "Z"

/-- The normal form of a timestamp's text. -/
def normalize (s : String) : Except Flaw String := (read s).map render

end Timestamp

end Tenancy
