import Tenancy.Decimal.Double

/-! # Shortest decimals

`shortest` gives the fewest decimal digits that read back as a double, and of those the nearest to
it. The double stands for the interval of reals that round to it; for one digit, two digits and so
on the two neighbours of the value on that decimal grid are tested in exact integer arithmetic, and
the first grid with a hit wins. Seventeen digits always suffice.

`Format` holds what a writer decides about such digits, and `render` writes them.
-/

namespace Tenancy.Decimal

/-- The decimal `0.d₁d₂…dₙ * 10 ^ point`, without sign, where `digits` spells `d₁d₂…dₙ`. -/
structure Digits where
  digits : Nat
  point : Int
  deriving DecidableEq, Repr

/-- The interval of reals that round to a double, scaled to integers: the value is `value / unit`
and the ends are `low / unit` and `high / unit`, included when `closed`. -/
structure Interval where
  low : Nat
  value : Nat
  high : Nat
  unit : Nat
  closed : Bool

/-- The interval of a finite, nonzero double. Below a power of two the spacing halves. -/
def Interval.ofDouble (d : Double) : Interval :=
  let m := d.significand
  let e := d.exponent - 2
  let up := if 0 ≤ e then twoTo e.toNat else 1
  let unit := if 0 ≤ e then 1 else twoTo (-e).toNat
  let below := if d.fractionField = 0 ∧ 1 < d.exponentField then 1 else 2
  ⟨(4 * m - below) * up, 4 * m * up, (4 * m + 2) * up, unit, m % 2 == 0⟩

/-- The number of decimal digits of `n`, at least one. -/
def digitCount (n : Nat) : Nat := (Nat.toDigits 10 n).length

/-- The least `p` with `value < 10 ^ p`. -/
def Interval.magnitude (i : Interval) : Int :=
  if i.unit ≤ i.value then digitCount (i.value / i.unit)
  else
    -- below one: count the leading zeros of the fraction
    let inverse := i.unit / i.value
    let n := digitCount inverse
    if i.unit ≤ i.value * tenTo (n - 1) then -(n - 1 : Nat) + 1 else -(n : Int) + 1

/-- Whether `k * 10 ^ q` lies in the interval. -/
def Interval.contains (i : Interval) (k : Nat) (q : Int) : Bool :=
  let x := if 0 ≤ q then k * tenTo q.toNat * i.unit else k * i.unit
  let scale := if 0 ≤ q then 1 else tenTo (-q).toNat
  let low := i.low * scale
  let high := i.high * scale
  if i.closed then low ≤ x && x ≤ high else low < x && x < high

/-- The value's nearest point on the grid of multiples of `10 ^ q`, of the two around it, that lies
in the interval; a tie goes to the even one. -/
def Interval.onGrid? (i : Interval) (q : Int) : Option Nat :=
  let num := if 0 ≤ q then i.value else i.value * tenTo (-q).toNat
  let den := if 0 ≤ q then i.unit * tenTo q.toNat else i.unit
  let k := num / den
  let rest := num % den
  let nearFirst : Bool := 2 * rest < den || (2 * rest == den && k % 2 == 0)
  let near := if nearFirst then k else k + 1
  let far := if nearFirst then k + 1 else k
  if 0 < near && i.contains near q then some near
  else if 0 < far && i.contains far q then some far
  else none

/-- Tries grids of more and more digits. -/
def Interval.search (i : Interval) (magnitude : Int) : Nat → Nat → Nat × Int
  | 0, n => (i.value / i.unit, magnitude - n)
  | tries + 1, n =>
    match i.onGrid? (magnitude - n) with
    | some k => (k, magnitude - n)
    | none => i.search magnitude tries (n + 1)

/-- Drops zeros at the end of `k`, which stands for `k * 10 ^ q`. -/
def dropZeros : Nat → Nat → Int → Nat × Int
  | 0, k, q => (k, q)
  | fuel + 1, k, q => if k % 10 = 0 ∧ k ≠ 0 then dropZeros fuel (k / 10) (q + 1) else (k, q)

/-- The shortest digits of a finite, nonzero double, sign aside. -/
def shortest (d : Double) : Digits :=
  let i := Interval.ofDouble d
  let (k, q) := i.search i.magnitude 18 1
  let (k, q) := dropZeros 20 k q
  ⟨k, q + digitCount k⟩

/-- How a writer lays out shortest digits. -/
structure Format where
  /-- The least place of the first digit that is written positionally: `10 ^ lowest`. -/
  lowest : Int
  /-- The least power of ten written with an exponent. -/
  limit : Int
  /-- What stands before a positive exponent. -/
  plus : String
  /-- What follows a positional integer. -/
  fraction : String
  /-- How not-a-number and the infinities are written. -/
  nan : String
  infinity : String

private def zeros (n : Nat) : String := String.ofList (List.replicate n '0')

/-- Digits with the point after the first `n` of them. -/
private def splitAt (digits : List Char) (n : Nat) : String :=
  String.ofList (digits.take n) ++ "." ++ String.ofList (digits.drop n)

/-- Writes digits without a sign. -/
def Format.renderDigits (f : Format) (d : Digits) : String :=
  let cs := Nat.toDigits 10 d.digits
  let n : Int := cs.length
  let first := d.point - 1
  if f.lowest ≤ first ∧ first < f.limit then
    if d.point ≤ 0 then "0." ++ zeros (-d.point).toNat ++ String.ofList cs
    else if n ≤ d.point then String.ofList cs ++ zeros (d.point - n).toNat ++ f.fraction
    else splitAt cs d.point.toNat
  else
    let mantissa := if cs.length = 1 then String.ofList cs else splitAt cs 1
    let sign := if 0 ≤ first then f.plus else "-"
    mantissa ++ "e" ++ sign ++ toString first.natAbs

def Format.render (f : Format) (d : Double) : String :=
  if d.isNaN then f.nan
  else
    let sign := if d.isNegative then "-" else ""
    if !d.isFinite then sign ++ f.infinity
    else if d.significand = 0 then sign ++ "0" ++ f.fraction
    else sign ++ f.renderDigits (shortest d)

/-- Documents: positional from `10 ^ -5` to below `10 ^ 16`, with a signed exponent outside, and a
fraction always shown. What is not finite has no number and is written as null. -/
def documentFormat : Format := ⟨-5, 16, "+", ".0", "null", "null"⟩

/-- Plain prose: always positional. -/
def proseFormat : Format := ⟨-400, 400, "+", ".0", "NaN", "inf"⟩

end Tenancy.Decimal
