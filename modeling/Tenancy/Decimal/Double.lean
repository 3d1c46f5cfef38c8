import Tenancy.Decimal.Power

/-! # Binary floating-point numbers

A `Double` is one of the 64-bit patterns of IEEE 754. `ofScaled?` reads a decimal the way the
documents' number format asks for: the digits that fit 64 bits, then a power of ten applied in
floating point, so that the result may differ from the nearest double in the last place.
-/

namespace Tenancy

/-- A 64-bit floating-point number, held as its bits so that equality is decidable. -/
structure Double where
  bits : UInt64
  deriving DecidableEq, Repr, Inhabited

namespace Double

def ofFloat (x : Float) : Double := ⟨x.toBits⟩

def toFloat (d : Double) : Float := Float.ofBits d.bits

def isNegative (d : Double) : Bool := d.bits.toNat / twoTo 63 == 1

def exponentField (d : Double) : Nat := d.bits.toNat / twoTo 52 % twoTo 11

def fractionField (d : Double) : Nat := d.bits.toNat % twoTo 52

/-- Neither infinite nor not-a-number. -/
def isFinite (d : Double) : Bool := d.exponentField != twoTo 11 - 1

def isNaN (d : Double) : Bool := !d.isFinite && d.fractionField != 0

/-- The value of a finite double without its sign is `significand * 2 ^ exponent`. -/
def significand (d : Double) : Nat :=
  if d.exponentField = 0 then d.fractionField else d.fractionField + twoTo 52

/-- The power of two that goes with `significand`. -/
def exponent (d : Double) : Int :=
  if d.exponentField = 0 then -1074 else (d.exponentField : Int) - 1075

def ofInt (i : Int) : Double :=
  ofFloat (if i < 0 then -(Float.ofNat i.natAbs) else Float.ofNat i.natAbs)

private def powerOfTen (n : Nat) : Float := Float.ofScientific 1 false n

/-- Applies a power of ten to `x`, at most 308 places at a time; nothing when the result leaves the
finite doubles. Three rounds are enough, for the second division already reaches zero. -/
private def scale? : Nat → Float → Int → Option Float
  | 0, x, _ => some x
  | rounds + 1, x, e =>
    if e.natAbs ≤ 308 then
      if 0 ≤ e then
        let y := x * powerOfTen e.natAbs
        if y.isInf then none else some y
      else some (x / powerOfTen e.natAbs)
    else if x == 0.0 then some x
    else if 0 ≤ e then none
    else scale? rounds (x / powerOfTen 308) (e + 308)

/-- The double for `± digits * 10 ^ exponent`, unless it is too large. -/
def ofScaled? (negative : Bool) (digits : Nat) (exponent : Int) : Option Double :=
  (scale? 4 (UInt64.ofNat digits).toFloat exponent).map fun x =>
    ofFloat (if negative then -x else x)

def zero (negative : Bool) : Double := if negative then ⟨0x8000000000000000⟩ else ⟨0⟩

end Double

end Tenancy
