import Tenancy.Decimal.Double

/-! # Rounding to the nearest

`roundHalfEven` rounds a quotient to an integer, `Double.nearest` to a double; of two that are
equally near both take the even one.
-/

namespace Tenancy

/-- `num / den` rounded to the nearest integer, a tie to the even one. -/
def roundHalfEven (num den : Nat) : Nat :=
  let q := num / den
  let rest := num % den
  if 2 * rest < den ∨ (2 * rest = den ∧ q % 2 = 0) then q else q + 1

namespace Double

/-- The least exponent of a double's last place. -/
def leastExponent : Int := -1074

/-- The exponent of the last place of a double near `num / den`, which gives the quotient 53 bits
where that is possible. -/
def placeOf (num den : Nat) : Int :=
  let e : Int := (num.log2 : Int) - den.log2 - 53
  let scaled := if 0 ≤ e then num / (den * twoTo e.toNat) else num * twoTo (-e).toNat / den
  max leastExponent (if twoTo 53 ≤ scaled then e + 1 else e)

/-- The double that is nearest to `num / den`; infinite, if that is too large. -/
def nearest (num den : Nat) : Double :=
  let e := placeOf num den
  let m :=
    if 0 ≤ e then roundHalfEven num (den * twoTo e.toNat)
    else roundHalfEven (num * twoTo (-e).toNat) den
  let (m, e) := if m = twoTo 53 then (twoTo 52, e + 1) else (m, e)
  if m < twoTo 52 then ⟨UInt64.ofNat m⟩
  else
    let field := (e + 1075).toNat
    if 2047 ≤ field then ⟨0x7FF0000000000000⟩
    else ⟨UInt64.ofNat (field * twoTo 52 + (m - twoTo 52))⟩

/-- The double that is nearest to `digits * 10 ^ exponent`. Far outside the range of doubles the
answer does not depend on the digits. -/
def ofDecimal (digits : Nat) (exponent : Int) : Double :=
  let size := (Nat.toDigits 10 digits).length + exponent
  if digits = 0 ∨ size < -400 then ⟨0⟩
  else if 400 < size then ⟨0x7FF0000000000000⟩
  else if 0 ≤ exponent then nearest (digits * tenTo exponent.toNat) 1
  else nearest digits (tenTo (-exponent).toNat)

def negated (d : Double) : Double := ⟨d.bits ^^^ 0x8000000000000000⟩

def infinity (negative : Bool) : Double :=
  if negative then ⟨0xFFF0000000000000⟩ else ⟨0x7FF0000000000000⟩

def nan : Double := ⟨0x7FF8000000000000⟩

end Double

end Tenancy
