import Tenancy.Decimal.Nearest

/-! # Spans of time

A span is a whole number of nanoseconds. Its length in seconds is a double, which may be off in the
last place; the way back rounds to the nearest nanosecond, a tie to the even one, and refuses what
is negative or needs more than 64 bits of seconds.
-/

namespace Tenancy

def nanosPerSecond : Nat := tenTo 9

/-- Why a number of seconds is no span. -/
inductive SpanError where
  | negative
  | tooBig
  deriving DecidableEq, Repr

def SpanError.message : SpanError → String
  | .negative => "cannot convert float seconds to Duration: value is negative"
  | .tooBig => "cannot convert float seconds to Duration: value is either too big or NaN"

def secondsOf (nanos : Nat) : Float :=
  (UInt64.ofNat (nanos / nanosPerSecond)).toFloat
    + (UInt64.ofNat (nanos % nanosPerSecond)).toFloat / (UInt64.ofNat nanosPerSecond).toFloat

/-- The nanoseconds in a finite, nonnegative number of seconds. -/
def nanosOfFinite (seconds : Double) : Nat :=
  let scaled := seconds.significand * nanosPerSecond
  let e := seconds.exponent
  if 0 ≤ e then scaled * twoTo e.toNat else roundHalfEven scaled (twoTo (-e).toNat)

def spanOfSeconds (seconds : Float) : Except SpanError Nat :=
  let bits := Double.ofFloat seconds
  if seconds < 0 then .error .negative
  else if !bits.isFinite then .error .tooBig
  else
    let nanos := nanosOfFinite bits
    if nanos / nanosPerSecond < twoTo 64 then .ok nanos else .error .tooBig

end Tenancy
