import Tenancy.Decimal.Nanoseconds

/-! # Backoff

The delay after a failed attempt grows by a factor with every attempt, up to a ceiling. The power is
formed by repeated squaring, so that the curve is the same sequence of multiplications over any kind
of number: `growth` and `capped` say it once, and `Backoff.delay` is their reading over doubles.
-/

namespace Tenancy

/-- The product of `result` and `base ^ n`, by repeated squaring. -/
def powerTimes {α : Type} [Mul α] (result base : α) (n : Nat) : α :=
  if n = 0 then result
  else powerTimes (if n % 2 = 1 then result * base else result) (base * base) (n / 2)
termination_by n

def exponentCap : Nat := 63

/-- The exponent that belongs to an attempt; the first attempts have none. -/
def exponentOf (attempt : Nat) : Nat := min (attempt - 1) exponentCap

/-- The delay after an attempt, before the ceiling. -/
def growth {α : Type} [Mul α] (one initial factor : α) (attempt : Nat) : α :=
  initial * powerTimes one factor (exponentOf attempt)

/-- The delay after an attempt: what has grown, or the ceiling if that is the least of the two. -/
def capped {α : Type} [Mul α] (least : α → α → α) (one initial factor ceiling : α) (attempt : Nat) : α :=
  least (growth one initial factor attempt) ceiling

/-- How the delays after failed attempts grow. -/
structure Backoff where
  /-- The most attempts; zero stands for any number. -/
  limit : Nat := 0
  /-- The delay after the first failure, in nanoseconds. -/
  initial : Nat := 500000000
  /-- The greatest delay, in nanoseconds. -/
  ceiling : Nat := 300 * nanosPerSecond
  /-- The factor between two delays. -/
  multiplier : Double := .ofFloat 2.0
  deriving Repr, DecidableEq

/-- The lesser of two numbers; what is not a number loses. -/
def lesser (x y : Float) : Float :=
  if x.isNaN then y else if y.isNaN then x else if x < y then x else y

namespace Backoff

/-- The delay after a failed attempt in seconds. -/
def seconds (b : Backoff) (attempt : Nat) : Float :=
  capped lesser 1.0 (secondsOf b.initial) b.multiplier.toFloat (secondsOf b.ceiling) attempt

/-- The delay after a failed attempt, in nanoseconds. -/
def delay (b : Backoff) (attempt : Nat) : Except SpanError Nat := spanOfSeconds (b.seconds attempt)

/-- The delay after a failed attempt with a random factor applied, in nanoseconds. The factor is meant
to be at least a half and less than one and a half. -/
def blurredDelay (b : Backoff) (factor : Float) (attempt : Nat) : Except SpanError Nat := do
  spanOfSeconds (secondsOf (← b.delay attempt) * factor)

end Backoff

end Tenancy
