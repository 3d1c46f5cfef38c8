import Mathlib.Algebra.Order.Field.Rat
import Mathlib.Algebra.Order.Ring.Rat
import Mathlib.Algebra.Ring.Parity
import Mathlib.Tactic.NormNum
import Tenancy.Backoff.Curve

/-! # The curve in exact arithmetic

Repeated squaring gives the power wherever multiplication is associative (`powerTimes_eq`), so over the
rational numbers the delays are a geometric sequence that stops at its 64th member and is cut off at the
ceiling. `exactDelay` is that reading of the curve; the delays of `Backoff` are the same curve over doubles.
-/

namespace Tenancy

variable {attempt earlier later : Nat}

/-! ## Exponents -/

theorem exponentOf_le (attempt : Nat) : exponentOf attempt ≤ exponentCap := Nat.min_le_right _ _

theorem exponentOf_mono (order : earlier ≤ later) : exponentOf earlier ≤ exponentOf later :=
  min_le_min_right exponentCap (Nat.sub_le_sub_right order 1)

theorem exponentOf_of_le (within : attempt ≤ 64) : exponentOf attempt = attempt - 1 :=
  min_eq_left (Nat.sub_le_sub_right within 1)

theorem exponentOf_of_ge (beyond : 64 ≤ attempt) : exponentOf attempt = exponentCap :=
  min_eq_right (Nat.sub_le_sub_right beyond 1)

/-- Attempts of one exponent have one delay. -/
theorem Backoff.delay_congr (b : Backoff) (same : exponentOf earlier = exponentOf later) :
    b.delay earlier = b.delay later := by
  rw [delay, delay, seconds, seconds, capped, capped, growth, growth, same]

/-! ## Powers -/

theorem powerTimes_eq {M : Type} [Monoid M] (result base : M) (n : Nat) :
    powerTimes result base n = result * base ^ n := by
  induction n using Nat.strong_induction_on generalizing result base with
  | h n ih =>
    rw [powerTimes]
    split_ifs with zero odd
    · rw [zero, pow_zero, mul_one]
    · have halves : 1 + 2 * (n / 2) = n := by omega
      rw [ih (n / 2) (by omega), mul_assoc, ← pow_two, ← pow_mul, ← pow_succ', Nat.add_comm, halves]
    · have halves : 2 * (n / 2) = n := by omega
      rw [ih (n / 2) (by omega), ← pow_two, ← pow_mul, halves]

theorem growth_eq {M : Type} [Monoid M] (initial factor : M) (attempt : Nat) :
    growth 1 initial factor attempt = initial * factor ^ exponentOf attempt := by
  rw [growth, powerTimes_eq, one_mul]

/-! ## Delays -/

def exactSeconds (nanos : Nat) : ℚ := nanos / nanosPerSecond

theorem exactSeconds_nonneg (nanos : Nat) : 0 ≤ exactSeconds nanos :=
  div_nonneg (Nat.cast_nonneg _) (Nat.cast_nonneg _)

/-- The delay after an attempt in exact arithmetic, in seconds. The delay after the first failure and the
ceiling are spans in nanoseconds. -/
def exactDelay (initial ceiling : Nat) (factor : ℚ) (attempt : Nat) : ℚ :=
  capped min 1 (exactSeconds initial) factor (exactSeconds ceiling) attempt

variable {initial ceiling : Nat} {factor : ℚ}

/-- The exact delay in closed form: geometric growth cut off at the ceiling. -/
theorem exactDelay_eq (initial ceiling : Nat) (factor : ℚ) (attempt : Nat) :
    exactDelay initial ceiling factor attempt =
      min (exactSeconds initial * factor ^ exponentOf attempt) (exactSeconds ceiling) := by
  rw [exactDelay, capped, growth_eq]

theorem exactDelay_le_ceiling : exactDelay initial ceiling factor attempt ≤ exactSeconds ceiling := by
  rw [exactDelay_eq]
  exact min_le_right _ _

theorem exactDelay_nonneg (nonneg : 0 ≤ factor) : 0 ≤ exactDelay initial ceiling factor attempt := by
  rw [exactDelay_eq]
  exact le_min (mul_nonneg (exactSeconds_nonneg _) (pow_nonneg nonneg _)) (exactSeconds_nonneg _)

theorem exactDelay_mono (grows : 1 ≤ factor) (order : earlier ≤ later) :
    exactDelay initial ceiling factor earlier ≤ exactDelay initial ceiling factor later := by
  have powers : factor ^ exponentOf earlier ≤ factor ^ exponentOf later :=
    pow_le_pow_right₀ grows (exponentOf_mono order)
  rw [exactDelay_eq, exactDelay_eq]
  exact min_le_min_right _ (mul_le_mul_of_nonneg_left powers (exactSeconds_nonneg _))

theorem exactDelay_anti (nonneg : 0 ≤ factor) (shrinks : factor ≤ 1) (order : earlier ≤ later) :
    exactDelay initial ceiling factor later ≤ exactDelay initial ceiling factor earlier := by
  have powers : factor ^ exponentOf later ≤ factor ^ exponentOf earlier :=
    pow_le_pow_of_le_one nonneg shrinks (exponentOf_mono order)
  rw [exactDelay_eq, exactDelay_eq]
  exact min_le_min_right _ (mul_le_mul_of_nonneg_left powers (exactSeconds_nonneg _))

/-- The first delay is the initial one, or the ceiling. -/
theorem exactDelay_first (first : attempt ≤ 1) :
    exactDelay initial ceiling factor attempt = min (exactSeconds initial) (exactSeconds ceiling) := by
  have exponent : exponentOf attempt = 0 := (exponentOf_of_le (by omega)).trans (Nat.sub_eq_zero_of_le first)
  rw [exactDelay_eq, exponent, pow_zero, mul_one]

/-- The curve of delays is monotone, capped and total. Up to the 64th attempt a delay is the initial one
times the power of the factor that belongs to the attempt, or the ceiling if that is less; from there on it
stays. With a factor of at least one the delays never decrease, with a lesser one that is not negative they
never increase and never exceed the first, and with either every delay lies between zero and the ceiling. -/
theorem exactDelay_curve (initial ceiling : Nat) (factor : ℚ) :
    let delay := exactDelay initial ceiling factor
    let first := exactSeconds initial
    let greatest := exactSeconds ceiling
    (1 ≤ factor → ∀ a b, a ≤ b → delay a ≤ delay b ∧ delay b ≤ greatest) ∧
    (delay 0 = min first greatest ∧ delay 1 = min first greatest) ∧
    (∀ n, 1 ≤ n → n ≤ 64 → delay n = min (first * factor ^ (n - 1)) greatest) ∧
    (∀ n, 64 ≤ n → delay n = delay 64) ∧
    (0 ≤ factor → factor < 1 → ∀ a b, a ≤ b → delay b ≤ delay a ∧ delay a ≤ min first greatest) ∧
    (0 ≤ factor → ∀ n, 0 ≤ delay n ∧ delay n ≤ greatest) := by
  intro delay first greatest
  refine ⟨?_, ⟨exactDelay_first zero_le_one, exactDelay_first le_rfl⟩, ?_, ?_, ?_, ?_⟩
  · intro grows a b order
    exact ⟨exactDelay_mono grows order, exactDelay_le_ceiling⟩
  · intro n _ within
    rw [← exponentOf_of_le within]
    exact exactDelay_eq initial ceiling factor n
  · intro n beyond
    calc delay n = min (first * factor ^ exponentOf n) greatest := exactDelay_eq initial ceiling factor n
      _ = min (first * factor ^ exponentOf 64) greatest := by
        rw [exponentOf_of_ge beyond, exponentOf_of_ge le_rfl]
      _ = delay 64 := (exactDelay_eq initial ceiling factor 64).symm
  · intro nonneg shrinks a b order
    have top : delay a ≤ delay 0 := exactDelay_anti nonneg shrinks.le (Nat.zero_le a)
    exact ⟨exactDelay_anti nonneg shrinks.le order, top.trans_eq (exactDelay_first zero_le_one)⟩
  · intro nonneg n
    exact ⟨exactDelay_nonneg nonneg, exactDelay_le_ceiling⟩

/-- From half a second on and up to five minutes, delays that grow by a half and delays that are halved. -/
theorem exactDelay_curve_halves :
    let growing := exactDelay 500000000 300000000000 (3 / 2)
    let shrinking := exactDelay 500000000 300000000000 (1 / 2)
    (growing 3 ≤ growing 200 ∧ growing 200 ≤ 300) ∧ growing 4 = 27 / 16 ∧ growing 200 = growing 64 ∧
    (shrinking 7 ≤ shrinking 2 ∧ shrinking 2 ≤ 1 / 2) ∧ 0 ≤ shrinking 1000 := by
  intro growing shrinking
  have first : exactSeconds 500000000 = 1 / 2 := by norm_num [exactSeconds, nanosPerSecond, tenTo]
  have greatest : exactSeconds 300000000000 = 300 := by norm_num [exactSeconds, nanosPerSecond, tenTo]
  obtain ⟨mono, -, powers, beyond, -, -⟩ := exactDelay_curve 500000000 300000000000 (3 / 2)
  obtain ⟨-, -, -, -, anti, bounds⟩ := exactDelay_curve 500000000 300000000000 (1 / 2)
  rw [first, greatest] at powers anti
  rw [greatest] at mono
  refine ⟨mono (by norm_num) 3 200 (by decide), ?_, beyond 200 (by decide), ?_, ?_⟩
  · have fourth := powers 4 (by decide) (by decide)
    norm_num at fourth
    exact fourth
  · have halved := anti (by norm_num) (by norm_num) 2 7 (by decide)
    exact ⟨halved.1, halved.2.trans (min_le_left _ _)⟩
  · exact (bounds (by norm_num) 1000).1

end Tenancy
