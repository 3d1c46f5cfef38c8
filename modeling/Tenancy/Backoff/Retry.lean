import Tenancy.Backoff.Curve

/-! # Retrying

An operation that fails is tried again after a pause, until it succeeds or the attempts are used up.
The `n`-th attempt gives `operation n`; the attempts count from one. The pause after the `n`-th
attempt is the delay of the curve with the factor `blur n`.
-/

namespace Tenancy

/-- What happens while an operation is tried again and again. -/
inductive RetryEvent where
  /-- The operation is tried, as the attempt of this number. -/
  | tried (attempt : Nat)
  /-- A pause, in nanoseconds. -/
  | paused (nanos : Nat)
  deriving DecidableEq, Repr

/-- What came of an operation that was tried again and again. -/
structure Attempts (ε α : Type) where
  /-- What happened, in order. -/
  events : List RetryEvent
  result : Except ε α

def RetryEvent.isTried : RetryEvent → Bool
  | .tried _ => true
  | .paused _ => false

/-- How often the operation was tried. -/
def Attempts.calls {ε α : Type} (run : Attempts ε α) : Nat := run.events.countP RetryEvent.isTried

/-- Puts what happened before in front. -/
def Attempts.after {ε α : Type} (earlier : List RetryEvent) (run : Attempts ε α) : Attempts ε α :=
  { run with events := earlier ++ run.events }

def greatestAttempt : Nat := 0xFFFFFFFF

namespace Backoff

/-- Whether another attempt may follow the given one. -/
def mayRetry (b : Backoff) (attempt : Nat) : Bool := b.limit = 0 || attempt < b.limit

/-- Tries again after so many attempts. Nothing when no end is reached, be it that the fuel runs out,
which is the number of attempts looked at, or the numbers for attempts. -/
def retryFrom {ε α : Type} (b : Backoff) (operation : Nat → Except ε α) (blur : Nat → Float) :
    Nat → Nat → Except SpanError (Option (Attempts ε α))
  | 0, _ => .ok none
  | fuel + 1, earlier =>
    if earlier = greatestAttempt then .ok none
    else
      match operation (earlier + 1) with
      | .ok v => .ok (some ⟨[.tried (earlier + 1)], .ok v⟩)
      | .error e =>
        if b.mayRetry (earlier + 1) then do
          let pause ← b.blurredDelay (blur (earlier + 1)) (earlier + 1)
          let later ← b.retryFrom operation blur fuel (earlier + 1)
          return later.map (.after [.tried (earlier + 1), .paused pause])
        else .ok (some ⟨[.tried (earlier + 1)], .error e⟩)

def retry {ε α : Type} (b : Backoff) (operation : Nat → Except ε α) (fuel : Nat)
    (blur : Nat → Float := fun _ => 1.0) : Except SpanError (Option (Attempts ε α)) :=
  b.retryFrom operation blur fuel 0

end Backoff

end Tenancy
