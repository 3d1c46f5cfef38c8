import Mathlib.Data.Nat.Find
import Mathlib.Tactic.IntervalCases
import Tenancy.Backoff.Retry
import Tenancy.Proofs.Backoff.Curve
import Tenancy.Proofs.Sequence

/-! # Attempts in a row

An attempt either is the last one or is followed by a pause and the next attempt (`retryFrom_last`,
`retryFrom_next`). So the attempts that fail before the last one are put in front of it one after the
other (`retryFrom_failed`), and the last one is the first that succeeds, or the one at the limit.
-/

namespace Tenancy

variable {ε α : Type} {b : Backoff} {operation : Nat → Except ε α} {blur : Nat → Float}
  {pauses : Nat → Nat}

/-! ## What happens -/

/-- What happens in so many attempts from a number on that fail and are not the last: each is followed by
its own pause. -/
def failedAttempts (pauses : Nat → Nat) (first count : Nat) : List RetryEvent :=
  (List.range' first count).flatMap fun i => [.tried i, .paused (pauses i)]

def attemptsUpTo (pauses : Nat → Nat) (last : Nat) : List RetryEvent :=
  failedAttempts pauses 1 (last - 1) ++ [.tried last]

/-- Each failed attempt was tried once. -/
theorem countP_failedAttempts (first count : Nat) :
    (failedAttempts pauses first count).countP RetryEvent.isTried = count := by
  induction count generalizing first with
  | zero => rfl
  | succ count ih =>
    have rest := ih (first + 1)
    rw [failedAttempts] at rest ⊢
    rw [List.range'_succ, List.flatMap_cons, List.countP_append, rest]
    exact Nat.add_comm 1 count

theorem tried_mem_failedAttempts {first count i : Nat}
    (happens : .tried i ∈ failedAttempts pauses first count) : i < first + count := by
  obtain ⟨j, within, found⟩ := List.mem_flatMap.mp happens
  have same : i = j := by simpa using found
  rw [same]
  exact (List.mem_range'_1.mp within).2

/-- The attempts end with the one of number `last`, each before it followed by its pause, and its result
is what comes of all. -/
structure Attempts.EndsAt (pauses : Nat → Nat) (operation : Nat → Except ε α) (last : Nat)
    (run : Attempts ε α) : Prop where
  events : run.events = attemptsUpTo pauses last
  calls : run.calls = last
  result : run.result = operation last

theorem endsAt_attemptsUpTo {last : Nat} (positive : 0 < last) :
    Attempts.EndsAt pauses operation last ⟨attemptsUpTo pauses last, operation last⟩ where
  events := rfl
  calls := by
    rw [Attempts.calls, attemptsUpTo, List.countP_append, countP_failedAttempts]
    exact Nat.sub_add_cancel positive
  result := rfl

/-- No attempt after the last one was made. -/
theorem Attempts.EndsAt.tried_le {last i : Nat} {run : Attempts ε α} (ends : run.EndsAt pauses operation last)
    (happens : .tried i ∈ run.events) : i ≤ last := by
  rw [ends.events] at happens
  rcases List.mem_append.mp happens with earlier | final
  · have below := tried_mem_failedAttempts earlier
    omega
  · have same : i = last := by simpa using final
    omega

/-! ## One attempt -/

namespace Backoff

variable {fuel earlier : Nat}

/-- An attempt that succeeds, or after which no other is allowed, ends the run with its own result. -/
theorem retryFrom_last (room : earlier < greatestAttempt)
    (last : (operation (earlier + 1)).isOk ∨ b.mayRetry (earlier + 1) = false) :
    b.retryFrom operation blur (fuel + 1) earlier =
      .ok (some ⟨[.tried (earlier + 1)], operation (earlier + 1)⟩) := by
  rw [retryFrom, if_neg room.ne]
  cases result : operation (earlier + 1) with
  | ok v => rfl
  | error e =>
    rw [result] at last
    have stop : b.mayRetry (earlier + 1) = false := last.resolve_left Bool.false_ne_true
    simp only [stop, Bool.false_eq_true, if_false]

/-- A failed attempt with another allowed is followed by its pause and then by the rest of the run. -/
theorem retryFrom_next (room : earlier < greatestAttempt)
    (failed : (operation (earlier + 1)).isOk = false) (again : b.mayRetry (earlier + 1))
    (span : b.blurredDelay (blur (earlier + 1)) (earlier + 1) = .ok (pauses (earlier + 1))) :
    b.retryFrom operation blur (fuel + 1) earlier =
      (b.retryFrom operation blur fuel (earlier + 1)).map
        (Option.map (.after (failedAttempts pauses (earlier + 1) 1))) := by
  rw [retryFrom, if_neg room.ne]
  cases result : operation (earlier + 1) with
  | ok v =>
    rw [result] at failed
    cases failed
  | error e =>
    simp only [again, if_true, span, bind, Except.bind]
    cases b.retryFrom operation blur fuel (earlier + 1) with
    | ok later => rfl
    | error e => rfl

/-! ## All attempts -/

/-- Attempts that fail and may be followed by another one, each with its pause, happen one after the other. -/
theorem retryFrom_failed (count : Nat) (room : earlier + count ≤ greatestAttempt)
    (failed : ∀ i, earlier < i → i ≤ earlier + count → (operation i).isOk = false)
    (again : ∀ i, earlier < i → i ≤ earlier + count → b.mayRetry i)
    (spans : ∀ i, earlier < i → i ≤ earlier + count → b.blurredDelay (blur i) i = .ok (pauses i)) :
    b.retryFrom operation blur (fuel + count) earlier =
      (b.retryFrom operation blur fuel (earlier + count)).map
        (Option.map (.after (failedAttempts pauses (earlier + 1) count))) := by
  induction count generalizing earlier with
  | zero =>
    cases b.retryFrom operation blur fuel earlier with
    | ok later => cases later <;> rfl
    | error e => rfl
  | succ count ih =>
    have shift : earlier + 1 + count = earlier + (count + 1) := by omega
    have rest := @ih (earlier + 1) (by omega) (fun i _ _ => failed i (by omega) (by omega))
      (fun i _ _ => again i (by omega) (by omega)) (fun i _ _ => spans i (by omega) (by omega))
    rw [← Nat.add_assoc, retryFrom_next (by omega) (failed _ (by omega) (by omega))
      (again _ (by omega) (by omega)) (spans _ (by omega) (by omega)), rest, shift]
    cases b.retryFrom operation blur fuel (earlier + (count + 1)) with
    | ok later => cases later <;> rfl
    | error e => rfl

/-- The last attempt is the first one that is not followed by another. -/
theorem retry_endsAt {last : Nat} (positive : 0 < last) (room : last ≤ greatestAttempt)
    (failed : ∀ i, 0 < i → i < last → (operation i).isOk = false)
    (again : ∀ i, 0 < i → i < last → b.mayRetry i)
    (spans : ∀ i, 0 < i → i < last → b.blurredDelay (blur i) i = .ok (pauses i))
    (final : (operation last).isOk ∨ b.mayRetry last = false) (enough : last ≤ fuel) :
    ∃ run, b.retry operation fuel blur = .ok (some run) ∧ run.EndsAt pauses operation last := by
  obtain ⟨count, rfl⟩ : ∃ count, last = count + 1 := ⟨last - 1, by omega⟩
  obtain ⟨more, rfl⟩ : ∃ more, fuel = more + 1 + count := ⟨fuel - (count + 1), by omega⟩
  have earlier := @retryFrom_failed ε α b operation blur pauses (more + 1) 0 count (by omega)
    (fun i _ _ => failed i (by omega) (by omega)) (fun i _ _ => again i (by omega) (by omega))
    (fun i _ _ => spans i (by omega) (by omega))
  simp only [Nat.zero_add, retryFrom_last (show count < greatestAttempt by omega) final] at earlier
  exact ⟨_, earlier, endsAt_attemptsUpTo positive⟩

/-- Without a limit no error is ever given back. -/
theorem isOk_of_retryFrom (unlimited : b.limit = 0) {run : Attempts ε α}
    (ended : b.retryFrom operation blur fuel earlier = .ok (some run)) : run.result.isOk := by
  induction fuel generalizing earlier run with
  | zero => cases ended
  | succ fuel ih =>
    have again : b.mayRetry (earlier + 1) = true := by simp [mayRetry, unlimited]
    rw [retryFrom] at ended
    simp only [again, if_true] at ended
    split at ended
    · cases ended
    · split at ended
      · cases ended
        rfl
      · obtain ⟨pause, -, ended⟩ := bind_eq_ok.mp ended
        obtain ⟨later, rest, ended⟩ := bind_eq_ok.mp ended
        obtain ⟨other, found, rfl⟩ := Option.map_eq_some_iff.mp (Except.ok.inj ended)
        have ended : other.result.isOk := ih (rest.trans (congrArg Except.ok found))
        exact ended

end Backoff

/-- Trying again makes exactly the attempts that are needed. With a limit the last attempt is the first one
that succeeds, or else the one at the limit; without one it is the first one that succeeds, and no error is
ever given back. What comes of the last attempt is the result, each attempt before it is followed by its
own pause and by nothing else, and no attempt has a number above the limit. -/
theorem retry_exact (b : Backoff) (operation : Nat → Except ε α) (blur : Nat → Float) (pauses : Nat → Nat)
    (counted : b.limit < 2 ^ 32)
    (spans : ∀ i, 0 < i → i < 2 ^ 32 → b.mayRetry i → b.blurredDelay (blur i) i = .ok (pauses i)) :
    (0 < b.limit → ∃ last, 0 < last ∧ last ≤ b.limit ∧
      (∀ i, 0 < i → i < last → (operation i).isOk = false) ∧
      ((operation last).isOk ∨ last = b.limit) ∧
      ∀ fuel, last ≤ fuel → ∃ run, b.retry operation fuel blur = .ok (some run) ∧
        run.EndsAt pauses operation last ∧ ∀ i, .tried i ∈ run.events → i ≤ b.limit) ∧
    (b.limit = 0 →
      (∀ last, 0 < last → last < 2 ^ 32 → (∀ i, 0 < i → i < last → (operation i).isOk = false) →
        (operation last).isOk → ∀ fuel, last ≤ fuel →
          ∃ run, b.retry operation fuel blur = .ok (some run) ∧ run.EndsAt pauses operation last) ∧
      ∀ fuel run, b.retry operation fuel blur = .ok (some run) → run.result.isOk) := by
  have room {i : Nat} (below : i < 2 ^ 32) : i ≤ greatestAttempt := Nat.le_of_lt_succ below
  refine ⟨fun limited => ?_, fun unlimited => ⟨?_, fun fuel run => Backoff.isOk_of_retryFrom unlimited⟩⟩
  · -- the last attempt is the least that succeeds or stands at the limit
    have reached : ∃ i, 0 < i ∧ ((operation i).isOk ∨ i = b.limit) := ⟨b.limit, limited, .inr rfl⟩
    classical
    obtain ⟨positive, final⟩ := Nat.find_spec reached
    have within : Nat.find reached ≤ b.limit := Nat.find_min' reached ⟨limited, .inr rfl⟩
    have before {i : Nat} (first : 0 < i) (below : i < Nat.find reached) :
        (operation i).isOk = false ∧ i < b.limit := by
      have unmet := Nat.find_min reached below
      rw [not_and, not_or, Bool.not_eq_true] at unmet
      exact ⟨(unmet first).1, by omega⟩
    have again {i : Nat} (below : i < b.limit) : b.mayRetry i = true := by simp [Backoff.mayRetry, below]
    refine ⟨Nat.find reached, positive, within, fun i first below => (before first below).1, final, ?_⟩
    intro fuel enough
    have stop : (operation (Nat.find reached)).isOk ∨ b.mayRetry (Nat.find reached) = false := by
      refine final.imp_right fun same => ?_
      simp [Backoff.mayRetry, same, limited.ne']
    have spans (i : Nat) (first : 0 < i) (below : i < Nat.find reached) :
        b.blurredDelay (blur i) i = .ok (pauses i) :=
      spans i first (by omega) (again (before first below).2)
    obtain ⟨run, ended, ends⟩ := Backoff.retry_endsAt positive (room (by omega))
      (fun i first below => (before first below).1) (fun i first below => again (before first below).2)
      spans stop enough
    exact ⟨run, ended, ends, fun i happens => (ends.tried_le happens).trans within⟩
  · intro last positive below failed succeeds fuel enough
    have again (i : Nat) : b.mayRetry i = true := by simp [Backoff.mayRetry, unlimited]
    exact Backoff.retry_endsAt positive (room below) failed (fun i _ _ => again i)
      (fun i first earlier => spans i first (by omega) (again i)) (.inl succeeds) enough

/-- The delays of the default curve with a quarter added are spans, whatever the attempt. -/
theorem isOk_blurredDelay_default (attempt : Nat) : (({} : Backoff).blurredDelay 1.25 attempt).isOk := by
  have spans : ∀ e, e < 64 → (({} : Backoff).blurredDelay 1.25 (e + 1)).isOk := by decide +kernel
  have within : exponentOf attempt < 64 := Nat.lt_succ_of_le (exponentOf_le attempt)
  have same : exponentOf attempt = exponentOf (exponentOf attempt + 1) := (exponentOf_of_le within).symm
  rw [Backoff.blurredDelay, Backoff.delay_congr {} same]
  exact spans _ within

/-- An operation that fails four times, each time with another error. -/
def fourFailures (attempt : Nat) : Except Nat String := if attempt ≤ 4 then .error attempt else .ok "done"

/-- With three attempts the error of the third is given back, without a limit the fifth succeeds. -/
theorem retry_exact_fourFailures :
    (∃ run, ({ limit := 3 } : Backoff).retry fourFailures 100 (fun _ => 1.25) = .ok (some run) ∧
      run.result = .error 3 ∧
      run.events = [.tried 1, .paused 625000000, .tried 2, .paused 1250000000, .tried 3]) ∧
    ∃ run, ({} : Backoff).retry fourFailures 100 (fun _ => 1.25) = .ok (some run) ∧
      run.result = .ok "done" ∧ run.calls = 5 := by
  constructor
  · let pauses (i : Nat) : Nat := if i = 1 then 625000000 else 1250000000
    have spans (i : Nat) (first : 0 < i) (_ : i < 2 ^ 32) (again : ({ limit := 3 } : Backoff).mayRetry i) :
        ({ limit := 3 } : Backoff).blurredDelay 1.25 i = .ok (pauses i) := by
      have below : i < 3 := by simpa [Backoff.mayRetry] using again
      interval_cases i <;> decide +kernel
    obtain ⟨limited, -⟩ :=
      retry_exact { limit := 3 } fourFailures (fun _ => 1.25) pauses (by decide) spans
    obtain ⟨last, positive, within, -, final, enough⟩ := limited (by decide)
    have within : last ≤ 3 := within
    have fails : (fourFailures last).isOk = false := by
      rw [fourFailures, if_pos (by omega)]
      rfl
    have third : last = 3 := final.resolve_left (by rw [fails]; exact Bool.false_ne_true)
    subst third
    obtain ⟨run, ended, ends, -⟩ := enough 100 (by decide)
    exact ⟨run, ended, ends.result, ends.events⟩
  · obtain ⟨-, unlimited⟩ := retry_exact {} fourFailures (fun _ => 1.25)
      (fun i => (({} : Backoff).blurredDelay 1.25 i).toOption.getD 0) (by decide) fun i _ _ _ => by
        cases span : ({} : Backoff).blurredDelay 1.25 i with
        | ok nanos => rfl
        | error e =>
          have ok := isOk_blurredDelay_default i
          rw [span] at ok
          cases ok
    have failed (i : Nat) (_ : 0 < i) (below : i < 5) : (fourFailures i).isOk = false := by
      rw [fourFailures, if_pos (by omega)]
      rfl
    obtain ⟨run, ended, ends⟩ := (unlimited rfl).1 5 (by decide) (by decide) failed rfl 100 (by decide)
    exact ⟨run, ended, ends.result, ends.calls⟩

end Tenancy
