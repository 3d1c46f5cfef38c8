/-! # Steps in sequence

Steps that may fail, one after the other, succeed exactly when each of them does with what the one before
it gave.
-/

namespace Tenancy

/-- A sequence of two steps succeeds exactly when both do, the second from what the first found. -/
theorem bind_eq_ok {ε α β : Type} {x : Except ε α} {f : α → Except ε β} {b : β} :
    (x >>= f) = .ok b ↔ ∃ a, x = .ok a ∧ f a = .ok b := by
  cases x with
  | error e => exact ⟨fun found => (nomatch found), fun ⟨_, found, _⟩ => (nomatch found)⟩
  | ok a => exact ⟨fun found => ⟨a, rfl, found⟩, fun ⟨_, same, found⟩ => by cases same; exact found⟩

theorem map_eq_ok {ε α β : Type} {x : Except ε α} {f : α → β} {b : β} :
    f <$> x = .ok b ↔ ∃ a, x = .ok a ∧ f a = b := by
  cases x with
  | error e => exact ⟨fun found => (nomatch found), fun ⟨_, found, _⟩ => (nomatch found)⟩
  | ok a =>
    refine ⟨fun found => ⟨a, rfl, Except.ok.inj found⟩, ?_⟩
    rintro ⟨_, same, found⟩
    cases same
    rw [← found]
    rfl

end Tenancy
