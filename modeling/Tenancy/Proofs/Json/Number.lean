import Mathlib.Data.Nat.Init
import Tenancy.Proofs.Json.Document
import Tenancy.Proofs.Json.Text

/-! # Integers read back

The digits of an integer of 64 bits are gathered without loss, as long as what follows cannot go on
with the number.
-/

namespace Tenancy.Json

open Text.Utf8

/-- What follows cannot belong to a number before it. -/
def endsNumber : Input → Bool
  | [] => true
  | b :: _ => !isDigitByte b && b != ascii '.' && b != ascii 'e' && b != ascii 'E'

theorem endsNumber_digit {rest : Input} (ends : endsNumber rest) : startsWithDigit rest = false := by
  cases rest with
  | nil => rfl
  | cons b rest =>
    simp only [endsNumber, Bool.and_eq_true, Bool.not_eq_true'] at ends
    exact ends.1.1.1

theorem digit_bounds {c : Char} (digit : c.isDigit) : 0x30 ≤ c.toNat ∧ c.toNat ≤ 0x39 :=
  Char.isDigit_iff_toNat.mp digit

theorem digitOf?_ascii {c : Char} (digit : c.isDigit) : digitOf? (ascii c) = some (c.toNat - 0x30) := by
  have bounds := digit_bounds digit
  have number : (ascii c).toNat = c.toNat := byte_toNat (by omega)
  rw [digitOf?, number, if_pos bounds]

theorem encodeChar_digit {c : Char} (digit : c.isDigit) : encodeChar c = [ascii c] := by
  have bounds := digit_bounds digit
  exact encodeChar_ascii (by omega)

private theorem le_ofDigitChars (cs : List Char) (n : Nat) : n ≤ Nat.ofDigitChars 10 cs n := by
  induction cs generalizing n with
  | nil => simp
  | cons c cs ih =>
    rw [Nat.ofDigitChars_cons]
    have later := ih (10 * n + (c.toNat - '0'.toNat))
    omega

/-- Gathering the digits of a number computes it, as long as it stays below the limit. -/
theorem gatherDigits_encodeChars (cs : List Char) (digits : ∀ c ∈ cs, c.isDigit) (limit n count : Nat)
    (rest : Input) (small : Nat.ofDigitChars 10 cs n < limit) (ends : startsWithDigit rest = false) :
    gatherDigits limit n count (encodeChars cs ++ rest) =
      (Nat.ofDigitChars 10 cs n, count + cs.length, rest) := by
  induction cs generalizing n count with
  | nil =>
    cases rest with
    | nil => rfl
    | cons b rest =>
      have none : digitOf? b = none := Option.isNone_iff_eq_none.mp (by
        simpa only [startsWithDigit, isDigitByte, Option.isSome_eq_false_iff] using ends)
      simp only [encodeChars_nil, List.nil_append, gatherDigits, none, Nat.ofDigitChars_nil,
        List.length_nil, Nat.add_zero]
  | cons c cs ih =>
    have digit := digits c (List.mem_cons_self ..)
    rw [Nat.ofDigitChars_cons] at small
    have larger := le_ofDigitChars cs (10 * n + (c.toNat - '0'.toNat))
    have next : n * 10 + (c.toNat - 0x30) = 10 * n + (c.toNat - '0'.toNat) := by
      rw [Nat.mul_comm]
      rfl
    rw [encodeChars_cons, encodeChar_digit digit, List.singleton_append, List.cons_append]
    simp only [gatherDigits, digitOf?_ascii digit, next, if_pos (lt_of_le_of_lt larger small)]
    rw [ih (fun d present => digits d (List.mem_cons_of_mem _ present)) _ _ small,
      Nat.ofDigitChars_cons, List.length_cons, Nat.add_right_comm, Nat.add_assoc]

/-- The first digit of a number is zero for zero only. -/
theorem toDigits_pos {n : Nat} (positive : 0 < n) :
    ∃ c cs, Nat.toDigits 10 n = c :: cs ∧ c ≠ '0' := by
  induction n using Nat.strongRecOn with
  | ind n ih =>
    rw [Nat.toDigits_eq_if (by decide)]
    split_ifs with single
    · have nonzero : ∀ d < 10, 0 < d → Nat.digitChar d ≠ '0' := by decide
      exact ⟨_, [], rfl, nonzero n single positive⟩
    · obtain ⟨c, cs, digits, nonzero⟩ := ih (n / 10) (by omega) (by omega)
      exact ⟨c, cs ++ [Nat.digitChar (n % 10)], by rw [digits, List.cons_append], nonzero⟩

/-- A number whose text ends after its digits is a whole one. -/
theorem readAfterInteger_ends (negative : Bool) (n : Nat) {rest : Input} (ends : endsNumber rest) :
    readAfterInteger negative n none rest = .ok (wholeNumber negative n, rest) := by
  cases rest with
  | nil => rfl
  | cons b rest =>
    simp only [endsNumber, Bool.and_eq_true, bne_iff_ne, ne_eq] at ends
    obtain ⟨⟨⟨-, point⟩, small⟩, large⟩ := ends
    simp only [readAfterInteger, if_neg point, small, large, or_self, if_false]

/-- A number that was written without sign is read. -/
theorem readNumber_toDigits (negative : Bool) {n : Nat} (small : n < wordLimit) {rest : Input}
    (ends : endsNumber rest) :
    readNumber negative (encodeChars (Nat.toDigits 10 n) ++ rest) =
      .ok (wholeNumber negative n, rest) := by
  rcases Nat.eq_zero_or_pos n with rfl | positive
  · change readNumber negative (ascii '0' :: rest) = _
    have zero : digitOf? (ascii '0') = some 0 := by decide
    simp only [readNumber, zero, endsNumber_digit ends, Bool.false_eq_true, if_false,
      readAfterInteger_ends negative 0 ends]
  · obtain ⟨c, cs, digits, nonzero⟩ := toDigits_pos positive
    have areDigits : ∀ d ∈ c :: cs, d.isDigit := fun d present =>
      Nat.isDigit_of_mem_toDigits (by decide) (by decide) (digits ▸ present)
    have digit := areDigits c (List.mem_cons_self ..)
    have value : Nat.ofDigitChars 10 cs (c.toNat - 0x30) = n := by
      have whole := Nat.ofDigitChars_ten_toDigits (n := n)
      rwa [digits, Nat.ofDigitChars_cons, Nat.mul_zero, Nat.zero_add] at whole
    have first : digitOf? (ascii c) = some (c.toNat - 0x30) := digitOf?_ascii digit
    obtain ⟨k, first⟩ : ∃ k, c.toNat - 0x30 = k + 1 := by
      have bounds := digit_bounds digit
      have other : c.toNat ≠ '0'.toNat := fun same => nonzero (Char.toNat_inj.mp same)
      change c.toNat ≠ 0x30 at other
      exact ⟨c.toNat - 0x31, by omega⟩
    rw [digits, encodeChars_cons, encodeChar_digit digit, List.singleton_append, List.cons_append]
    simp only [readNumber, digitOf?_ascii digit, first]
    rw [← first, gatherDigits_encodeChars cs (fun d present => areDigits d (List.mem_cons_of_mem _ present))
      _ _ _ rest (by rwa [value]) (endsNumber_digit ends), value]
    simp only [endsNumber_digit ends, Bool.false_eq_true, if_false, readAfterInteger_ends negative n ends]

end Tenancy.Json
