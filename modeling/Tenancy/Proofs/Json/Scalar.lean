import Tenancy.Proofs.Json.Number

/-! # Scalars read back

A scalar that was written starts with a byte that tells what it is, and `readScalar` reads it from
there. Containers start with their bracket instead.
-/

namespace Tenancy.Json

open Text.Utf8

/-- A byte at which a value may start: it is no blank, and it ends or continues no container. -/
def opensValue (b : UInt8) : Bool :=
  !isSpace b && b != ascii ']' && b != ascii '\x7d' && b != ascii ','

theorem skipSpace_cons {b : UInt8} (rest : Input) (solid : isSpace b = false) :
    skipSpace (b :: rest) = b :: rest := by
  rw [skipSpace, List.dropWhile_cons, solid]
  rfl

theorem opensValue_solid {b : UInt8} (opens : opensValue b) : isSpace b = false := by
  simp only [opensValue, Bool.and_eq_true, Bool.not_eq_true'] at opens
  exact opens.1.1.1

theorem opensValue_ne {b : UInt8} (opens : opensValue b) :
    b ≠ ascii ']' ∧ b ≠ ascii '\x7d' ∧ b ≠ ascii ',' := by
  simp only [opensValue, Bool.and_eq_true, bne_iff_ne] at opens
  exact ⟨opens.1.1.2, opens.1.2, opens.2⟩

/-- A byte that no scalar has at its start. -/
def isBracket (b : UInt8) : Bool := b == ascii '[' || b == ascii '\x7b'

/-- How a scalar is found in its text. -/
structure ScalarText (j : Json) (b : UInt8) (tail : Input) : Prop where
  encode_eq : j.encode = b :: tail
  opens : opensValue b
  noBracket : isBracket b = false
  /-- Only null starts with its letter. -/
  null : b = ascii 'n' → j = .null
  /-- Only a string starts with a quote. -/
  quote : b = ascii '"' → ∃ s, j = .string s
  readScalar_eq : ∀ rest, endsNumber rest → readScalar b (tail ++ rest) = .ok (j, rest)

private theorem readWord_append (word rest : Input) : readWord word (word ++ rest) = .ok rest := by
  induction word with
  | nil => rfl
  | cons w word ih => simp only [List.cons_append, readWord, if_true, ih]

private theorem scalarText_null : ScalarText .null (ascii 'n') (asciis "ull") where
  encode_eq := by decide
  opens := by decide
  noBracket := by decide
  null _ := rfl
  quote same := absurd same (by decide)
  readScalar_eq rest _ := by simp [readScalar, readWord_append, bind, Except.bind, pure, Except.pure]

private theorem scalarText_true : ScalarText (.bool true) (ascii 't') (asciis "rue") where
  encode_eq := by decide
  opens := by decide
  noBracket := by decide
  null := by decide
  quote same := absurd same (by decide)
  readScalar_eq rest _ := by
    simp [readScalar, readWord_append, bind, Except.bind, pure, Except.pure,
      show ¬ ascii 't' = ascii 'n' by decide]

private theorem scalarText_false : ScalarText (.bool false) (ascii 'f') (asciis "alse") where
  encode_eq := by decide
  opens := by decide
  noBracket := by decide
  null := by decide
  quote same := absurd same (by decide)
  readScalar_eq rest _ := by
    simp [readScalar, readWord_append, bind, Except.bind, pure, Except.pure,
      show ¬ ascii 'f' = ascii 'n' by decide, show ¬ ascii 'f' = ascii 't' by decide]

private theorem scalarText_string (s : String) :
    ScalarText (.string s) (ascii '"') (textBytes s ++ [ascii '"']) where
  encode_eq := encodeChars_renderText s
  opens := by decide
  noBracket := by decide
  null same := absurd same (by decide)
  quote _ := ⟨s, rfl⟩
  readScalar_eq rest _ := by
    simp [readScalar, readText_textBytes, bind, Except.bind, pure, Except.pure,
      show ¬ ascii '"' = ascii 'n' by decide, show ¬ ascii '"' = ascii 't' by decide,
      show ¬ ascii '"' = ascii 'f' by decide]

private theorem digit_start : ∀ k < 10, opensValue (byte (0x30 + k)) ∧
    isBracket (byte (0x30 + k)) = false ∧ isDigitByte (byte (0x30 + k)) ∧
    byte (0x30 + k) ∉ [ascii 'n', ascii 't', ascii 'f', ascii '"', ascii '-'] := by
  decide

private theorem scalarText_natural {n : Nat} (small : n < wordLimit) :
    ∃ b tail, ScalarText (.int n) b tail := by
  obtain ⟨c, cs, digits⟩ := List.exists_cons_of_ne_nil (Nat.toDigits_ne_nil (b := 10) (n := n))
  have digit : c.isDigit :=
    Nat.isDigit_of_mem_toDigits (by decide) (by decide) (digits ▸ List.mem_cons_self ..)
  have bounds := digit_bounds digit
  obtain ⟨k, single, number⟩ : ∃ k < 10, c.toNat = 0x30 + k := ⟨c.toNat - 0x30, by omega, by omega⟩
  have start : ascii c = byte (0x30 + k) := by rw [← number]; rfl
  obtain ⟨opens, noBracket, isDigit, others⟩ := digit_start k single
  rw [← start] at opens noBracket isDigit others
  simp only [List.mem_cons, List.not_mem_nil, or_false, not_or] at others
  obtain ⟨notNull, notTrue, notFalse, notQuote, notMinus⟩ := others
  have bytes : encodeChars (Nat.toDigits 10 n) = ascii c :: encodeChars cs := by
    rw [digits, encodeChars_cons, encodeChar_digit digit, List.singleton_append]
  refine ⟨ascii c, encodeChars cs, ?_, opens, noBracket, fun same => absurd same notNull,
    fun same => absurd same notQuote, ?_⟩
  · rw [← bytes, encode, int, renderChars, Number.render, renderInt, if_neg (by omega), Int.natAbs_natCast]
  · intro rest ends
    have read := readNumber_toDigits false small ends
    rw [bytes, List.cons_append] at read
    simp only [readScalar, if_neg notNull, if_neg notTrue, if_neg notFalse, if_neg notQuote,
      if_neg notMinus, if_pos isDigit, read, bind, Except.bind, pure, Except.pure]
    rfl

private theorem scalarText_negative {n : Nat} (positive : 0 < n) (small : n ≤ twoTo 63) :
    ScalarText (.int (-n)) (ascii '-') (encodeChars (Nat.toDigits 10 n)) where
  encode_eq := by
    rw [encode, int, renderChars, Number.render, renderInt, if_pos (by omega), Int.natAbs_neg,
      Int.natAbs_natCast]
    rfl
  opens := by decide
  noBracket := by decide
  null same := absurd same (by decide)
  quote same := absurd same (by decide)
  readScalar_eq rest ends := by
    have bound : twoTo 63 < wordLimit := by decide
    have read := readNumber_toDigits true (lt_of_le_of_lt small bound) ends
    have whole : wholeNumber true n = .integer (-n) := by
      rw [wholeNumber, if_neg (by decide), if_pos ⟨positive, small⟩]
    simp [readScalar, read, whole, int, bind, Except.bind, pure, Except.pure,
      show ¬ ascii '-' = ascii 'n' by decide, show ¬ ascii '-' = ascii 't' by decide,
      show ¬ ascii '-' = ascii 'f' by decide, show ¬ ascii '-' = ascii '"' by decide]

private theorem scalarText_number {n : Number} (word : n.isWord) :
    ∃ b tail, ScalarText (.number n) b tail := by
  cases n with
  | double d => exact (Bool.false_ne_true word).elim
  | integer i =>
    simp only [Number.isWord, Bool.and_eq_true, decide_eq_true_eq] at word
    have least : twoTo 63 = 0x8000000000000000 := by decide
    have limit : wordLimit = 0x10000000000000000 := by decide
    rcases lt_or_ge i 0 with negative | natural
    · obtain ⟨n, rfl⟩ : ∃ n : Nat, i = -n := ⟨i.natAbs, by omega⟩
      exact ⟨_, _, scalarText_negative (by omega) (by omega)⟩
    · obtain ⟨n, rfl⟩ := Int.eq_ofNat_of_zero_le natural
      exact scalarText_natural (by omega)

def isScalar : Json → Bool
  | .array _ | .object _ => false
  | _ => true

/-- Every scalar with an integer of 64 bits for a number is found in its text. -/
theorem exists_scalarText {j : Json} (scalar : j.isScalar) (integral : j.isIntegral) :
    ∃ b tail, ScalarText j b tail := by
  cases j with
  | null => exact ⟨_, _, scalarText_null⟩
  | bool b =>
    cases b with
    | true => exact ⟨_, _, scalarText_true⟩
    | false => exact ⟨_, _, scalarText_false⟩
  | number n => exact scalarText_number integral
  | string s => exact ⟨_, _, scalarText_string s⟩
  | array items => exact (Bool.false_ne_true scalar).elim
  | object members => exact (Bool.false_ne_true scalar).elim

end Tenancy.Json
