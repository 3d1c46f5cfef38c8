import Tenancy.Proofs.Json.Document
import Tenancy.Proofs.Json.Number
import Tenancy.Yaml.Meaning

/-! # What the words and numbers of a JSON text stand for

As plain scalars they stand for what they stand for in JSON: null, a boolean or an integer.
-/

namespace Tenancy.Yaml

open Json (renderInt)

variable {c : Char} {cs digits : List Char} {n : Nat} {i : Int}

theorem digitValue?_digit (digit : c.isDigit) : Text.digitValue? 10 c = some (c.toNat - '0'.toNat) := by
  have bounds := Json.digit_bounds digit
  have zero : '0'.toNat = 0x30 := rfl
  have range : '0' ≤ c ∧ c ≤ '9' := by
    rw [Char.isDigit, Bool.and_eq_true, decide_eq_true_eq, decide_eq_true_eq] at digit
    exact digit
  rw [Text.digitValue?, if_pos range]
  simp only [Option.filter_some, zero]
  rw [if_pos (by simp; omega)]

theorem digitsValue_eq (digits : ∀ c ∈ cs, c.isDigit) (n : Nat) :
    cs.foldl (fun n c => n * 10 + (Text.digitValue? 10 c).getD 0) n = Nat.ofDigitChars 10 cs n := by
  induction cs generalizing n with
  | nil => rfl
  | cons c cs ih =>
    rw [List.forall_mem_cons] at digits
    rw [List.foldl_cons, ih digits.2, Nat.ofDigitChars_cons, digitValue?_digit digits.1, Option.getD_some,
      Nat.mul_comm]

theorem isDigit_of_mem_toDigits (among : c ∈ Nat.toDigits 10 n) : c.isDigit :=
  Nat.isDigit_of_mem_toDigits (by decide) (by decide) among

/-- The digits of a number are read as that number. -/
theorem number?_toDigits (n : Nat) : Text.number? 10 (Nat.toDigits 10 n) = some n := by
  have digits : ∀ c ∈ Nat.toDigits 10 n, c.isDigit := fun _ => isDigit_of_mem_toDigits
  have all : (Nat.toDigits 10 n).all fun c => (Text.digitValue? 10 c).isSome := by
    rw [List.all_eq_true]
    intro c among
    rw [digitValue?_digit (digits c among)]
    rfl
  have some : (Nat.toDigits 10 n).isEmpty = false := by
    rw [List.isEmpty_eq_false_iff]
    exact Nat.toDigits_ne_nil
  rw [Text.number?, if_neg (by simp [some, all]), Text.digitsValue, digitsValue_eq digits,
    Nat.ofDigitChars_ten_toDigits]

/-- Digits have no mark for their base. -/
theorem marked?_digits (digits : ∀ c ∈ cs, c.isDigit) : marked? cs = none := by
  unfold marked?
  split
  · exact absurd (digits 'x' (by simp)) (by decide)
  · exact absurd (digits 'o' (by simp)) (by decide)
  · exact absurd (digits 'b' (by simp)) (by decide)
  · rfl

theorem withoutSign_digits (digits : ∀ c ∈ cs, c.isDigit) : withoutSign cs = cs := by
  cases cs with
  | nil => rfl
  | cons c cs =>
    have digit := digits c (List.mem_cons_self ..)
    have signs : ¬ (c = '+' ∨ c = '-') := by
      rintro (rfl | rfl) <;> exact absurd digit (by decide)
    rw [withoutSign, if_neg signs]

/-- A number is written without a needless zero. -/
theorem hasNeedlessZero_toDigits (n : Nat) : hasNeedlessZero (Nat.toDigits 10 n) = false := by
  rw [hasNeedlessZero, withoutSign_digits fun _ => isDigit_of_mem_toDigits]
  rcases Nat.eq_zero_or_pos n with rfl | positive
  · rfl
  · obtain ⟨c, cs, digits, nonzero⟩ := Json.toDigits_pos positive
    rw [digits]
    split
    case h_1 same => exact absurd (List.cons.inj same).1 nonzero
    case h_2 => rfl

/-- A decimal number is not taken for an octal or a hexadecimal one. -/
theorem magnitude?_toDigits (n : Nat) : magnitude? (Nat.toDigits 10 n) = some n := by
  rw [magnitude?, marked?_digits fun _ => isDigit_of_mem_toDigits, hasNeedlessZero_toDigits, number?_toDigits]
  rfl

theorem integer?_digits (digits : ∀ c ∈ cs, c.isDigit) : integer? cs = (magnitude? cs).map Int.ofNat := by
  unfold integer?
  split
  · exact absurd (digits '+' (by simp)) (by decide)
  · exact absurd (digits '-' (by simp)) (by decide)
  · rfl

/-- A written integer is read back, sign and all. -/
theorem integer?_renderInt (i : Int) : integer? (renderInt i) = some i := by
  rw [renderInt]
  split
  case isTrue negative =>
    rw [integer?, magnitude?_toDigits]
    exact congrArg some (show -(i.natAbs : Int) = i by omega)
  case isFalse other =>
    rw [integer?_digits fun _ => isDigit_of_mem_toDigits, magnitude?_toDigits, Option.map_some]
    exact congrArg some (by rw [Int.ofNat_eq_natCast]; omega)

/-- An integer is none of the words that stand for null or a boolean. -/
theorem renderInt_ne {word : String} (letter : word.toList.head?.all fun c => c != '-' && !c.isDigit) :
    String.ofList (renderInt i) ≠ word := by
  rintro rfl
  have digits : ∀ c ∈ Nat.toDigits 10 i.natAbs, c.isDigit := fun _ => isDigit_of_mem_toDigits
  obtain ⟨d, others, all⟩ := List.exists_cons_of_ne_nil (Nat.toDigits_ne_nil (n := i.natAbs) (b := 10))
  have digit : d.isDigit := digits d (all ▸ List.mem_cons_self ..)
  rw [String.toList_ofList, renderInt] at letter
  split at letter
  · exact absurd letter (by simp)
  · rw [all] at letter
    simp [digit] at letter

/-- A written integer is no word that starts with neither a minus sign nor a digit. -/
theorem renderInt_not_mem {words : List String}
    (letters : words.all fun word => word.toList.head?.all fun c => c != '-' && !c.isDigit) :
    String.ofList (renderInt i) ∉ words := fun among =>
  renderInt_ne (List.all_eq_true.mp letters _ among) rfl

/-- An integer of 64 bits stands for itself. -/
theorem Meaning.ofPlain_integer (word : (Json.Number.integer i).isWord) :
    Meaning.ofPlain (String.ofList (renderInt i)) = .integer i := by
  have noNull : ¬ (String.ofList (renderInt i) = "" ∨ saysNull (String.ofList (renderInt i)) = true) := by
    rw [saysNull, decide_eq_true_eq]
    rintro (same | among)
    · exact renderInt_ne (by decide) same
    · exact renderInt_not_mem (by decide) among
  have noTruth : truth? (String.ofList (renderInt i)) = none := by
    rw [truth?, if_neg (renderInt_not_mem (by decide)), if_neg (renderInt_not_mem (by decide))]
  have fits : Meaning.ofInteger? i = some (.integer i) := by
    simp only [Json.Number.isWord, Bool.and_eq_true, decide_eq_true_eq] at word
    have powers : twoTo 63 = 0x8000000000000000 ∧ twoTo 64 = 0x10000000000000000 := by decide
    rw [ofInteger?, powers.1, powers.2, if_pos]
    omega
  rw [Meaning.ofPlain, if_neg noNull, noTruth, String.toList_ofList, integer?_renderInt, Option.bind_some, fits]

end Tenancy.Yaml
