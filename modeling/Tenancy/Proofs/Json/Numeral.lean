import Tenancy.Proofs.Json.Taken

/-! # Numbers that were read

Bytes of ASCII were taken for every number. For an integer they are its digits and perhaps a sign, and an
integer is written in one way only: with a point, an exponent or too many digits a number is a double.
-/

namespace Tenancy.Json

open Text.Utf8

variable {cs : List Char} {rest : Input} {c : Char} {b : UInt8}

/-! ## Doubles -/

theorem isDigitByte_narrow (digit : isDigitByte b) : b.toNat < 0x80 := by
  obtain ⟨d, found⟩ := Option.isSome_iff_exists.mp digit
  rw [digitOf?] at found
  split_ifs at found
  omega

/-- The gathered digits were passed over, and they are narrow. -/
theorem passed_gatherDigits (limit n count : Nat) (input : Input) :
    Passed input (gatherDigits limit n count input).2.2 := by
  induction input generalizing n count with
  | nil => exact .refl []
  | cons b input ih =>
    rw [gatherDigits]
    cases digit : digitOf? b with
    | none => exact .refl _
    | some d =>
      dsimp only
      split_ifs
      · exact .cons (isDigitByte_narrow (by rw [isDigitByte, digit]; rfl)) (ih ..)
      · exact .refl _

/-- What was read is a double, and bytes of ASCII were taken for it. -/
def ReadsDouble (input : Input) (result : Attempt (Number × Input)) : Prop :=
  ∀ number rest, result = .ok (number, rest) → Passed input rest ∧ ∃ d, number = .double d

variable {negative : Bool} {digits : Nat} {exponent places : Int} {input : Input}

theorem readsDouble_readScaled : ReadsDouble input (readScaled negative digits exponent input) := by
  intro number rest found
  rw [readScaled] at found
  split at found
  · cases found
    exact ⟨.refl _, _, rfl⟩
  · exact absurd found stop_ne_ok

/-- What reads a fraction further on reads one from here. -/
theorem ReadsDouble.after {middle : Input} {result : Attempt (Number × Input)} (passed : Passed input middle)
    (reads : ReadsDouble middle result) : ReadsDouble input result :=
  fun number rest found => (reads number rest found).imp_left passed.trans

theorem readsDouble_stop {cause : Cause} {other : Input} : ReadsDouble input (stop cause other) :=
  fun _ _ found => absurd found stop_ne_ok

theorem readsDouble_ok {d : Double} {rest : Input} (passed : Passed input rest) :
    ReadsDouble input (.ok (.double d, rest)) := by
  intro number left found
  cases found
  exact ⟨passed, d, rfl⟩

/-- A number with an exponent is a fraction, and what was read of it is narrow. -/
theorem readsDouble_readExponent : ReadsDouble input (readExponent negative digits places input) := by
  rw [readExponent.eq_def]
  cases input with
  | nil => exact readsDouble_stop
  | cons sign tail =>
    dsimp only
    obtain ⟨unsigned, same, signed⟩ : ∃ unsigned,
        (if sign = ascii '-' ∨ sign = ascii '+' then tail else sign :: tail) = unsigned ∧
          Passed (sign :: tail) unsigned := by
      refine ⟨_, rfl, ?_⟩
      split_ifs with isSign
      · refine .cons ?_ (.refl tail)
        rcases isSign with rfl | rfl <;> decide
      · exact .refl _
    rw [same]
    refine .after signed ?_
    cases unsigned with
    | nil => exact readsDouble_stop
    | cons b rest =>
      dsimp only
      cases digit : digitOf? b with
      | none => exact readsDouble_stop
      | some first =>
        have passed := passed_gatherDigits exponentLimit first 1 rest
        have narrow : b.toNat < 0x80 := isDigitByte_narrow (by rw [isDigitByte, digit]; rfl)
        dsimp only
        cases left : (gatherDigits exponentLimit first 1 rest).2.2 with
        | nil => exact .after (.cons narrow (left ▸ passed)) readsDouble_readScaled
        | cons d more =>
          rw [left] at passed
          dsimp only
          by_cases longer : isDigitByte d
          · rw [if_pos longer]
            split_ifs
            · exact readsDouble_stop
            · exact readsDouble_ok (.cons narrow (passed.trans (.dropWhile (fun _ => isDigitByte_narrow) _)))
          · rw [if_neg longer]
            exact .after (.cons narrow passed) readsDouble_readScaled

theorem readsDouble_readScale : ReadsDouble input (readScale negative digits places input) := by
  rw [readScale.eq_def]
  cases input with
  | nil => exact readsDouble_readScaled
  | cons b rest =>
    dsimp only
    split_ifs with letter
    · refine .after (.cons ?_ (.refl rest)) readsDouble_readExponent
      rcases letter with rfl | rfl <;> decide
    · exact readsDouble_readScaled

/-- A number with a decimal point is a fraction as well. -/
theorem readsDouble_readFraction : ReadsDouble input (readFraction negative digits places input) := by
  have passed := passed_gatherDigits wordLimit digits 0 input
  rw [readFraction]
  dsimp only
  split_ifs
  · exact .after (passed.trans (.dropWhile (fun _ => isDigitByte_narrow) _)) readsDouble_readScale
  · exact readsDouble_stop
  · exact fun _ _ found => absurd found stopAt_ne_ok
  · exact .after passed readsDouble_readScale

/-! ## Integers -/

/-- A number is an integer only if nothing but its digits was taken. -/
theorem readAfterInteger_eq_ok {dropped : Option Nat} {number : Number}
    (found : readAfterInteger negative digits dropped input = .ok (number, rest)) :
    (dropped = none ∧ number = wholeNumber negative digits ∧ rest = input) ∨
      (Passed input rest ∧ ∃ d, number = .double d) := by
  have finish (found : dropped.elim (.ok (wholeNumber negative digits, input) : Attempt (Number × Input))
      (readScaled negative digits · input) = .ok (number, rest)) :
      (dropped = none ∧ number = wholeNumber negative digits ∧ rest = input) ∨
        (Passed input rest ∧ ∃ d, number = .double d) := by
    cases dropped with
    | none =>
      cases found
      exact .inl ⟨rfl, rfl, rfl⟩
    | some k => exact .inr (readsDouble_readScaled _ _ found)
  rw [readAfterInteger.eq_def] at found
  cases input with
  | nil => cases dropped <;> exact finish found
  | cons b tail =>
    dsimp only at found
    split_ifs at found with point letter
    · subst point
      exact .inr (readsDouble_readFraction.after (.cons (by decide) (.refl tail)) _ _ found)
    · refine .inr (readsDouble_readExponent.after (.cons ?_ (.refl tail)) _ _ found)
      rcases letter with rfl | rfl <;> decide
    · cases dropped <;> exact finish found

theorem toDigits_digit {d : Char} (digit : d.isDigit) : Nat.toDigits 10 (d.toNat - '0'.toNat) = [d] := by
  have bounds := digit_bounds digit
  have zero : '0'.toNat = 0x30 := rfl
  have back : ∀ n < 10, (Nat.digitChar n).toNat = n + 0x30 := by decide
  rw [Nat.toDigits_of_lt_base (by omega), List.cons.injEq]
  refine ⟨Char.toNat_inj.mp ?_, rfl⟩
  rw [back _ (by omega)]
  omega

/-- The digits read after a positive number are the last digits of what it became. -/
theorem toDigits_ofDigitChars {n : Nat} (positive : 0 < n) (digits : ∀ d ∈ cs, d.isDigit) :
    0 < Nat.ofDigitChars 10 cs n ∧
      Nat.toDigits 10 (Nat.ofDigitChars 10 cs n) = Nat.toDigits 10 n ++ cs := by
  induction cs generalizing n with
  | nil => exact ⟨positive, (List.append_nil _).symm⟩
  | cons d cs ih =>
    rw [List.forall_mem_cons] at digits
    have bounds := digit_bounds digits.1
    have zero : '0'.toNat = 0x30 := rfl
    obtain ⟨still, later⟩ := ih (n := 10 * n + (d.toNat - '0'.toNat)) (by omega) digits.2
    rw [Nat.ofDigitChars_cons]
    refine ⟨still, later.trans ?_⟩
    rw [← Nat.toDigits_append_toDigits (by decide) positive (by omega), toDigits_digit digits.1,
      List.append_assoc, List.singleton_append]

/-- A digit is told by its first byte. -/
theorem digit_of_front {d : Nat} (front : encodeChars (c :: cs) = b :: rest) (digit : digitOf? b = some d) :
    c.isDigit ∧ c.toNat - '0'.toNat = d ∧ rest = encodeChars cs := by
  have zero : '0'.toNat = 0x30 := rfl
  rw [digitOf?] at digit
  split_ifs at digit with bounds
  cases digit
  obtain ⟨_, _, same, -, number, left⟩ := encodeChars_eq_cons (by omega) front
  cases same
  exact ⟨Char.isDigit_iff_toNat.mpr (number ▸ bounds), by omega, left⟩

/-- The digits that were gathered stand at the front of the text. -/
theorem gatherDigits_eq {limit n count m k : Nat}
    (found : gatherDigits limit n count (encodeChars cs) = (m, k, rest)) :
    ∃ ds cs', cs = ds ++ cs' ∧ rest = encodeChars cs' ∧ (∀ d ∈ ds, d.isDigit) ∧ m = Nat.ofDigitChars 10 ds n := by
  induction cs generalizing n count with
  | nil =>
    cases found
    exact ⟨[], [], rfl, rfl, List.forall_mem_nil _, rfl⟩
  | cons c cs ih =>
    cases front : encodeChars (c :: cs) with
    | nil =>
      rw [front] at found
      cases found
      exact ⟨[], c :: cs, rfl, front.symm, List.forall_mem_nil _, rfl⟩
    | cons b tail =>
      rw [front, gatherDigits] at found
      cases digit : digitOf? b with
      | none =>
        rw [digit] at found
        cases found
        exact ⟨[], c :: cs, rfl, front.symm, List.forall_mem_nil _, rfl⟩
      | some d =>
        rw [digit] at found
        dsimp only at found
        split_ifs at found
        · obtain ⟨isDigit, value, rfl⟩ := digit_of_front front digit
          obtain ⟨ds, last, rfl, left, all, rfl⟩ := ih found
          refine ⟨c :: ds, last, rfl, left, List.forall_mem_cons.mpr ⟨isDigit, all⟩, ?_⟩
          rw [Nat.ofDigitChars_cons, value, Nat.mul_comm]
        · cases found
          exact ⟨[], c :: cs, rfl, front.symm, List.forall_mem_nil _, rfl⟩

/-- An integer is written in one way. -/
theorem renderInt_of_wholeNumber {n : Nat} {i : Int} (whole : wholeNumber negative n = .integer i) :
    (if negative then '-' :: Nat.toDigits 10 n else Nat.toDigits 10 n) = renderInt i := by
  rw [wholeNumber] at whole
  cases negative with
  | false =>
    obtain rfl := Number.integer.inj whole
    rw [renderInt, if_neg (show ¬ (n : Int) < 0 by omega), Int.natAbs_natCast]
    rfl
  | true =>
    simp only [Bool.not_true, Bool.false_eq_true, if_false] at whole
    split_ifs at whole with small
    obtain rfl := Number.integer.inj whole
    rw [renderInt, if_pos (show -(n : Int) < 0 by omega), Int.natAbs_neg, Int.natAbs_natCast]
    rfl

/-- A number that was read after its sign. -/
theorem readNumber_eq_ok {number : Number} (found : readNumber negative (encodeChars cs) = .ok (number, rest)) :
    ∃ ds cs', cs = ds ++ cs' ∧ rest = encodeChars cs' ∧
      ∀ i, number = .integer i → (if negative then '-' :: ds else ds) = renderInt i := by
  cases cs with
  | nil => exact absurd found stop_ne_ok
  | cons c cs =>
    cases front : encodeChars (c :: cs) with
    | nil =>
      rw [front] at found
      exact absurd found stop_ne_ok
    | cons b tail =>
      rw [front, readNumber.eq_def] at found
      dsimp only at found
      split at found
      case h_1 none => exact absurd found stop_ne_ok
      case h_2 zero =>
        obtain ⟨isDigit, value, rfl⟩ := digit_of_front front zero
        have digits := toDigits_digit isDigit
        rw [value] at digits
        split_ifs at found
        · exact absurd found stopAt_ne_ok
        rcases readAfterInteger_eq_ok found with ⟨-, rfl, rfl⟩ | ⟨passed, d, rfl⟩
        · exact ⟨[c], cs, rfl, rfl, fun i whole => digits ▸ renderInt_of_wholeNumber whole⟩
        · obtain ⟨ds, last, rfl, left⟩ := passed.chars
          exact ⟨c :: ds, last, rfl, left, fun i whole => by cases whole⟩
      case h_3 first nonzero digit =>
        obtain ⟨isDigit, value, rfl⟩ := digit_of_front front digit
        cases gathered : gatherDigits wordLimit first 1 (encodeChars cs) with
        | mk n left =>
          obtain ⟨k, left⟩ := left
          obtain ⟨ds, cs, rfl, rfl, all, rfl⟩ := gatherDigits_eq gathered
          have digits := (toDigits_ofDigitChars (Nat.pos_of_ne_zero nonzero) all).2
          rw [← value, toDigits_digit isDigit, List.singleton_append, value] at digits
          rw [gathered] at found
          dsimp only at found
          split_ifs at found
          · obtain ⟨none, -⟩ | ⟨passed, d, rfl⟩ := readAfterInteger_eq_ok found
            · cases none
            · obtain ⟨more, last, rfl, left⟩ :=
                ((Passed.dropWhile (fun _ => isDigitByte_narrow) _).trans passed).chars
              exact ⟨c :: (ds ++ more), last, by simp, left, fun i whole => by cases whole⟩
          · rcases readAfterInteger_eq_ok found with ⟨-, rfl, rfl⟩ | ⟨passed, d, rfl⟩
            · exact ⟨c :: ds, cs, rfl, rfl, fun i whole => digits ▸ renderInt_of_wholeNumber whole⟩
            · obtain ⟨more, last, rfl, left⟩ := passed.chars
              exact ⟨c :: (ds ++ more), last, by simp, left, fun i whole => by cases whole⟩

end Tenancy.Json
