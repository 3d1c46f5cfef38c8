import Mathlib.Data.List.DropRight
import Tenancy.Proofs.Json.Skipping

/-! # Where a value ends

A value that is passed over ends at a place that depends neither on the containers around it nor on the fuel.
A scalar that a reader takes ends there as well: passing over it asks less of strings and numbers than reading
them, but stops at the same byte.
-/

namespace Tenancy.Json

open Text.Utf8

variable {input rest next other : Input} {b : UInt8} {fuel : Nat} {opened : List Bracket}
  {started : Bool} {value : Json}

/-- The value at the front of the input ends where the rest begins: whatever is open around it, passing over
it goes on there. -/
def Extent (input rest : Input) : Prop :=
  ∃ steps, ∀ fuel opened, skipValue (fuel + steps) opened input = skipNext fuel true opened rest

/-- A value has one end. -/
theorem Extent.unique (one : Extent input rest) (two : Extent input other) : rest = other := by
  obtain ⟨m, early⟩ := one
  obtain ⟨n, late⟩ := two
  have same : skipNext (n + 1) true [] rest = skipNext (m + 1) true [] other := by
    rw [← early, ← late, Nat.add_right_comm n 1 m, Nat.add_right_comm m 1 n, Nat.add_comm n m]
  rw [skipNext, skipNext] at same
  exact Except.ok.inj same

theorem skipSpace_skipSpace (input : Input) : skipSpace (skipSpace input) = skipSpace input := by
  exact List.dropWhile_idempotent isSpace input

/-- White space before a value makes no difference to where it ends. -/
theorem skipValue_skipSpace (fuel : Nat) (opened : List Bracket) (input : Input) :
    skipValue fuel opened (skipSpace input) = skipValue fuel opened input := by
  cases fuel with
  | zero => rfl
  | succ fuel => rw [skipValue, skipValue, skipSpace_skipSpace]

/-! ## Containers around a value -/

/-- With so much fuel, passing over takes no notice of the containers beneath those that it is in: with others
beneath, it takes the same steps and then goes on in them. -/
structure Framed (fuel : Nat) : Prop where
  value : ∀ {opened : List Bracket} {input rest : Input}, skipValue fuel opened input = .ok rest →
    ∃ steps, ∀ more outer, skipValue (more + steps) (opened ++ outer) input = skipNext more true outer rest
  next : ∀ {started : Bool} {opened : List Bracket} {input rest : Input}, started = true ∨ opened ≠ [] →
    skipNext fuel started opened input = .ok rest →
      ∃ steps, ∀ more outer,
        skipNext (more + steps) started (opened ++ outer) input = skipNext more true outer rest

namespace Framed

theorem zero : Framed 0 where
  value found := by rw [skipValue] at found; exact absurd found stop_ne_ok
  next _ found := by rw [skipNext] at found; exact absurd found stop_ne_ok

theorem value_succ (framed : Framed fuel) (found : skipValue (fuel + 1) opened input = .ok rest) :
    ∃ steps, ∀ more outer, skipValue (more + steps) (opened ++ outer) input = skipNext more true outer rest := by
  rw [skipValue] at found
  cases start : skipSpace input with
  | nil => rw [start] at found; exact absurd found stop_ne_ok
  | cons b tail =>
    simp only [start] at found
    by_cases list : b = ascii '['
    · rw [if_pos list] at found
      obtain ⟨steps, passes⟩ := framed.next (.inr (List.cons_ne_nil _ _)) found
      refine ⟨steps + 1, fun more outer => ?_⟩
      rw [← Nat.add_assoc, skipValue, start]
      simp only [if_pos list]
      exact passes more outer
    rw [if_neg list] at found
    by_cases table : b = ascii '\x7b'
    · rw [if_pos table] at found
      obtain ⟨steps, passes⟩ := framed.next (.inr (List.cons_ne_nil _ _)) found
      refine ⟨steps + 1, fun more outer => ?_⟩
      rw [← Nat.add_assoc, skipValue, start]
      simp only [if_neg list, if_pos table]
      exact passes more outer
    rw [if_neg table] at found
    obtain ⟨left, scalar, found⟩ := bind_eq_ok.mp found
    obtain ⟨steps, passes⟩ := framed.next (.inl rfl) found
    refine ⟨steps + 1, fun more outer => ?_⟩
    rw [← Nat.add_assoc, skipValue, start]
    simp only [if_neg list, if_neg table, scalar]
    exact passes more outer

theorem next_succ (framed : Framed fuel) (inside : started = true ∨ opened ≠ [])
    (found : skipNext (fuel + 1) started opened input = .ok rest) :
    ∃ steps, ∀ more outer,
      skipNext (more + steps) started (opened ++ outer) input = skipNext more true outer rest := by
  cases opened with
  | nil =>
    obtain rfl : started = true := inside.resolve_right fun empty => empty rfl
    rw [skipNext] at found
    obtain rfl := Except.ok.inj found
    exact ⟨0, fun _ _ => rfl⟩
  | cons frame opened =>
    rw [skipNext] at found
    cases start : skipSpace input with
    | nil => rw [start] at found; exact absurd found stop_ne_ok
    | cons b tail =>
      simp only [start] at found
      by_cases close : b = frame.close
      · rw [if_pos close] at found
        obtain ⟨steps, passes⟩ := framed.next (.inl rfl) found
        refine ⟨steps + 1, fun more outer => ?_⟩
        rw [← Nat.add_assoc, List.cons_append, skipNext, start]
        simp only [if_pos close]
        exact passes more outer
      rw [if_neg close] at found
      by_cases wanted : started ∧ b ≠ ascii ','
      · rw [if_pos wanted] at found
        exact absurd found stopAt_ne_ok
      rw [if_neg wanted] at found
      obtain ⟨named, key, found⟩ := bind_eq_ok.mp found
      obtain ⟨steps, passes⟩ := framed.value found
      refine ⟨steps + 1, fun more outer => ?_⟩
      rw [← Nat.add_assoc, List.cons_append, skipNext, start]
      simp only [if_neg close, if_neg wanted]
      exact (congrArg (· >>= _) key).trans (passes more outer)

end Framed

/-- The induction is on the fuel that the two functions share. -/
theorem framed (fuel : Nat) : Framed fuel := by
  induction fuel with
  | zero => exact .zero
  | succ fuel ih => exact ⟨ih.value_succ, ih.next_succ⟩

/-- A value that was passed over ends where passing over it ended. -/
theorem extent_of_skipValue (found : skipValue fuel [] input = .ok rest) : Extent input rest :=
  (framed fuel).value found

/-! ## Strings -/

/-- Four digits of an escape are taken, never more or fewer. -/
theorem readQuad_ok {n : Nat} (found : readQuad input = .ok (n, rest)) : input.length = rest.length + 4 := by
  rw [readQuad.eq_def] at found
  split at found
  · split at found
    · cases found
      rfl
    · exact absurd found stop_ne_ok
  · exact absurd found stop_ne_ok

theorem skipEscape_numbered : skipEscape (ascii 'u' :: input) = (do
    let (_, rest) ← readQuad input
    return rest) := by
  have long : ¬ (shortEscape? (ascii 'u')).isSome := by decide
  rw [skipEscape, if_neg long, if_pos rfl]

/-- An escape that was read is passed over, one of two halves in two steps. -/
theorem skipEscape_of_readEscape {c : Char} (found : readEscape input = .ok (c, rest)) :
    (skipEscape input = .ok rest ∧ rest.length < input.length) ∨
      ∃ half, skipEscape input = .ok (ascii '\\' :: half) ∧ skipEscape half = .ok rest ∧
        rest.length < half.length ∧ half.length < input.length := by
  cases input with
  | nil => exact absurd found stop_ne_ok
  | cons b tail =>
    rw [readEscape] at found
    cases short : shortEscape? b with
    | some d =>
      rw [short] at found
      cases found
      refine .inl ⟨?_, Nat.lt_succ_self _⟩
      rw [skipEscape, short, Option.isSome_some, if_pos rfl]
    | none =>
      simp only [short] at found
      split_ifs at found with numbered
      · subst numbered
        rw [readNumbered] at found
        obtain ⟨⟨n, after⟩, quad, found⟩ := bind_eq_ok.mp found
        have length := readQuad_ok quad
        have passes : skipEscape (ascii 'u' :: tail) = .ok after := by
          rw [skipEscape_numbered, quad]
          rfl
        simp only at found
        split_ifs at found
        · exact absurd found stop_ne_ok
        · rw [readTrailing.eq_def] at found
          split at found
          · exact absurd found stop_ne_ok
          · split_ifs at found with backslash
            · exact absurd found stop_ne_ok
            split at found
            · exact absurd found stop_ne_ok
            · split_ifs at found with letter
              · exact absurd found stop_ne_ok
              obtain ⟨⟨low, last⟩, lowQuad, found⟩ := bind_eq_ok.mp found
              simp only at found
              split_ifs at found
              · obtain ⟨-, rfl⟩ := Prod.mk.inj (Except.ok.inj found)
                rw [not_not] at backslash letter
                subst backslash letter
                have lower := readQuad_ok lowQuad
                simp only [List.length_cons] at length
                refine .inr ⟨_, passes, ?_, ?_, ?_⟩
                · rw [skipEscape_numbered, lowQuad]
                  rfl
                · rw [List.length_cons]
                  omega
                · rw [List.length_cons, List.length_cons]
                  omega
              · exact absurd found stop_ne_ok
        · cases found
          refine .inl ⟨passes, ?_⟩
          rw [List.length_cons]
          omega
      · exact absurd found stop_ne_ok

theorem skipText_escape (escape : skipEscape input = .ok next) :
    skipText (fuel + 1) (ascii '\\' :: input) = skipText fuel next := by
  have other : ¬ ascii '\\' = ascii '"' := by decide
  rw [skipText, if_neg other, if_pos rfl, escape]
  rfl

/-- With enough fuel a string that was read is passed over. -/
theorem skipText_of_scanText {s : String} (fuel : Nat) : ∀ {read : List Char} {broken : Option Input}
    {input : Input} {enough : Nat}, input.length < enough → scanText fuel read broken input = .ok (s, rest) →
      skipText enough input = .ok rest := by
  induction fuel with
  | zero =>
    intro read broken input enough _ found
    exact absurd found stop_ne_ok
  | succ fuel ih =>
    intro read broken input enough long found
    obtain ⟨enough, rfl⟩ : ∃ less, enough = less + 1 := ⟨enough - 1, by omega⟩
    cases input with
    | nil => exact absurd found stop_ne_ok
    | cons b tail =>
      rw [List.length_cons] at long
      rw [scanText.eq_def] at found
      dsimp only at found
      by_cases quote : b = ascii '"'
      · rw [if_pos quote] at found
        rw [skipText, if_pos quote]
        cases broken with
        | none => cases found; rfl
        | some after => exact absurd found stop_ne_ok
      rw [if_neg quote] at found
      by_cases backslash : b = ascii '\\'
      · rw [if_pos backslash] at found
        obtain ⟨⟨c, after⟩, escape, found⟩ := bind_eq_ok.mp found
        subst backslash
        rcases skipEscape_of_readEscape escape with ⟨passes, shorter⟩ | ⟨half, first, second, shorter, less⟩
        · rw [skipText_escape passes]
          exact ih (by omega) found
        · obtain ⟨enough, rfl⟩ : ∃ less, enough = less + 1 := ⟨enough - 1, by omega⟩
          rw [skipText_escape first, skipText_escape second]
          exact ih (by omega) found
      rw [if_neg backslash] at found
      by_cases control : b.toNat < 0x20
      · rw [if_pos control] at found
        exact absurd found stop_ne_ok
      rw [if_neg control] at found
      rw [skipText, if_neg quote, if_neg backslash, if_neg control]
      cases char : decodeChar? (b :: tail) with
      | none =>
        rw [char] at found
        exact ih (by omega) found
      | some decoded =>
        obtain ⟨c, left⟩ := decoded
        rw [char] at found
        obtain ⟨more, rfl, wide⟩ := decodeChar?_eq_some char
        obtain ⟨steps, few, skips⟩ := skipsBytes_of_isPlain fun byte present => isPlain_of_wide (wide byte present)
        rw [List.length_append] at long
        obtain ⟨spare, rfl⟩ : ∃ spare, enough = spare + steps := ⟨enough - steps, by omega⟩
        rw [skips]
        exact ih (by omega) found

/-- A string that reads is passed over to the same place. -/
theorem skipText_of_readText {s : String} (found : readText input = .ok (s, rest)) :
    skipText (input.length + 1) input = .ok rest :=
  skipText_of_scanText _ (Nat.lt_succ_self _) found

/-! ## Numbers -/

section

variable {negative : Bool} {digits limit n count : Nat} {exponent places : Int} {number : Number}

theorem dropWhile_of_startsWithDigit (ends : startsWithDigit input = false) :
    input.dropWhile isDigitByte = input := by
  cases input with
  | nil => rfl
  | cons b input => rw [List.dropWhile_cons, show isDigitByte b = false from ends, if_neg Bool.false_ne_true]

/-- Digits are gathered from the front, as far as they are kept. -/
theorem dropWhile_gatherDigits (limit n count : Nat) (input : Input) :
    (gatherDigits limit n count input).2.2.dropWhile isDigitByte = input.dropWhile isDigitByte := by
  induction input generalizing n count with
  | nil => rfl
  | cons b input ih =>
    rw [gatherDigits]
    cases digit : digitOf? b with
    | none => rfl
    | some d =>
      have isDigit : isDigitByte b := by rw [isDigitByte, digit]; rfl
      dsimp only
      split_ifs
      · rw [ih, List.dropWhile_cons, if_pos isDigit]
      · rfl

theorem gatherDigits_of_ends (ends : startsWithDigit input = false) :
    gatherDigits limit n count input = (n, count, input) := by
  cases input with
  | nil => rfl
  | cons b input =>
    have noDigit : digitOf? b = none := Option.isSome_eq_false_iff.mp ends |> Option.isNone_iff_eq_none.mp
    rw [gatherDigits, noDigit]

theorem rest_of_readScaled (found : readScaled negative digits exponent input = .ok (number, rest)) :
    rest = input := by
  rw [readScaled] at found
  split at found
  · cases found
    rfl
  · exact absurd found stop_ne_ok

theorem skipExponent_of_readExponent
    (found : readExponent negative digits places input = .ok (number, rest)) :
    skipExponent input = .ok rest := by
  rw [readExponent.eq_def] at found
  rw [skipExponent.eq_def]
  extract_lets down unsigned at found
  extract_lets unsigned'
  have same : unsigned' = unsigned := rfl
  clear_value unsigned' unsigned
  subst same
  cases unsigned' with
  | nil => exact absurd found stop_ne_ok
  | cons b tail =>
    simp only at found
    cases digit : digitOf? b with
    | none => rw [digit] at found; exact absurd found stop_ne_ok
    | some first =>
      have isDigit : isDigitByte b := by rw [isDigitByte, digit]; rfl
      have starts : startsWithDigit (b :: tail) := isDigit
      have dropped := dropWhile_gatherDigits exponentLimit first 1 tail
      rw [if_pos starts, List.dropWhile_cons, if_pos isDigit, ← dropped]
      simp only [digit] at found
      generalize (gatherDigits exponentLimit first 1 tail).2.2 = left at found
      cases left with
      | nil => rw [rest_of_readScaled found]; rfl
      | cons d after =>
        simp only at found
        by_cases longer : isDigitByte d
        · rw [if_pos longer] at found
          split_ifs at found
          · exact absurd found stop_ne_ok
          · cases found
            rfl
        · rw [if_neg longer] at found
          rw [rest_of_readScaled found, dropWhile_of_startsWithDigit (Bool.not_eq_true _ ▸ longer)]

theorem skipScale_of_readScale (found : readScale negative digits places input = .ok (number, rest)) :
    skipScale input = .ok rest := by
  rw [readScale.eq_def] at found
  cases input with
  | nil => rw [rest_of_readScaled found]; rfl
  | cons b tail =>
    simp only at found
    rw [skipScale]
    split_ifs at found ⊢
    · exact skipExponent_of_readExponent found
    · rw [rest_of_readScaled found]

theorem skipScale_of_readFraction (found : readFraction negative digits places input = .ok (number, rest)) :
    startsWithDigit input ∧ skipScale (input.dropWhile isDigitByte) = .ok rest := by
  rw [readFraction] at found
  simp only at found
  cases ends : startsWithDigit input with
  | false =>
    rw [gatherDigits_of_ends ends] at found
    simp only [ends, Bool.false_eq_true, if_false, if_true] at found
    split_ifs at found
    · exact absurd found stop_ne_ok
    · exact absurd found stopAt_ne_ok
  | true =>
    refine ⟨rfl, ?_⟩
    rw [← dropWhile_gatherDigits wordLimit digits 0 input]
    split_ifs at found with more none
    · exact skipScale_of_readScale found
    · exact absurd found stop_ne_ok
    · exact absurd found stopAt_ne_ok
    · rw [dropWhile_of_startsWithDigit (Bool.not_eq_true _ ▸ more)]
      exact skipScale_of_readScale found

/-- Passes over what follows the digits of an integer. -/
def skipFraction : Input → Attempt Input
  | [] => .ok []
  | c :: rest =>
    if c = ascii '.' then
      if startsWithDigit rest then skipScale (rest.dropWhile isDigitByte) else stopAt .invalidNumber rest
    else skipScale (c :: rest)

/-- Passing over a number goes past its whole digits and then to what may follow them. -/
theorem skipNumber_eq (digit : isDigitByte b) (single : ¬ (b = ascii '0' ∧ startsWithDigit input)) :
    skipNumber (b :: input) = skipFraction (input.dropWhile isDigitByte) := by
  simp only [skipNumber, digit, Bool.not_true, Bool.false_eq_true, if_false, if_neg single]
  cases input.dropWhile isDigitByte <;> rfl

/-- What follows the whole digits of a number that reads is passed over to the same place. -/
theorem skipFraction_of_readAfterInteger {dropped : Option Nat}
    (found : readAfterInteger negative digits dropped input = .ok (number, rest)) :
    skipFraction input = .ok rest := by
  have finish (found : dropped.elim (.ok (wholeNumber negative digits, input) : Attempt (Number × Input))
      (readScaled negative digits · input) = .ok (number, rest)) : rest = input := by
    cases dropped with
    | none => cases found; rfl
    | some k => exact rest_of_readScaled found
  rw [readAfterInteger.eq_def] at found
  cases input with
  | nil =>
    have same : rest = [] := by cases dropped <;> exact finish found
    rw [same]
    rfl
  | cons b tail =>
    rw [skipFraction]
    dsimp only at found
    split_ifs at found ⊢ with point starts letter
    · exact (skipScale_of_readFraction found).2
    · exact absurd (skipScale_of_readFraction found).1 starts
    · rw [skipScale, if_pos letter]
      exact skipExponent_of_readExponent found
    · have same : rest = b :: tail := by cases dropped <;> exact finish found
      rw [skipScale, if_neg letter, same]

/-- A number that was read is passed over. -/
theorem skipNumber_of_readNumber (found : readNumber negative input = .ok (number, rest)) :
    skipNumber input = .ok rest := by
  cases input with
  | nil => exact absurd found stop_ne_ok
  | cons b tail =>
    rw [readNumber.eq_def] at found
    dsimp only at found
    cases digit : digitOf? b with
    | none => rw [digit] at found; exact absurd found stop_ne_ok
    | some first =>
      have isDigit : isDigitByte b := by rw [isDigitByte, digit]; rfl
      rw [digit] at found
      cases first with
      | zero =>
        simp only at found
        split_ifs at found with starts
        · exact absurd found stopAt_ne_ok
        · rw [skipNumber_eq isDigit fun zero => starts zero.2,
            dropWhile_of_startsWithDigit (Bool.not_eq_true _ ▸ starts)]
          exact skipFraction_of_readAfterInteger found
      | succ first =>
        have nonzero : b ≠ ascii '0' := by
          rintro rfl
          have zero : digitOf? (ascii '0') = some 0 := by decide
          rw [zero] at digit
          cases digit
        rw [skipNumber_eq isDigit fun zero => nonzero zero.1,
          ← dropWhile_gatherDigits wordLimit (first + 1) 1 tail]
        simp only at found
        split_ifs at found with starts
        · exact skipFraction_of_readAfterInteger found
        · rw [dropWhile_of_startsWithDigit (Bool.not_eq_true _ ▸ starts)]
          exact skipFraction_of_readAfterInteger found

end

/-! ## Scalars -/

/-- A scalar that was read ends where the reader stopped. -/
theorem extent_of_readScalar (start : skipSpace input = b :: next) (noBracket : isBracket b = false)
    (found : readScalar b next = .ok (value, rest)) : Extent input rest := by
  have skips : skipScalar b next = .ok rest := by
    by_cases quote : b = ascii '"'
    · subst quote
      obtain ⟨⟨s, left⟩, text, same⟩ := bind_eq_ok.mp found
      cases same
      exact skipText_of_readText text
    by_cases minus : b = ascii '-'
    · subst minus
      obtain ⟨⟨n, left⟩, read, same⟩ := bind_eq_ok.mp found
      cases same
      exact skipNumber_of_readNumber read
    rw [skipScalar, if_neg quote, if_neg minus]
    split_ifs with digit
    · have others : b ≠ ascii 'n' ∧ b ≠ ascii 't' ∧ b ≠ ascii 'f' := by
        refine ⟨?_, ?_, ?_⟩ <;>
        · rintro rfl
          exact absurd digit (by decide)
      rw [readScalar, if_neg others.1, if_neg others.2.1, if_neg others.2.2, if_neg quote, if_neg minus,
        if_pos digit] at found
      obtain ⟨⟨n, left⟩, read, same⟩ := bind_eq_ok.mp found
      cases same
      exact skipNumber_of_readNumber read
    · rw [found]
      rfl
  exact ⟨1, fun fuel opened => skipValue_scalar start noBracket skips⟩

end Tenancy.Json
