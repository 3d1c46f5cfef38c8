import Tenancy.Json.Typed
import Tenancy.Proofs.Json.Reading
import Tenancy.Proofs.Json.Written

/-! # Passing over what was written

A value that was written is passed over to its end, whatever containers are open around it. This takes
fewer steps than twice its bytes, however deep the value is.
-/

namespace Tenancy.Json

open Text.Utf8

variable {fuel : Nat} {opened : List Bracket} {rest : Input} {name : String} {value : Json}
  {items : List Json} {members : List (String × Json)}

/-! ## Strings -/

/-- Bytes within a string that are passed over in at most one step each. -/
def SkipsBytes (bytes : List UInt8) : Prop :=
  ∃ steps ≤ bytes.length, ∀ fuel rest, skipText (fuel + steps) (bytes ++ rest) = skipText fuel rest

theorem SkipsBytes.nil : SkipsBytes [] := ⟨0, Nat.le_refl _, fun _ _ => rfl⟩

/-- Bytes that are passed over within a string stay so when put together. -/
theorem SkipsBytes.append {front back : List UInt8} (first : SkipsBytes front)
    (second : SkipsBytes back) : SkipsBytes (front ++ back) := by
  obtain ⟨early, fewEarly, skipsFront⟩ := first
  obtain ⟨late, fewLate, skipsBack⟩ := second
  refine ⟨late + early, ?_, fun fuel rest => ?_⟩
  · rw [List.length_append]
    omega
  · rw [← Nat.add_assoc, List.append_assoc, skipsFront, skipsBack]

/-- Bytes with no special meaning in a string are passed over. -/
theorem skipsBytes_of_isPlain {bytes : List UInt8} (plain : ∀ b ∈ bytes, isPlain b) :
    SkipsBytes bytes := by
  induction bytes with
  | nil => exact .nil
  | cons b bytes ih =>
    obtain ⟨first, others⟩ := List.forall_mem_cons.mp plain
    obtain ⟨notQuote, notBackslash, notControl⟩ := first
    have step : SkipsBytes [b] := by
      refine ⟨1, Nat.le_refl _, fun fuel rest => ?_⟩
      rw [List.singleton_append, skipText, if_neg notQuote, if_neg notBackslash, if_neg notControl]
    exact step.append (ih others)

theorem skipsBytes_escape (bytes : List UInt8)
    (skips : ∀ rest, skipEscape (bytes ++ rest) = .ok rest) : SkipsBytes (ascii '\\' :: bytes) := by
  have backslash : ¬ ascii '\\' = ascii '"' := by decide
  refine ⟨1, Nat.succ_le_succ (Nat.zero_le _), fun fuel rest => ?_⟩
  rw [List.cons_append, skipText, if_neg backslash, if_pos rfl, skips]
  rfl

/-- A written character is passed over, whether it is escaped or not. -/
theorem skipsBytes_renderChar (c : Char) : SkipsBytes (encodeChars (renderChar c)) := by
  rw [renderChar]
  split_ifs with quote backslash lineFeed carriageReturn tab backspace formFeed control
  iterate 7 exact skipsBytes_escape [_] fun rest => rfl
  · apply skipsBytes_escape (ascii 'u' :: encodeChars (Text.hex4 c.toNat))
    intro rest
    have numbered : ¬ (shortEscape? (ascii 'u')).isSome := by decide
    rw [List.cons_append, skipEscape, if_neg numbered, if_pos rfl, readQuad_control control]
    rfl
  · rw [encodeChars_cons, encodeChars_nil, List.append_nil]
    exact skipsBytes_of_isPlain fun b present =>
      isPlain_of_mem_encodeChar quote backslash control present

/-- So is all that stands between the quotes of a written string. -/
theorem skipsBytes_textBytes (s : String) : SkipsBytes (textBytes s) := by
  rw [textBytes]
  induction s.toList with
  | nil => exact .nil
  | cons c cs ih =>
    rw [List.flatMap_cons, encodeChars_append]
    exact (skipsBytes_renderChar c).append ih

/-- A string that was written is passed over with its closing quote. -/
theorem skipText_textBytes (s : String) (rest : Input) :
    skipText ((textBytes s ++ ascii '"' :: rest).length + 1) (textBytes s ++ ascii '"' :: rest) =
      .ok rest := by
  obtain ⟨steps, few, skips⟩ := skipsBytes_textBytes s
  obtain ⟨spare, total⟩ : ∃ spare, (textBytes s ++ ascii '"' :: rest).length + 1 = spare + 1 + steps := by
    rw [List.length_append, List.length_cons]
    exact ⟨(textBytes s).length + rest.length + 1 - steps, by omega⟩
  rw [total, skips, skipText, if_pos rfl]

/-! ## Numbers -/

theorem dropWhile_isDigitByte (ends : endsNumber rest) : rest.dropWhile isDigitByte = rest := by
  cases rest with
  | nil => rfl
  | cons b rest =>
    have other : isDigitByte b = false := endsNumber_digit ends
    rw [List.dropWhile_cons, other]
    rfl

theorem isDigitByte_ascii {c : Char} (digit : c.isDigit) : isDigitByte (ascii c) := by
  rw [isDigitByte, digitOf?_ascii digit]
  rfl

theorem dropWhile_digits (cs : List Char) (digits : ∀ c ∈ cs, c.isDigit) (ends : endsNumber rest) :
    (encodeChars cs ++ rest).dropWhile isDigitByte = rest := by
  induction cs with
  | nil => exact dropWhile_isDigitByte ends
  | cons c cs ih =>
    obtain ⟨digit, others⟩ := List.forall_mem_cons.mp digits
    rw [encodeChars_cons, encodeChar_digit digit, List.singleton_append, List.cons_append,
      List.dropWhile_cons, if_pos (isDigitByte_ascii digit), ih others]

theorem skipNumber_of_dropWhile {b : UInt8} {tail : Input} (digit : isDigitByte b)
    (leading : ¬ (b = ascii '0' ∧ startsWithDigit tail)) (ends : endsNumber rest)
    (digits : tail.dropWhile isDigitByte = rest) : skipNumber (b :: tail) = .ok rest := by
  simp only [skipNumber, digit, Bool.not_true, Bool.false_eq_true, if_false, if_neg leading, digits]
  cases rest with
  | nil => rfl
  | cons c rest =>
    simp only [endsNumber, Bool.and_eq_true, bne_iff_ne, ne_eq] at ends
    obtain ⟨⟨⟨-, point⟩, small⟩, large⟩ := ends
    have noScale : ¬ (c = ascii 'e' ∨ c = ascii 'E') := not_or.mpr ⟨small, large⟩
    simp only [if_neg point, skipScale, if_neg noScale]

/-- The digits of a number are passed over, a zero alone as well as digits that do not start with one. -/
theorem skipNumber_toDigits (n : Nat) (ends : endsNumber rest) :
    skipNumber (encodeChars (Nat.toDigits 10 n) ++ rest) = .ok rest := by
  have areDigits : ∀ c ∈ Nat.toDigits 10 n, c.isDigit := fun c present =>
    Nat.isDigit_of_mem_toDigits (by decide) (by decide) present
  rcases Nat.eq_zero_or_pos n with rfl | positive
  · have alone : ¬ (ascii '0' = ascii '0' ∧ startsWithDigit rest) := by
      rw [endsNumber_digit ends]
      simp
    exact skipNumber_of_dropWhile (by decide) alone ends (dropWhile_isDigitByte ends)
  · obtain ⟨c, cs, digits, nonzero⟩ := toDigits_pos positive
    rw [digits] at areDigits ⊢
    obtain ⟨digit, others⟩ := List.forall_mem_cons.mp areDigits
    have bounds := digit_bounds digit
    have leading : ¬ (ascii c = ascii '0' ∧ startsWithDigit (encodeChars cs ++ rest)) := fun same =>
      nonzero (eq_of_byte_eq_ascii (by omega) (by decide) same.1)
    rw [encodeChars_cons, encodeChar_digit digit, List.singleton_append, List.cons_append]
    exact skipNumber_of_dropWhile (isDigitByte_ascii digit) leading ends
      (dropWhile_digits cs others ends)

/-! ## One step -/

section

variable {b : UInt8} {input tail next : Input} {started : Bool} {frame : Bracket}

theorem skipValue_open (start : skipSpace input = ascii '[' :: tail) :
    skipValue (fuel + 1) opened input = skipNext fuel false (.list :: opened) tail := by
  simp only [skipValue, start, if_true]

theorem skipValue_openTable (start : skipSpace input = ascii '\x7b' :: tail) :
    skipValue (fuel + 1) opened input = skipNext fuel false (.table :: opened) tail := by
  have other : ¬ ascii '\x7b' = ascii '[' := by decide
  simp only [skipValue, start, if_neg other, if_true]

theorem skipValue_scalar (start : skipSpace input = b :: tail) (noBracket : isBracket b = false)
    (skips : skipScalar b tail = .ok rest) :
    skipValue (fuel + 1) opened input = skipNext fuel true opened rest := by
  simp only [isBracket, Bool.or_eq_false_iff, beq_eq_false_iff_ne] at noBracket
  simp only [skipValue, start, if_neg noBracket.1, if_neg noBracket.2, skips]
  rfl

/-- A closing bracket is taken for the innermost open one. -/
theorem skipNext_close (start : skipSpace input = frame.close :: tail) :
    skipNext (fuel + 1) started (frame :: opened) input = skipNext fuel true opened tail := by
  simp only [skipNext, start, if_true]

/-- A container starts with its first value. -/
theorem skipNext_first (start : skipSpace input = b :: tail) (notEnd : b ≠ frame.close)
    (into : skipInto frame (b :: tail) = .ok next) :
    skipNext (fuel + 1) false (frame :: opened) input = skipValue fuel (frame :: opened) next := by
  simp only [skipNext, start, if_neg notEnd, Bool.false_eq_true, false_and, if_false, into]
  rfl

/-- A container goes on with its next value after a comma. -/
theorem skipNext_comma (start : skipSpace input = ascii ',' :: tail) (into : skipInto frame tail = .ok next) :
    skipNext (fuel + 1) true (frame :: opened) input = skipValue fuel (frame :: opened) next := by
  have notEnd : ascii ',' ≠ frame.close := by cases frame <;> decide
  simp only [skipNext, start, if_neg notEnd, ne_eq, not_true_eq_false, and_false, if_false, if_true, into]
  rfl

end

/-- Entering a member goes past its name and its colon, to its value. -/
theorem skipInto_memberBytes (name : String) (value : Json) (members : List (String × Json))
    (rest : Input) : skipInto .table (ascii '"' :: (memberBytes name value members ++ rest)) =
      .ok (value.encode ++ (membersBytes members ++ rest)) := by
  rw [skipInto, skipName, skipSpace_cons _ (by decide)]
  simp only [if_true, memberBytes, List.append_assoc, List.cons_append, skipText_textBytes]
  rfl

/-! ## Values -/

/-- The value is passed over in fewer steps than twice its bytes. -/
def Skips (j : Json) : Prop :=
  ∃ steps < 2 * j.encode.length, ∀ fuel opened rest, endsNumber rest →
    skipValue (fuel + steps) opened (j.encode ++ rest) = skipNext fuel true opened rest

private theorem skips_one_step {j : Json} {b : UInt8} {tail : Input} (text : ScalarText j b tail)
    (skips : ∀ rest, endsNumber rest → skipScalar b (tail ++ rest) = .ok rest) : Skips j := by
  refine ⟨1, ?_, fun fuel opened rest ends => ?_⟩
  · rw [text.encode_eq, List.length_cons]
    omega
  · rw [text.encode_eq, List.cons_append]
    exact skipValue_scalar (skipSpace_cons _ (opensValue_solid text.opens)) text.noBracket (skips rest ends)

private theorem skips_word {j : Json} {b : UInt8} {tail : Input} (text : ScalarText j b tail)
    (start : b ∈ [ascii 'n', ascii 't', ascii 'f']) : Skips j := by
  have others : b ≠ ascii '"' ∧ b ≠ ascii '-' ∧ ¬ isDigitByte b := by
    simp only [List.mem_cons, List.not_mem_nil, or_false] at start
    rcases start with rfl | rfl | rfl <;> decide
  obtain ⟨notQuote, notMinus, notDigit⟩ := others
  apply skips_one_step text
  intro rest ends
  rw [skipScalar, if_neg notQuote, if_neg notMinus, if_neg notDigit, text.readScalar_eq rest ends]
  rfl

private theorem skips_string {s : String} {b : UInt8} {tail : Input}
    (text : ScalarText (.string s) b tail) : Skips (.string s) := by
  obtain ⟨rfl, rfl⟩ := List.cons.inj ((encodeChars_renderText s).symm.trans text.encode_eq)
  apply skips_one_step text
  intro rest _
  rw [skipScalar, if_pos rfl, List.append_assoc]
  exact skipText_textBytes s rest

private theorem skips_integer {i : Int} {b : UInt8} {tail : Input}
    (text : ScalarText (.number (.integer i)) b tail) : Skips (.number (.integer i)) := by
  have bytes : encodeChars (renderInt i) = b :: tail := text.encode_eq
  rw [renderInt] at bytes
  apply skips_one_step text
  intro rest ends
  split_ifs at bytes with negative
  · have quote : ¬ ascii '-' = ascii '"' := by decide
    rw [encodeChars_cons, encodeChar_ascii (by decide), List.singleton_append] at bytes
    obtain ⟨rfl, rfl⟩ := List.cons.inj bytes
    rw [skipScalar, if_neg quote, if_pos rfl]
    exact skipNumber_toDigits i.natAbs ends
  · have passed := skipNumber_toDigits i.natAbs ends
    obtain ⟨c, cs, digits⟩ := List.exists_cons_of_ne_nil (Nat.toDigits_ne_nil (b := 10) (n := i.natAbs))
    have digit : c.isDigit :=
      Nat.isDigit_of_mem_toDigits (by decide) (by decide) (digits ▸ List.mem_cons_self ..)
    rw [bytes, List.cons_append] at passed
    rw [digits, encodeChars_cons, encodeChar_digit digit, List.singleton_append] at bytes
    obtain ⟨rfl, rfl⟩ := List.cons.inj bytes
    have isDigit := isDigitByte_ascii digit
    have quote : ascii c ≠ ascii '"' := fun same => absurd (same ▸ isDigit) (by decide)
    have minus : ascii c ≠ ascii '-' := fun same => absurd (same ▸ isDigit) (by decide)
    rw [skipScalar, if_neg quote, if_neg minus, if_pos isDigit]
    exact passed

private theorem skips_scalar {j : Json} (scalar : j.isScalar) (integral : j.isIntegral) : Skips j := by
  obtain ⟨b, tail, text⟩ := exists_scalarText scalar integral
  have start : j.encode.head? = some b := by rw [text.encode_eq]; rfl
  cases j with
  | null =>
    have word : Json.null.encode.head? = some (ascii 'n') := by decide
    rw [word] at start
    exact skips_word text (by rw [← Option.some.inj start]; decide)
  | bool b =>
    have word : (Json.bool b).encode.head? = some (if b then ascii 't' else ascii 'f') := by
      cases b <;> decide
    rw [word] at start
    exact skips_word text (by rw [← Option.some.inj start]; cases b <;> decide)
  | string s => exact skips_string text
  | number n =>
    cases n with
    | integer i => exact skips_integer text
    | double d => exact (Bool.false_ne_true integral).elim
  | array items => exact (Bool.false_ne_true scalar).elim
  | object members => exact (Bool.false_ne_true scalar).elim

private theorem skips_itemsBytes (each : ∀ item ∈ items, Skips item) :
    ∃ steps < 2 * (itemsBytes items).length, ∀ fuel opened rest,
      skipNext (fuel + steps) true (.list :: opened) (itemsBytes items ++ rest) =
        skipNext fuel true opened rest := by
  induction items with
  | nil => exact ⟨1, by decide, fun fuel opened rest => skipNext_close (skipSpace_cons rest (by decide))⟩
  | cons item items ih =>
    obtain ⟨first, others⟩ := List.forall_mem_cons.mp each
    obtain ⟨early, fewEarly, skipsItem⟩ := first
    obtain ⟨late, fewLate, skipsOthers⟩ := ih others
    refine ⟨late + early + 1, ?_, fun fuel opened rest => ?_⟩
    · rw [itemsBytes_cons, List.length_cons, List.length_append]
      omega
    · rw [itemsBytes_cons, List.cons_append, List.append_assoc, ← Nat.add_assoc, ← Nat.add_assoc,
        skipNext_comma (skipSpace_cons _ (by decide)) rfl,
        skipsItem _ _ _ (endsNumber_itemsBytes rest), skipsOthers]

private theorem skips_array (integral : ∀ item ∈ items, item.isIntegral)
    (each : ∀ item ∈ items, Skips item) : Skips (.array items) := by
  cases items with
  | nil =>
    refine ⟨2, by decide, fun fuel opened rest _ => ?_⟩
    rw [encode_array, List.cons_append]
    exact (skipValue_open (skipSpace_cons _ (by decide))).trans (skipNext_close (skipSpace_cons rest (by decide)))
  | cons item items =>
    obtain ⟨first, others⟩ := List.forall_mem_cons.mp each
    obtain ⟨early, fewEarly, skipsItem⟩ := first
    obtain ⟨late, fewLate, skipsOthers⟩ := skips_itemsBytes others
    obtain ⟨b, tail, bytes, opens⟩ := encode_opens (integral item (List.mem_cons_self ..))
    refine ⟨late + early + 1 + 1, ?_, fun fuel opened rest _ => ?_⟩
    · rw [encode_array, listBytes, List.length_cons, List.length_append]
      omega
    · have opening (input : Input) : skipNext (fuel + late + early + 1) false (.list :: opened)
          (item.encode ++ input) =
          skipValue (fuel + late + early) (.list :: opened) (item.encode ++ input) := by
        rw [bytes]
        exact skipNext_first (skipSpace_cons _ (opensValue_solid opens)) (opensValue_ne opens).1 rfl
      rw [encode_array, listBytes, List.cons_append, List.append_assoc, ← Nat.add_assoc,
        ← Nat.add_assoc, ← Nat.add_assoc, skipValue_open (skipSpace_cons _ (by decide)), opening,
        skipsItem _ _ _ (endsNumber_itemsBytes rest), skipsOthers]

private theorem skips_membersBytes (each : ∀ m ∈ members, Skips m.2) :
    ∃ steps < 2 * (membersBytes members).length, ∀ fuel opened rest,
      skipNext (fuel + steps) true (.table :: opened) (membersBytes members ++ rest) =
        skipNext fuel true opened rest := by
  induction members with
  | nil => exact ⟨1, by decide, fun fuel opened rest => skipNext_close (skipSpace_cons rest (by decide))⟩
  | cons m members ih =>
    obtain ⟨name, value⟩ := m
    obtain ⟨first, others⟩ := List.forall_mem_cons.mp each
    obtain ⟨early, fewEarly, skipsValue⟩ : Skips value := first
    obtain ⟨late, fewLate, skipsOthers⟩ := ih others
    refine ⟨late + early + 1, ?_, fun fuel opened rest => ?_⟩
    · rw [membersBytes_cons, List.length_cons, List.length_cons, length_memberBytes]
      omega
    · rw [membersBytes_cons, List.cons_append, List.cons_append, ← Nat.add_assoc, ← Nat.add_assoc,
        skipNext_comma (skipSpace_cons _ (by decide)) (skipInto_memberBytes name value members rest),
        skipsValue _ _ _ (endsNumber_membersBytes rest), skipsOthers]

private theorem skips_object (each : ∀ m ∈ members, Skips m.2) : Skips (.object members) := by
  cases members with
  | nil =>
    refine ⟨2, by decide, fun fuel opened rest _ => ?_⟩
    rw [encode_object, List.cons_append]
    exact (skipValue_openTable (skipSpace_cons _ (by decide))).trans
      (skipNext_close (skipSpace_cons rest (by decide)))
  | cons m members =>
    obtain ⟨name, value⟩ := m
    obtain ⟨first, others⟩ := List.forall_mem_cons.mp each
    obtain ⟨early, fewEarly, skipsValue⟩ : Skips value := first
    obtain ⟨late, fewLate, skipsOthers⟩ := skips_membersBytes others
    refine ⟨late + early + 1 + 1, ?_, fun fuel opened rest _ => ?_⟩
    · rw [encode_object, tableBytes, List.length_cons, List.length_cons, length_memberBytes]
      omega
    · rw [encode_object, tableBytes, List.cons_append, List.cons_append, ← Nat.add_assoc,
        ← Nat.add_assoc, ← Nat.add_assoc, skipValue_openTable (skipSpace_cons _ (by decide)),
        skipNext_first (skipSpace_cons _ (by decide)) (by decide)
          (skipInto_memberBytes name value members rest),
        skipsValue _ _ _ (endsNumber_membersBytes rest), skipsOthers]

/-- A value with integers of 64 bits for its numbers is passed over. -/
theorem skips (j : Json) (integral : j.isIntegral) : Skips j := by
  induction j using parts_induction with
  | null | bool b | number n | string s => exact skips_scalar rfl integral
  | array items ih =>
    rw [isIntegral_array] at integral
    exact skips_array integral fun item present => ih item present (integral item present)
  | object members ih =>
    rw [isIntegral_object] at integral
    exact skips_object fun m present => ih m present (integral m present)

/-- Outside of every container nothing is passed over but the value. -/
theorem skipValue_encode {j : Json} (integral : j.isIntegral) (enough : 2 * j.encode.length ≤ fuel)
    (ends : endsNumber rest) : skipValue fuel [] (j.encode ++ rest) = .ok rest := by
  obtain ⟨steps, few, passes⟩ := skips j integral
  obtain ⟨spare, rfl⟩ : ∃ spare, fuel = spare + 1 + steps := ⟨fuel - steps - 1, by omega⟩
  rw [passes _ _ _ ends, skipNext]

end Tenancy.Json
