import Mathlib.Data.List.TakeWhile
import Tenancy.Proofs.Json.Reading
import Tenancy.Proofs.Json.Spelling

/-! # What a reader has taken

A reader works on bytes. On the bytes of a text it takes whole characters: what is left are the bytes of the
rest of the text, and what was taken spells what was read. This is shown here for blanks, words and strings. -/

namespace Tenancy.Json

open Text.Utf8

variable {cs : List Char} {rest : Input} {c : Char} {b : UInt8}

/-! ## Characters of one byte -/

/-- A byte of ASCII at the front of a text is its first character. -/
theorem encodeChars_eq_cons (narrow : b.toNat < 0x80) (front : encodeChars cs = b :: rest) :
    ∃ c cs', cs = c :: cs' ∧ ascii c = b ∧ c.toNat = b.toNat ∧ rest = encodeChars cs' := by
  cases cs with
  | nil => cases front
  | cons c cs' =>
    rw [encodeChars_cons] at front
    have single : c.toNat < 0x80 := by
      by_contra wide
      obtain ⟨a, tail, bytes⟩ := List.exists_cons_of_length_pos (length_encodeChar_pos c)
      rw [bytes, List.cons_append] at front
      obtain ⟨rfl, -⟩ := List.cons.inj front
      exact absurd (le_toNat_of_mem_encodeChar (Nat.not_lt.mp wide) (bytes ▸ List.mem_cons_self ..))
        (Nat.not_le.mpr narrow)
    rw [encodeChar_ascii single, List.singleton_append] at front
    obtain ⟨rfl, rfl⟩ := List.cons.inj front
    exact ⟨c, cs', rfl, rfl, (byte_toNat (by omega)).symm, rfl⟩

theorem encodeChars_eq_ascii_cons (narrow : c.toNat < 0x80) (front : encodeChars cs = ascii c :: rest) :
    ∃ cs', cs = c :: cs' ∧ rest = encodeChars cs' := by
  have number : (ascii c).toNat = c.toNat := byte_toNat (by omega)
  obtain ⟨d, cs', rfl, -, same, rfl⟩ := encodeChars_eq_cons (by omega) front
  rw [number] at same
  exact ⟨cs', by rw [Char.toNat_inj.mp same], rfl⟩

/-- What was taken off the front are bytes of ASCII. -/
def Passed (input rest : Input) : Prop := ∃ taken, (∀ b ∈ taken, b.toNat < 0x80) ∧ input = taken ++ rest

namespace Passed

theorem refl (input : Input) : Passed input input := ⟨[], List.forall_mem_nil _, rfl⟩

theorem cons (narrow : b.toNat < 0x80) {input : Input} (later : Passed input rest) :
    Passed (b :: input) rest := by
  obtain ⟨taken, all, rfl⟩ := later
  exact ⟨b :: taken, List.forall_mem_cons.mpr ⟨narrow, all⟩, rfl⟩

theorem trans {input middle : Input} (first : Passed input middle) (later : Passed middle rest) :
    Passed input rest := by
  obtain ⟨taken, all, rfl⟩ := first
  obtain ⟨more, others, rfl⟩ := later
  exact ⟨taken ++ more, List.forall_mem_append.mpr ⟨all, others⟩, (List.append_assoc ..).symm⟩

theorem dropWhile {p : UInt8 → Bool} (narrow : ∀ b, p b → b.toNat < 0x80) (input : Input) :
    Passed input (input.dropWhile p) := by
  refine ⟨input.takeWhile p, fun b present => narrow b ?_, List.takeWhile_append_dropWhile.symm⟩
  exact List.mem_takeWhile_imp present

/-- Bytes of ASCII at the front of a text are characters of it. -/
theorem chars (passed : Passed (encodeChars cs) rest) : ∃ ds cs', cs = ds ++ cs' ∧ rest = encodeChars cs' := by
  obtain ⟨taken, all, front⟩ := passed
  induction taken generalizing cs with
  | nil => exact ⟨[], cs, rfl, front.symm⟩
  | cons b taken ih =>
    rw [List.forall_mem_cons] at all
    obtain ⟨c, cs', rfl, -, -, others⟩ := encodeChars_eq_cons all.1 front
    obtain ⟨ds, last, rfl, left⟩ := ih all.2 others.symm
    exact ⟨c :: ds, last, rfl, left⟩

end Passed

/-! ## Blanks and words -/

theorem isSpace_narrow (space : isSpace b) : b.toNat < 0x80 := by
  simp only [isSpace, Bool.or_eq_true, beq_iff_eq] at space
  rcases space with ((rfl | rfl) | rfl) | rfl <;> decide

/-- A narrow character is white space for the reader exactly when it is a blank. -/
theorem isSpace_ascii (narrow : c.toNat < 0x80) : isSpace (ascii c) = isGapChar c := by
  have number : (ascii c).toNat = c.toNat := byte_toNat (by omega)
  have as (n : UInt8) (d : Char) (same : n.toNat = d.toNat) : (ascii c == n) = (c == d) := by
    rw [Bool.eq_iff_iff, beq_iff_eq, beq_iff_eq, ← UInt8.toNat_inj, ← Char.toNat_inj, number, same]
  rw [isSpace, isGapChar, as 0x20 ' ' rfl, as 0x09 '\t' rfl, as 0x0A '\n' rfl, as 0x0D '\r' rfl]

theorem isGapChar_narrow (blank : isGapChar c) : c.toNat < 0x80 := by
  simp only [isGapChar, Bool.or_eq_true, beq_iff_eq] at blank
  rcases blank with ((rfl | rfl) | rfl) | rfl <;> decide

theorem skipSpace_blank (blank : isGapChar c) :
    skipSpace (encodeChars (c :: cs)) = skipSpace (encodeChars cs) := by
  have narrow := isGapChar_narrow blank
  rw [encodeChars_cons, encodeChar_ascii narrow, List.singleton_append, skipSpace, List.dropWhile_cons,
    isSpace_ascii narrow, if_pos blank, skipSpace]

theorem skipSpace_solid (solid : isGapChar c = false) :
    skipSpace (encodeChars (c :: cs)) = encodeChars (c :: cs) := by
  obtain ⟨b, tail, bytes⟩ := List.exists_cons_of_length_pos (length_encodeChar_pos c)
  rw [encodeChars_cons, bytes, List.cons_append]
  apply skipSpace_cons
  by_contra space
  rw [Bool.not_eq_false] at space
  have present : b ∈ encodeChar c := bytes ▸ List.mem_cons_self ..
  by_cases narrow : c.toNat < 0x80
  · rw [encodeChar_ascii narrow, List.mem_singleton] at present
    rw [present, isSpace_ascii narrow, solid] at space
    cases space
  · exact absurd (isSpace_narrow space)
      (Nat.not_lt.mpr (le_toNat_of_mem_encodeChar (Nat.not_lt.mp narrow) present))

/-- The blanks at the front of a text. -/
theorem exists_gap (cs : List Char) :
    ∃ (gap : Blanks) (cs' : List Char), cs = gap.chars ++ cs' ∧ skipSpace (encodeChars cs) = encodeChars cs' := by
  induction cs with
  | nil => exact ⟨⟨[], List.forall_mem_nil _⟩, [], rfl, rfl⟩
  | cons c cs ih =>
    by_cases blank : isGapChar c
    · obtain ⟨⟨gap, all⟩, cs', rfl, left⟩ := ih
      exact ⟨⟨c :: gap, List.forall_mem_cons.mpr ⟨blank, all⟩⟩, cs', rfl, (skipSpace_blank blank).trans left⟩
    · exact ⟨⟨[], List.forall_mem_nil _⟩, c :: cs, rfl, skipSpace_solid (Bool.not_eq_true _ ▸ blank)⟩

/-- The blanks in front of a byte that was found. -/
theorem skipSpace_eq_cons (narrow : c.toNat < 0x80) (found : skipSpace (encodeChars cs) = ascii c :: rest) :
    ∃ (gap : Blanks) (cs' : List Char), cs = gap.chars ++ c :: cs' ∧ rest = encodeChars cs' := by
  obtain ⟨gap, cs', rfl, left⟩ := exists_gap cs
  obtain ⟨last, rfl, same⟩ := encodeChars_eq_ascii_cons narrow (left.symm.trans found)
  exact ⟨gap, last, rfl, same⟩

/-- A word that was read stands at the front of the text. -/
theorem readWord_eq_ok (word : List Char) (narrow : word.all (·.toNat < 0x80))
    (found : readWord (word.map ascii) (encodeChars cs) = .ok rest) :
    ∃ cs', cs = word ++ cs' ∧ rest = encodeChars cs' := by
  induction word generalizing cs with
  | nil => exact ⟨cs, rfl, (Except.ok.inj found).symm⟩
  | cons w word ih =>
    rw [List.all_cons, Bool.and_eq_true, decide_eq_true_eq] at narrow
    rw [List.map_cons] at found
    cases front : encodeChars cs with
    | nil =>
      rw [front, readWord] at found
      exact absurd found stop_ne_ok
    | cons b bytes =>
      rw [front, readWord] at found
      split_ifs at found with same
      · subst same
        obtain ⟨cs', rfl, rfl⟩ := encodeChars_eq_ascii_cons narrow.1 front
        obtain ⟨last, rfl, left⟩ := ih narrow.2 found
        exact ⟨last, rfl, left⟩
      · exact absurd found stop_ne_ok

/-! ## Strings -/

theorem hexDigit?_narrow {d : Nat} (digit : hexDigit? b = some d) : b.toNat < 0x80 ∧ d < 0x10 := by
  simp only [hexDigit?] at digit
  split_ifs at digit <;> cases digit <;> omega

/-- The reader of the bytes and that of the characters agree on a hexadecimal digit. -/
theorem hexDigit?_ascii {d : Nat} (narrow : c.toNat < 0x80) (digit : hexDigit? (ascii c) = some d) :
    Text.digitValue? 16 c = some d := by
  have number : (ascii c).toNat = c.toNat := byte_toNat (by omega)
  have le (a z : Char) : a ≤ z ↔ a.toNat ≤ z.toNat := Iff.rfl
  simp only [hexDigit?, number] at digit
  simp only [Text.digitValue?, le]
  have values : '0'.toNat = 0x30 ∧ '9'.toNat = 0x39 ∧ 'a'.toNat = 0x61 ∧ 'z'.toNat = 0x7A ∧
      'A'.toNat = 0x41 ∧ 'Z'.toNat = 0x5A := by decide
  obtain ⟨v0, v9, va, vz, vA, vZ⟩ := values
  rw [v0, v9, va, vz, vA, vZ]
  split_ifs at digit <;> cases digit
  · rw [if_pos (by omega), Option.filter_some_pos (by simp; omega)]
  · rw [if_neg (by omega), if_neg (by omega), if_pos (by omega), Option.filter_some_pos (by simp; omega)]
  · rw [if_neg (by omega), if_pos (by omega), Option.filter_some_pos (by simp; omega)]

theorem hexQuad?_ascii {a b c d : Char} {n : Nat}
    (narrow : ∀ x ∈ [a, b, c, d], x.toNat < 0x80)
    (found : hexQuad? (ascii a) (ascii b) (ascii c) (ascii d) = some n) :
    Text.number? 16 [a, b, c, d] = some n := by
  simp only [List.forall_mem_cons] at narrow
  simp only [hexQuad?, Option.bind_eq_bind, Option.bind_eq_some_iff, Option.pure_def,
    Option.some.injEq] at found
  obtain ⟨x, hx, y, hy, z, hz, w, hw, rfl⟩ := found
  have hx := hexDigit?_ascii narrow.1 hx
  have hy := hexDigit?_ascii narrow.2.1 hy
  have hz := hexDigit?_ascii narrow.2.2.1 hz
  have hw := hexDigit?_ascii narrow.2.2.2.1 hw
  simp [Text.number?, Text.digitsValue, hx, hy, hz, hw]

/-- Four hexadecimal digits that were read, and their number. -/
theorem readQuad_eq_ok {n : Nat} (found : readQuad (encodeChars cs) = .ok (n, rest)) :
    ∃ digits cs', cs = digits ++ cs' ∧ rest = encodeChars cs' ∧ digits.length = 4 ∧
      Text.number? 16 digits = some n ∧ n < 0x10000 := by
  rw [readQuad.eq_def] at found
  split at found
  case h_2 => exact absurd found stop_ne_ok
  case h_1 a b c d tail front =>
    split at found
    case h_2 => exact absurd found stop_ne_ok
    case h_1 m quad =>
      cases found
      have digits := quad
      simp only [hexQuad?, Option.bind_eq_bind, Option.bind_eq_some_iff, Option.pure_def,
        Option.some.injEq] at digits
      obtain ⟨x, hx, y, hy, z, hz, w, hw, total⟩ := digits
      have bx := hexDigit?_narrow hx
      have by_ := hexDigit?_narrow hy
      have bz := hexDigit?_narrow hz
      have bw := hexDigit?_narrow hw
      obtain ⟨a, cs, rfl, rfl, na, left⟩ := encodeChars_eq_cons bx.1 front
      obtain ⟨b, cs, rfl, rfl, nb, left⟩ := encodeChars_eq_cons by_.1 left.symm
      obtain ⟨c, cs, rfl, rfl, nc, left⟩ := encodeChars_eq_cons bz.1 left.symm
      obtain ⟨d, cs, rfl, rfl, nd, left⟩ := encodeChars_eq_cons bw.1 left.symm
      refine ⟨[a, b, c, d], cs, rfl, left, rfl, hexQuad?_ascii ?_ quad, by omega⟩
      simp only [List.forall_mem_cons, na, nb, nc, nd]
      exact ⟨bx.1, by_.1, bz.1, bw.1, List.forall_mem_nil _⟩

theorem toNat_ofNat {n : Nat} (valid : n.isValidChar) : (Char.ofNat n).toNat = n := by
  rw [Char.ofNat, dif_pos valid]
  rfl

/-- The second half of a surrogate pair that was read. -/
theorem readTrailing_eq_ok {high : Nat} (found : readTrailing high (encodeChars cs) = .ok (c, rest)) :
    ∃ digits cs', cs = '\\' :: 'u' :: (digits ++ cs') ∧ rest = encodeChars cs' := by
  rw [readTrailing.eq_def] at found
  cases front : encodeChars cs with
  | nil =>
    rw [front] at found
    exact absurd found stop_ne_ok
  | cons a tail =>
    rw [front] at found
    dsimp only at found
    split_ifs at found with other
    · exact absurd found stop_ne_ok
    rw [not_not] at other
    subst other
    obtain ⟨cs, rfl, rfl⟩ := encodeChars_eq_ascii_cons (by decide) front
    cases front : encodeChars cs with
    | nil =>
      rw [front] at found
      exact absurd found stop_ne_ok
    | cons u tail =>
      rw [front] at found
      dsimp only at found
      split_ifs at found with other
      · exact absurd found stop_ne_ok
      rw [not_not] at other
      subst other
      obtain ⟨cs, rfl, rfl⟩ := encodeChars_eq_ascii_cons (by decide) front
      obtain ⟨⟨n, left⟩, quad, found⟩ := bind_eq_ok.mp found
      obtain ⟨digits, cs, rfl, rfl, -⟩ := readQuad_eq_ok quad
      dsimp only at found
      split_ifs at found with trailing
      · obtain ⟨-, rfl⟩ := Prod.mk.inj (Except.ok.inj found)
        exact ⟨digits, cs, rfl, rfl⟩
      · exact absurd found stop_ne_ok

/-- An escape by number that was read. -/
theorem readNumbered_eq_ok (found : readNumbered (encodeChars cs) = .ok (c, rest)) :
    ∃ (piece : Piece) (cs' : List Char), '\\' :: 'u' :: cs = piece.chars ++ cs' ∧ rest = encodeChars cs' ∧
      piece.char = c := by
  rw [readNumbered] at found
  obtain ⟨⟨n, left⟩, quad, found⟩ := bind_eq_ok.mp found
  obtain ⟨digits, cs, rfl, rfl, four, number, small⟩ := readQuad_eq_ok quad
  dsimp only at found
  split_ifs at found with trailing leading
  · exact absurd found stop_ne_ok
  · obtain ⟨low, cs, rfl, rfl⟩ := readTrailing_eq_ok found
    exact ⟨.paired digits low c, cs, by simp [Piece.chars], rfl, rfl⟩
  · cases found
    have valid : n.isValidChar := by
      simp only [isTrailing, isLeading, Bool.and_eq_true, decide_eq_true_eq] at trailing leading
      rw [Nat.isValidChar]
      omega
    exact ⟨.numbered digits (Char.ofNat n) four (by rw [toNat_ofNat valid, number]), cs, rfl, rfl, rfl⟩

/-- An escape that was read. -/
theorem readEscape_eq_ok (found : readEscape (encodeChars cs) = .ok (c, rest)) :
    ∃ (piece : Piece) (cs' : List Char), '\\' :: cs = piece.chars ++ cs' ∧ rest = encodeChars cs' ∧
      piece.char = c := by
  cases front : encodeChars cs with
  | nil =>
    rw [front, readEscape] at found
    exact absurd found stop_ne_ok
  | cons b tail =>
    rw [front, readEscape] at found
    cases known : shortEscape? b with
    | some d =>
      rw [known] at found
      cases found
      have letter : ∃ l, l.toNat < 0x80 ∧ b = ascii l ∧ (l, c) ∈ shortEscapes := by
        simp only [shortEscape?] at known
        split_ifs at known with h h h h h h h h <;> cases known
        all_goals exact ⟨_, by decide, h, by decide⟩
      obtain ⟨l, narrow, rfl, means⟩ := letter
      obtain ⟨cs, rfl, rfl⟩ := encodeChars_eq_ascii_cons narrow front
      exact ⟨.short l c means, cs, rfl, rfl, rfl⟩
    | none =>
      rw [known] at found
      dsimp only at found
      split_ifs at found with numbered
      · subst numbered
        obtain ⟨cs, rfl, rfl⟩ := encodeChars_eq_ascii_cons (by decide) front
        exact readNumbered_eq_ok found
      · exact absurd found stop_ne_ok

/-- A character is told from a quote, a backslash and a control by its first byte. -/
theorem ordinary_of_front (front : encodeChars (c :: cs) = b :: rest) (quote : b ≠ ascii '"')
    (backslash : b ≠ ascii '\\') (visible : ¬ b.toNat < 0x20) : c ≠ '"' ∧ c ≠ '\\' ∧ 0x20 ≤ c.toNat := by
  by_cases narrow : c.toNat < 0x80
  · rw [encodeChars_cons, encodeChar_ascii narrow, List.singleton_append] at front
    obtain ⟨rfl, -⟩ := List.cons.inj front
    have number : (ascii c).toNat = c.toNat := byte_toNat (by omega)
    refine ⟨?_, ?_, by omega⟩
    · rintro rfl
      exact quote rfl
    · rintro rfl
      exact backslash rfl
  · refine ⟨?_, ?_, by omega⟩
    · rintro rfl
      exact narrow (by decide)
    · rintro rfl
      exact narrow (by decide)

/-- A string that was read stands in the text with its closing quote, piece by piece. -/
theorem scanText_eq_ok {fuel : Nat} {read : List Char} {s : String}
    (found : scanText fuel read none (encodeChars cs) = .ok (s, rest)) :
    ∃ (pieces : List Piece) (cs' : List Char), cs = pieces.flatMap Piece.chars ++ '"' :: cs' ∧
      rest = encodeChars cs' ∧ s = String.ofList (read.reverse ++ pieces.map Piece.char) := by
  induction fuel generalizing cs read with
  | zero =>
    rw [scanText] at found
    exact absurd found stop_ne_ok
  | succ fuel ih =>
    cases front : encodeChars cs with
    | nil =>
      rw [front, scanText] at found
      exact absurd found stop_ne_ok
    | cons b tail =>
      rw [front, scanText] at found
      split_ifs at found with quote backslash control
      · subst quote
        obtain ⟨cs, rfl, rfl⟩ := encodeChars_eq_ascii_cons (by decide) front
        cases found
        exact ⟨[], cs, rfl, rfl, by simp⟩
      · subst backslash
        obtain ⟨cs, rfl, rfl⟩ := encodeChars_eq_ascii_cons (by decide) front
        obtain ⟨⟨c, left⟩, escape, found⟩ := bind_eq_ok.mp found
        obtain ⟨piece, cs, taken, rfl, rfl⟩ := readEscape_eq_ok escape
        obtain ⟨pieces, last, rfl, rfl, rfl⟩ := ih found
        refine ⟨piece :: pieces, last, ?_, rfl, ?_⟩
        · rw [List.flatMap_cons, List.append_assoc, ← taken]
        · simp
      · exact absurd found stop_ne_ok
      · cases cs with
        | nil => cases front
        | cons c cs =>
          have whole := decodeChar?_encodeChar c (encodeChars cs)
          rw [← encodeChars_cons, front] at whole
          rw [whole] at found
          obtain ⟨pieces, last, rfl, rfl, rfl⟩ := ih found
          exact ⟨.plain c (ordinary_of_front front quote backslash control) :: pieces, last, rfl, rfl,
            by simp [Piece.char]⟩

/-- A string that reads is made of pieces up to a closing quote, and reads as the characters of those pieces. -/
theorem readText_eq_ok {s : String} (found : readText (encodeChars cs) = .ok (s, rest)) :
    ∃ (pieces : List Piece) (cs' : List Char), cs = pieces.flatMap Piece.chars ++ '"' :: cs' ∧
      rest = encodeChars cs' ∧ s = meant pieces :=
  scanText_eq_ok found

end Tenancy.Json
