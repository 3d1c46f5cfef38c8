import Mathlib.Data.List.TakeWhile
import Tenancy.Proofs.Yaml.Gap

/-! # Strings in double quotes

A string of a JSON text is a scalar in double quotes that means the same, except where a character is written as
the two halves of a surrogate pair, which is no escape here, or stands for itself though it ends a line.
-/

namespace Tenancy.Yaml

open Json (Piece quoted meant)

variable {pieces : List Piece} {piece : Piece} {rest : List Char} {m start : Mark} {fuel : Nat}

/-- The place some characters further on the line. -/
def Mark.along (m : Mark) (n : Nat) : Mark := ⟨m.index + n, m.line, m.column + n⟩

theorem Mark.along_along (m : Mark) (n k : Nat) : (m.along n).along k = m.along (n + k) := by
  simp only [along, Nat.add_assoc]

theorem Cursor.skip_cons (x : Char) : (Cursor.skip ⟨x :: rest, m⟩) = ⟨rest, m.along 1⟩ := rfl

/-- Whether a piece of a string is read here as in a JSON text. -/
def isPortable : Piece → Bool
  | .plain c _ => !isBreak c
  | .paired _ _ _ => false
  | _ => true

/-- Whether a piece of a string is a space that stands for itself. -/
def isSpace : Piece → Bool
  | .plain c _ => c == ' '
  | _ => false

/-- The short escapes mean the same in both formats. -/
theorem escape?_of_known {letter c : Char} (known : (letter, c) ∈ Json.shortEscapes) :
    escape? letter = some c ∧ isBreak letter = false := by
  have all : ∀ e ∈ Json.shortEscapes, escape? e.1 = some e.2 ∧ isBreak e.1 = false := by decide
  exact all _ known

/-- A character that stands for itself is taken as it is. -/
theorem takeQuotedWord_ordinary {x : Char} (ordinary : x ≠ '"' ∧ x ≠ '\\' ∧ 0x20 ≤ x.toNat)
    (word : (isBlank x || isBreak x) = false) : takeQuotedWord '"' start (fuel + 1) ⟨x :: rest, m⟩ =
      (takeQuotedWord '"' start fuel ⟨rest, m.along 1⟩).map fun r => (x :: r.1, r.2) := by
  obtain ⟨quote, backslash, -⟩ := ordinary
  simp only [takeQuotedWord, Cursor.next?, List.head?_cons, word, Bool.false_eq_true, if_false, quote, backslash,
    and_false, Cursor.skip_cons]
  cases takeQuotedWord '"' start fuel ⟨rest, m.along 1⟩ <;> rfl

/-- An escape is taken whole. -/
theorem takeQuotedWord_escape {x c : Char} {after : Cursor} (inLine : isBreak x = false)
    (escape : takeEscape start ⟨'\\' :: x :: rest, m⟩ = .ok (c, after)) :
    takeQuotedWord '"' start (fuel + 1) ⟨'\\' :: x :: rest, m⟩ =
      (takeQuotedWord '"' start fuel after).map fun r => (c :: r.1, r.2) := by
  have solid : (isBlank '\\' || isBreak '\\') = false := by decide
  have noQuote : '\\' ≠ '"' := by decide
  have single : '"' ≠ '\'' := by decide
  simp only [takeQuotedWord, Cursor.next?, List.head?_cons, solid, Bool.false_eq_true, if_false, noQuote,
    and_self, if_true, Cursor.ahead?, List.getElem?_cons_succ, List.getElem?_cons_zero, Option.any_some, inLine,
    escape, bind, Except.bind]
  cases takeQuotedWord '"' start fuel after <;> rfl

theorem takeEscape_short {letter c : Char} (known : (letter, c) ∈ Json.shortEscapes) :
    takeEscape start ⟨'\\' :: letter :: rest, m⟩ = .ok (c, ⟨rest, m.along 2⟩) := by
  simp only [takeEscape, Cursor.ahead?, List.getElem?_cons_succ, List.getElem?_cons_zero,
    (escape?_of_known known).1]
  rfl

/-- An escape by number is taken as the character it numbers. -/
theorem takeEscape_numbered {digits : List Char} {c : Char} (four : digits.length = 4)
    (number : Text.number? 16 digits = some c.toNat) :
    takeEscape start ⟨'\\' :: 'u' :: (digits ++ rest), m⟩ = .ok (c, ⟨rest, m.along 6⟩) := by
  have hex : hexNumber? 4 (digits ++ rest) = some c.toNat := by
    rw [hexNumber?, List.take_left' four, if_pos four, number]
  have valid : c.toNat.isValidChar := c.valid
  have letter : escape? 'u' = none ∧ escapeLength? 'u' = some 4 := by decide
  simp only [takeEscape, Cursor.ahead?, List.getElem?_cons_succ, List.getElem?_cons_zero, letter,
    Cursor.skipMany, List.drop_succ_cons, List.drop_zero, hex, if_pos valid, Char.ofNat_toNat]
  rw [List.drop_left' four]
  rfl

/-- An ordinary piece that is no space is neither blank nor a line break. -/
theorem solid_of_ordinary {c : Char} (ordinary : c ≠ '"' ∧ c ≠ '\\' ∧ 0x20 ≤ c.toNat)
    (portable : isPortable (.plain c ordinary)) (word : isSpace (.plain c ordinary) = false) :
    (isBlank c || isBreak c) = false := by
  have tab : c ≠ '\t' := by
    rintro rfl
    exact absurd ordinary.2.2 (by decide)
  rw [isSpace, beq_eq_false_iff_ne] at word
  rw [isPortable, Bool.not_eq_true'] at portable
  simp [isBlank, word, tab, portable]

/-- One piece of a word is taken in one step. -/
theorem takeQuotedWord_piece (portable : isPortable piece) (word : isSpace piece = false) :
    takeQuotedWord '"' start (fuel + 1) ⟨piece.chars ++ rest, m⟩ =
      (takeQuotedWord '"' start fuel ⟨rest, m.along piece.chars.length⟩).map
        fun r => (piece.char :: r.1, r.2) := by
  cases piece with
  | plain c ordinary => exact takeQuotedWord_ordinary ordinary (solid_of_ordinary ordinary portable word)
  | short letter c known =>
    exact takeQuotedWord_escape (escape?_of_known known).2 (takeEscape_short known)
  | numbered digits c four number =>
    have length : (Piece.numbered digits c four number).chars.length = 6 := by simp [Piece.chars, four]
    rw [length]
    exact takeQuotedWord_escape (by decide) (takeEscape_numbered four number)
  | paired high low c => cases portable

theorem length_chars_pos (piece : Piece) : 0 < piece.chars.length := by
  cases piece <;> simp [Piece.chars]

theorem length_le_length_flatMap (pieces : List Piece) :
    pieces.length ≤ (pieces.flatMap Piece.chars).length := by
  induction pieces with
  | nil => exact Nat.le_refl _
  | cons piece pieces ih =>
    have first := length_chars_pos piece
    rw [List.length_cons, List.flatMap_cons, List.length_append]
    omega

/-- A word ends at the closing quote or at a space. -/
theorem takeQuotedWord_pieces (portable : ∀ p ∈ pieces, isPortable p) (word : ∀ p ∈ pieces, isSpace p = false)
    (enough : pieces.length < fuel) {x : Char} (ends : x = '"' ∨ x = ' ') :
    takeQuotedWord '"' start fuel ⟨pieces.flatMap Piece.chars ++ x :: rest, m⟩ =
      .ok (pieces.map Piece.char, false, ⟨x :: rest, m.along (pieces.flatMap Piece.chars).length⟩) := by
  induction pieces generalizing fuel m with
  | nil =>
    obtain ⟨fuel, rfl⟩ := Nat.exists_eq_succ_of_ne_zero (Nat.ne_of_gt (Nat.zero_lt_of_lt enough))
    rcases ends with rfl | rfl <;> rfl
  | cons piece pieces ih =>
    obtain ⟨fuel, rfl⟩ := Nat.exists_eq_succ_of_ne_zero (Nat.ne_of_gt (Nat.zero_lt_of_lt enough))
    rw [List.forall_mem_cons] at portable word
    rw [List.flatMap_cons, List.append_assoc, takeQuotedWord_piece portable.1 word.1,
      ih portable.2 word.2 (Nat.lt_of_succ_lt_succ enough), List.length_append, ← Mark.along_along]
    rfl

/-- Spaces are kept as they are. -/
theorem takeSpacing_spaces (n : Nat) (enough : n < fuel) {x : Char} (solid : (isBlank x || isBreak x) = false)
    (blanks : List Char) :
    takeSpacing 0 fuel { blanks } ⟨List.replicate n ' ' ++ x :: rest, m⟩ =
      .ok ({ blanks := blanks ++ List.replicate n ' ' }, ⟨x :: rest, m.along n⟩) := by
  rw [Bool.or_eq_false_iff] at solid
  induction n generalizing fuel m blanks with
  | zero =>
    obtain ⟨fuel, rfl⟩ := Nat.exists_eq_succ_of_ne_zero (Nat.ne_of_gt enough)
    rw [List.replicate_zero, List.append_nil, List.nil_append, takeSpacing]
    simp only [Cursor.next?, List.head?_cons, solid, Bool.false_eq_true, if_false]
    rfl
  | succ n ih =>
    obtain ⟨fuel, rfl⟩ := Nat.exists_eq_succ_of_ne_zero (Nat.ne_of_gt (Nat.zero_lt_of_lt enough))
    have space : isBlank ' ' = true := by decide
    rw [List.replicate_succ, List.cons_append, takeSpacing]
    simp only [Cursor.next?, List.head?_cons, space, if_true, Bool.false_eq_true, false_and, if_false,
      Cursor.skip_cons]
    rw [ih (Nat.lt_of_succ_lt_succ enough), Mark.along_along, Nat.add_comm 1 n, List.append_assoc,
      List.singleton_append]

/-- Pieces that are spaces stand for themselves. -/
theorem chars_of_isSpace (spaces : ∀ p ∈ pieces, isSpace p) :
    pieces.flatMap Piece.chars = List.replicate pieces.length ' ' ∧
      pieces.map Piece.char = List.replicate pieces.length ' ' := by
  induction pieces with
  | nil => exact ⟨rfl, rfl⟩
  | cons piece pieces ih =>
    rw [List.forall_mem_cons] at spaces
    obtain ⟨chars, meant⟩ := ih spaces.2
    have single : piece.chars = [' '] ∧ piece.char = ' ' := by
      cases piece with
      | plain c ordinary =>
        have space : c = ' ' := beq_iff_eq.mp spaces.1
        rw [Piece.chars, Piece.char, space]
        exact ⟨rfl, rfl⟩
      | _ => cases spaces.1
    rw [List.flatMap_cons, List.map_cons, chars, meant, single.1, single.2]
    exact ⟨rfl, rfl⟩

/-- A word starts with neither a blank nor a line break, and neither does the closing quote. -/
theorem solid_front (portable : ∀ p ∈ pieces, isPortable p) (word : ∀ p ∈ pieces.head?, isSpace p = false) :
    ∃ x tail, pieces.flatMap Piece.chars ++ '"' :: rest = x :: tail ∧ (isBlank x || isBreak x) = false := by
  cases pieces with
  | nil => exact ⟨'"', rest, rfl, by decide⟩
  | cons piece pieces =>
    have word := word piece rfl
    rw [List.forall_mem_cons] at portable
    rw [List.flatMap_cons, List.append_assoc]
    cases piece with
    | plain c ordinary => exact ⟨c, _, rfl, solid_of_ordinary ordinary portable.1 word⟩
    | short | numbered | paired => exact ⟨'\\', _, rfl, by decide⟩

/-- The longest front of a list whose elements have a property. -/
theorem exists_span {α : Type} (p : α → Bool) (l : List α) :
    ∃ front back, l = front ++ back ∧ (∀ x ∈ front, p x) ∧ ∀ x ∈ back.head?, p x = false := by
  refine ⟨l.takeWhile p, l.dropWhile p, List.takeWhile_append_dropWhile.symm,
    fun x among => List.mem_takeWhile_imp among, fun x first => ?_⟩
  have stops := List.head?_dropWhile_not p l
  rwa [Option.mem_def.mp first] at stops

theorem takeQuotedContent_eq_def {c : Cursor} (inLine : 0 < c.mark.column) (more : c.rest ≠ []) :
    takeQuotedContent '"' start (fuel + 1) c = (do
      let (word, broken, c) ← takeQuotedWord '"' start (fuel + 1) c
      if c.isAt '"' then return (word, c.skip)
      else
        match takeSpacing 0 (fuel + 1) { broken } c with
        | .error c => .error (c.problem .tabInIndentation .quotedScalar start)
        | .ok (spacing, c) =>
          let (text, c) ← takeQuotedContent '"' start fuel c
          return (word ++ spacing.text ++ text, c)) := by
  have column : (c.mark.column == 0) = false := by simpa using Nat.ne_of_gt inLine
  have noMark : ¬ c.atAnyDocumentMark = true := by
    simp [Cursor.atAnyDocumentMark, Cursor.atDocumentMark, column]
  have notEnd : ¬ c.atEnd = true := by simpa [Cursor.atEnd] using more
  rw [takeQuotedContent, if_neg noMark]
  exact if_neg notEnd

/-- The content of a string up to and with its closing quote: words with spaces between them. The induction is on
a bound for the number of pieces. -/
theorem takeQuotedContent_pieces (n : Nat) : ∀ {pieces : List Piece} {fuel : Nat} {m : Mark}, pieces.length < n →
    pieces.length + 1 < fuel → 0 < m.column → (∀ p ∈ pieces, isPortable p) →
    takeQuotedContent '"' start fuel ⟨pieces.flatMap Piece.chars ++ '"' :: rest, m⟩ =
      .ok (pieces.map Piece.char, ⟨rest, m.along ((pieces.flatMap Piece.chars).length + 1)⟩) := by
  induction n with
  | zero => exact fun few => absurd few (Nat.not_lt_zero _)
  | succ n ih =>
    intro pieces fuel m few enough inLine portable
    obtain ⟨fuel, rfl⟩ := Nat.exists_eq_succ_of_ne_zero (Nat.ne_of_gt (Nat.zero_lt_of_lt enough))
    rw [takeQuotedContent_eq_def inLine (by simp)]
    -- one turn of the loop: a word, the spaces behind it, and what begins with the next word
    obtain ⟨word, after, rfl, words, spaced⟩ := exists_span (!isSpace ·) pieces
    simp only [Bool.not_eq_true', Bool.not_eq_false'] at words spaced
    obtain ⟨spaces, after, rfl, all, worded⟩ := exists_span isSpace after
    rw [List.forall_mem_append, List.forall_mem_append] at portable
    rw [List.length_append, List.length_append] at few enough
    obtain ⟨spaceChars, spaceMeant⟩ := chars_of_isSpace all
    cases count : spaces.length with
    | zero =>
      obtain rfl := List.length_eq_zero_iff.mp count
      cases after with
      | nil =>
        rw [List.append_nil, List.append_nil, takeQuotedWord_pieces portable.1 words (by omega) (.inl rfl)]
        rfl
      | cons piece after =>
        rw [List.nil_append] at spaced
        -- without spaces between them the piece would belong to the word
        exact absurd (spaced piece rfl) (by rw [worded piece rfl]; exact Bool.false_ne_true)
    | succ k =>
      obtain ⟨x, tail, front, solid⟩ : ∃ x tail, after.flatMap Piece.chars ++ '"' :: rest = x :: tail ∧
          (isBlank x || isBreak x) = false := solid_front portable.2.2 worded
      rw [count, List.replicate_succ] at spaceChars
      rw [List.flatMap_append, List.flatMap_append, List.append_assoc, List.append_assoc, spaceChars, front,
        List.cons_append, takeQuotedWord_pieces portable.1 words (by omega) (.inr rfl)]
      have spacing : takeSpacing 0 (fuel + 1) {} ⟨List.replicate (k + 1) ' ' ++ x :: tail,
          m.along (word.flatMap Piece.chars).length⟩ = _ :=
        takeSpacing_spaces (k + 1) (show k + 1 < fuel + 1 by omega) solid []
      have later : takeQuotedContent '"' start fuel ⟨after.flatMap Piece.chars ++ '"' :: rest,
          (m.along (word.flatMap Piece.chars).length).along (k + 1)⟩ = _ :=
        ih (by omega) (by omega) (Nat.lt_of_lt_of_le inLine (by simp [Mark.along]; omega)) portable.2.2
      have noQuote : ∀ rest m, Cursor.isAt ⟨' ' :: rest, m⟩ '"' = false := fun _ _ => rfl
      rw [List.replicate_succ, List.cons_append] at spacing
      rw [front] at later
      simp only [bind, Except.bind, noQuote, Bool.false_eq_true, if_false, spacing, later]
      simp only [Spacing.text, List.map_append, spaceMeant, count, List.replicate_succ, List.append_assoc,
        List.nil_append, List.length_append, List.length_cons, List.length_replicate, Mark.along_along]
      have total : (word.flatMap Piece.chars).length + (k + 1) + ((after.flatMap Piece.chars).length + 1) =
          (word.flatMap Piece.chars).length + (k + 1 + (after.flatMap Piece.chars).length) + 1 := by omega
      rw [total]
      rfl

/-- A string of a JSON text is taken whole, and means here what it means there. -/
theorem takeQuoted_quoted (portable : ∀ p ∈ pieces, isPortable p) :
    takeQuoted '"' ⟨quoted pieces ++ rest, m⟩ =
      .ok (pieces.map Piece.char, ⟨rest, m.along (quoted pieces).length⟩) := by
  have few := length_le_length_flatMap pieces
  rw [takeQuoted, quoted, List.cons_append, List.append_assoc, List.singleton_append, Cursor.skip_cons]
  dsimp only
  rw [takeQuotedContent_pieces (pieces.length + 1) (Nat.lt_succ_self _) ?_ (Nat.succ_pos _) portable,
    Mark.along_along]
  · rw [List.length_cons, List.length_append, List.length_singleton, Nat.add_comm 1]
  · rw [List.length_cons, List.length_append]
    omega

end Tenancy.Yaml
