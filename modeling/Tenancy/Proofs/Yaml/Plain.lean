import Tenancy.Proofs.Yaml.Quoted

/-! # Words and numbers

The words and numbers of a JSON text are plain scalars. A plain scalar could go on after blanks, and so the
blanks behind it are taken with it; but what stands behind them, a mark or the end of the text, goes on with
nothing.
-/

namespace Tenancy.Yaml

open Json (isGapChar)

variable {word gap rest : List Char} {m start : Mark} {fuel : Nat} {inFlow : Bool} {x : Char}

/-- A character of a word or a number, or the sign in front of it. -/
def isWordChar (c : Char) : Bool := c.isAlphanum || c == '-'

/-- The words and numbers of a JSON text. -/
structure IsWord (word : List Char) : Prop where
  each : ∀ c ∈ word, isWordChar c
  /-- It does not start with two signs. -/
  front : ∃ x tail, word = x :: tail ∧ (x.isAlphanum ∨ (x = '-' ∧ ∃ d ∈ tail.head?, d.isAlphanum))

/-- What stands behind a word and the blanks after it: a mark between brackets or braces, or nothing. -/
def EndsPlain (inFlow : Bool) (rest : List Char) : Prop :=
  rest = [] ∨ inFlow = true ∧ ∃ x tail, rest = x :: tail ∧ isFlowMark x

theorem isAlphanum_narrow {c : Char} (char : c.isAlphanum) : c.toNat < 0x80 := by
  have le (a b : Char) : a.val ≤ b.val ↔ a.toNat ≤ b.toNat := UInt32.le_iff_toNat_le
  have char : (decide ('A'.val ≤ c.val ∧ c.val ≤ 'Z'.val) ||
      (decide ('a'.val ≤ c.val) && decide (c.val ≤ 'z'.val)) ||
      (decide ('0'.val ≤ c.val) && decide (c.val ≤ '9'.val))) = true := char
  simp only [le, Bool.or_eq_true, Bool.and_eq_true, decide_eq_true_eq] at char
  have values : 'Z'.toNat = 0x5A ∧ 'z'.toNat = 0x7A ∧ '9'.toNat = 0x39 := by decide
  omega

/-- A character of a word ends no word. -/
theorem isWordChar_stays {c : Char} (char : isWordChar c) :
    isBlank c = false ∧ isBreak c = false ∧ isFlowMark c = false := by
  have narrow : c.toNat < 0x80 := by
    rw [isWordChar, Bool.or_eq_true, beq_iff_eq] at char
    rcases char with alphanum | rfl
    · exact isAlphanum_narrow alphanum
    · decide
  have other : ∀ x, isWordChar x = false → (c == x) = false := by
    intro x none
    rw [beq_eq_false_iff_ne]
    rintro rfl
    rw [char] at none
    cases none
  have wide : (c.toNat == 0x85) = false ∧ (c.toNat == 0x2028) = false ∧ (c.toNat == 0x2029) = false := by
    simp only [beq_eq_false_iff_ne]
    omega
  refine ⟨?_, ?_, ?_⟩
  · rw [isBlank, other ' ' (by decide), other '\t' (by decide)]
    rfl
  · rw [isBreak, other '\n' (by decide), other '\r' (by decide), wide.1, wide.2.1, wide.2.2]
    rfl
  · rw [isFlowMark, other ',' (by decide), other '[' (by decide), other ']' (by decide),
      other '\x7b' (by decide), other '\x7d' (by decide)]
    rfl

theorem ne_of_isWordChar {c : Char} (char : isWordChar c) (none : isWordChar x = false) : c ≠ x := by
  rintro rfl
  rw [char] at none
  cases none

def endsWord (inFlow : Bool) (rest : List Char) : Bool :=
  rest.head?.all fun x => isBlank x || isBreak x || (inFlow && isFlowMark x)

theorem takePlainWord_end (ends : endsWord inFlow rest) :
    takePlainWord inFlow start (fuel + 1) ⟨rest, m⟩ = .ok ([], ⟨rest, m⟩) := by
  cases rest with
  | nil => rfl
  | cons x rest =>
    simp only [endsWord, List.head?_cons, Option.all_some, Bool.or_eq_true, Bool.and_eq_true] at ends
    simp only [takePlainWord, Cursor.next?, List.head?_cons]
    by_cases gap : (isBlank x || isBreak x) = true
    · rw [if_pos gap]
    · have mark := ends.resolve_left (by simpa using gap)
      have noColon : x ≠ ':' := by
        rintro rfl
        exact absurd mark.2 (by decide)
      rw [if_neg gap, if_neg (fun h => noColon h.2.1), if_pos (.inr mark)]

/-- A word is taken whole, up to what ends it. -/
theorem takePlainWord_word (each : ∀ c ∈ word, isWordChar c) (enough : word.length < fuel)
    (ends : endsWord inFlow rest) :
    takePlainWord inFlow start fuel ⟨word ++ rest, m⟩ = .ok (word, ⟨rest, m.along word.length⟩) := by
  induction word generalizing fuel m with
  | nil =>
    obtain ⟨fuel, rfl⟩ := Nat.exists_eq_succ_of_ne_zero (Nat.ne_of_gt enough)
    exact takePlainWord_end ends
  | cons c word ih =>
    obtain ⟨fuel, rfl⟩ := Nat.exists_eq_succ_of_ne_zero (Nat.ne_of_gt (Nat.zero_lt_of_lt enough))
    rw [List.forall_mem_cons] at each
    obtain ⟨blank, breaks, mark⟩ := isWordChar_stays each.1
    have noColon : c ≠ ':' := ne_of_isWordChar each.1 (by decide)
    have later := ih (m := m.along 1) each.2 (Nat.lt_of_succ_lt_succ enough)
    simp only [List.cons_append, takePlainWord, Cursor.next?, List.head?_cons, blank, breaks, mark, noColon,
      Bool.or_self, Bool.false_eq_true, if_false, false_and, and_false, or_self, Cursor.skip_cons, later, bind,
      Except.bind, Mark.along_along]
    rw [List.length_cons, Nat.add_comm 1]
    rfl

theorem takeSpacing_blank {s : Spacing} (blank : isBlank x) :
    ∃ s', takeSpacing 0 (fuel + 1) s ⟨x :: rest, m⟩ = takeSpacing 0 fuel s' ⟨rest, m.along 1⟩ := by
  simp only [takeSpacing, Cursor.next?, List.head?_cons, if_pos blank, Nat.not_lt_zero, false_and, and_false,
    if_false, Cursor.skip_cons]
  exact ⟨_, rfl⟩

theorem takeSpacing_break {s : Spacing} (breaks : isBreak x) :
    ∃ s', takeSpacing 0 (fuel + 1) s ⟨x :: rest, m⟩ =
      takeSpacing 0 fuel s' (Cursor.takeBreak ⟨x :: rest, m⟩).2 := by
  simp only [takeSpacing, Cursor.next?, List.head?_cons, not_isBlank breaks, Bool.false_eq_true, if_false,
    if_pos breaks]
  exact ⟨_, rfl⟩

theorem takeSpacing_end {s : Spacing} (ends : rest.head?.all fun x => !(isBlank x || isBreak x)) :
    takeSpacing 0 (fuel + 1) s ⟨rest, m⟩ = .ok (s, ⟨rest, m⟩) := by
  cases rest with
  | nil => rfl
  | cons x rest =>
    simp only [List.head?_cons, Option.all_some, Bool.not_eq_true', Bool.or_eq_false_iff] at ends
    simp only [takeSpacing, Cursor.next?, List.head?_cons, ends, Bool.false_eq_true, if_false]

/-- Blanks and line breaks behind a word are passed. -/
theorem takeSpacing_gap (n : Nat) : ∀ {gap : List Char} {fuel : Nat} {s : Spacing} {m : Mark}, gap.length < n →
    n ≤ fuel → (∀ x ∈ gap, isGapChar x) → (rest.head?.all fun x => !(isBlank x || isBreak x)) →
    ∃ s' m', takeSpacing 0 fuel s ⟨gap ++ rest, m⟩ = .ok (s', ⟨rest, m'⟩) := by
  induction n with
  | zero => exact fun few => absurd few (Nat.not_lt_zero _)
  | succ n ih =>
    intro gap fuel s m few enough blank ends
    obtain ⟨fuel, rfl⟩ := Nat.exists_eq_succ_of_ne_zero (Nat.ne_of_gt (Nat.lt_of_lt_of_le n.succ_pos enough))
    have enough := Nat.le_of_succ_le_succ enough
    cases gap with
    | nil => exact ⟨s, m, takeSpacing_end ends⟩
    | cons x gap =>
      rw [List.forall_mem_cons] at blank
      have fits : gap.length < n := Nat.lt_of_succ_lt_succ few
      rw [List.cons_append]
      rcases isBreak_or_isBlank blank.1 with breaks | isBlank
      · obtain ⟨s', step⟩ : ∃ s', takeSpacing 0 (fuel + 1) s ⟨x :: (gap ++ rest), m⟩ = takeSpacing 0 fuel s' _ :=
          takeSpacing_break breaks
        rw [step]
        by_cases pair : x = '\r' ∧ (gap ++ rest).head? = some '\n'
        · obtain ⟨rfl, feed⟩ := pair
          cases gap with
          | nil =>
            rw [List.nil_append] at feed
            rw [feed] at ends
            cases ends
          | cons y gap =>
            obtain rfl := Option.some.inj feed
            rw [List.forall_mem_cons] at blank
            exact ih (Nat.lt_of_succ_lt fits) enough blank.2.2 ends
        · rw [Cursor.takeBreak_single breaks pair]
          exact ih fits enough blank.2 ends
      · obtain ⟨s', step⟩ : ∃ s', takeSpacing 0 (fuel + 1) s ⟨x :: (gap ++ rest), m⟩ = takeSpacing 0 fuel s' _ :=
          takeSpacing_blank isBlank
        rw [step]
        exact ih fits enough blank.2 ends

/-! ## Whole scalars -/

/-- No line starts here that begins or ends a document. -/
theorem atAnyDocumentMark_eq_false {text : List Char} (front : ∀ x ∈ text.head?, x = '-' → text[1]? ≠ some '-')
    (noPoint : text.head? ≠ some '.') : Cursor.atAnyDocumentMark ⟨text, m⟩ = false := by
  have other : ∀ x, text.take 3 = [x, x, x] → x ≠ '-' ∧ x ≠ '.' := by
    intro x same
    have first : text.head? = some x := by simpa [List.head?_take] using congrArg List.head? same
    have second : text[1]? = some x := by
      have second := congrArg (fun l : List Char => l[1]?) same
      rwa [List.getElem?_take_of_lt (by decide)] at second
    refine ⟨?_, ?_⟩
    · rintro rfl
      exact front '-' first rfl second
    · rintro rfl
      exact noPoint first
  simp only [Cursor.atAnyDocumentMark, Cursor.atDocumentMark, Bool.or_eq_false_iff, Bool.and_eq_false_iff,
    beq_eq_false_iff_ne]
  exact ⟨.inl (.inr fun same => (other '-' same).1 rfl), .inl (.inr fun same => (other '.' same).2 rfl)⟩

theorem EndsPlain.head (ends : EndsPlain inFlow rest) : ∀ x ∈ rest.head?, inFlow = true ∧ isFlowMark x := by
  rcases ends with rfl | ⟨flow, x, tail, rfl, mark⟩
  · exact fun _ none => nomatch none
  · rintro y ⟨⟩
    exact ⟨flow, mark⟩

/-- What a mark between brackets or braces is not. -/
theorem not_of_isFlowMark (mark : isFlowMark x) :
    x ≠ '-' ∧ x ≠ '.' ∧ x ≠ '#' ∧ isBlank x = false ∧ isBreak x = false := by
  simp only [isFlowMark, Bool.or_eq_true, beq_iff_eq] at mark
  rcases mark with (((rfl | rfl) | rfl) | rfl) | rfl <;> decide

theorem EndsPlain.solid (ends : EndsPlain inFlow rest) : rest.head?.all fun x => !(isBlank x || isBreak x) := by
  rw [Option.all_eq_true]
  intro x first
  obtain ⟨-, -, -, blank, breaks⟩ := not_of_isFlowMark (ends.head x first).2
  rw [blank, breaks]
  rfl

theorem EndsPlain.atClass (ends : EndsPlain inFlow rest) :
    Cursor.atClass ⟨rest, m⟩ (fun x => isBlank x || isBreak x) = false := by
  have solid := ends.solid
  cases rest with
  | nil => rfl
  | cons x rest => simpa [Cursor.atClass, Cursor.next?] using solid

/-- Where a plain scalar ends, its last word does. -/
theorem EndsPlain.endsWord (ends : EndsPlain inFlow rest) : endsWord inFlow rest := by
  rw [Yaml.endsWord, Option.all_eq_true]
  intro x first
  obtain ⟨flow, mark⟩ := ends.head x first
  rw [flow, mark]
  simp

/-- What stands behind a word and the blanks after it goes on with nothing. -/
theorem takePlainWords_end {s : Spacing} (ends : EndsPlain inFlow rest) :
    ∃ broken, takePlainWords inFlow 0 start (fuel + 1) s ⟨rest, m⟩ = .ok ⟨[], ⟨rest, m⟩, broken⟩ := by
  have other : ∀ x ∈ rest.head?, x ≠ '-' ∧ x ≠ '.' ∧ x ≠ '#' := fun x first =>
    have mark := not_of_isFlowMark (ends.head x first).2
    ⟨mark.1, mark.2.1, mark.2.2.1⟩
  have noMark : Cursor.atAnyDocumentMark ⟨rest, m⟩ = false := atAnyDocumentMark_eq_false
    (fun x first same => absurd same (other x first).1) fun first => (other '.' first).2.1 rfl
  have noComment : Cursor.isAt ⟨rest, m⟩ '#' = false := by
    rw [Cursor.isAt, beq_eq_false_iff_ne]
    exact fun first => (other '#' first).2.2 rfl
  rw [takePlainWords, noMark, noComment]
  simp only [Bool.or_self, Bool.false_eq_true, if_false, takePlainWord_end ends.endsWord, bind, Except.bind,
    ends.atClass,
    Bool.not_false, if_true, List.isEmpty_nil]
  exact ⟨_, rfl⟩

/-- A word is no mark of a document. -/
theorem IsWord.atAnyDocumentMark (isWord : IsWord word) :
    Cursor.atAnyDocumentMark ⟨word ++ rest, m⟩ = false := by
  obtain ⟨each, x, tail, rfl, front⟩ := isWord
  refine atAnyDocumentMark_eq_false ?_ ?_
  · rintro y ⟨⟩ rfl second
    rcases front with alphanum | ⟨-, d, second', digit⟩
    · exact absurd alphanum (by decide)
    · cases tail with
      | nil => cases second'
      | cons z tail =>
        cases second'
        cases second
        exact absurd digit (by decide)
  · rintro ⟨⟩
    exact absurd (each _ (List.mem_cons_self ..)) (by decide)

/-- A word is taken with the blanks behind it. -/
theorem takePlain_word (isWord : IsWord word) (blank : ∀ x ∈ gap, isGapChar x) (ends : EndsPlain inFlow rest) :
    ∃ m' broken, takePlain inFlow 0 ⟨word ++ (gap ++ rest), m⟩ = .ok ⟨word, ⟨rest, m'⟩, broken⟩ := by
  have noMark : Cursor.atAnyDocumentMark ⟨word ++ (gap ++ rest), m⟩ = false := isWord.atAnyDocumentMark
  obtain ⟨each, x, tail, rfl, -⟩ := isWord
  have first : isWordChar x := each x (List.mem_cons_self ..)
  have noComment : Cursor.isAt ⟨x :: tail ++ (gap ++ rest), m⟩ '#' = false := by
    rw [Cursor.isAt, beq_eq_false_iff_ne]
    rintro ⟨⟩
    exact absurd first (by decide)
  have endsWord : endsWord inFlow (gap ++ rest) := by
    cases gap with
    | nil => exact ends.endsWord
    | cons y gap =>
      rw [List.forall_mem_cons] at blank
      rcases isBreak_or_isBlank blank.1 with here | here <;> simp [Yaml.endsWord, here]
  rw [takePlain, takePlainWords, noMark, noComment]
  dsimp only
  simp only [Bool.or_self, Bool.false_eq_true, if_false, bind, Except.bind]
  rw [takePlainWord_word each (by rw [List.length_append]; omega) endsWord]
  dsimp only
  cases gap with
  | nil =>
    rw [List.nil_append, ends.atClass]
    exact ⟨_, _, rfl⟩
  | cons y gap =>
    have spaced : ∀ m, Cursor.atClass ⟨y :: gap ++ rest, m⟩ (fun x => isBlank x || isBreak x) = true := by
      intro m
      rcases isBreak_or_isBlank (blank y (List.mem_cons_self ..)) with here | here <;>
        simp [Cursor.atClass, Cursor.next?, here]
    obtain ⟨s, m', spacing⟩ : ∃ s m', takeSpacing 0 ((x :: tail ++ (y :: gap ++ rest)).length + 1) {}
        ⟨y :: gap ++ rest, m.along (x :: tail).length⟩ = .ok (s, ⟨rest, m'⟩) :=
      takeSpacing_gap _ (Nat.lt_succ_self (y :: gap).length)
        (by simp only [List.length_append, List.length_cons]; omega) blank ends.solid
    obtain ⟨broken, words⟩ : ∃ broken, takePlainWords inFlow 0 m (tail.length + (y :: gap ++ rest).length + 1) s
        ⟨rest, m'⟩ = .ok ⟨[], ⟨rest, m'⟩, broken⟩ := takePlainWords_end ends
    have fuels : (x :: tail ++ (y :: gap ++ rest)).length = tail.length + (y :: gap ++ rest).length + 1 := by
      simp only [List.length_append, List.length_cons]
      omega
    rw [spaced, spacing, fuels]
    simp only [Bool.not_true, Bool.false_eq_true, if_false, Nat.not_lt_zero, and_false, words]
    exact ⟨m', broken, by simp [pure, Except.pure, Spacing.text]⟩

end Tenancy.Yaml
