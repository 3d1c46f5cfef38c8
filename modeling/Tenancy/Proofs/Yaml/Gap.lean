import Mathlib.Tactic.SplitIfs
import Tenancy.Proofs.Json.Spelling
import Tenancy.Yaml.Token

/-! # Blanks in front of a token

Between brackets and braces all blanks of a JSON text are passed. Outside of them a tab may not stand where a
key may start: neither at the beginning of the text nor after a line break.
-/

namespace Tenancy.Yaml

open Json (isGapChar)

variable {c : Cursor} {l : Lexer} {gap rest : List Char} {x : Char} {free : Bool}

/-- Whether blanks outside of all brackets and braces are passed, where tabs may stand up to the next line
break or not. -/
def passes (free : Bool) : List Char → Bool
  | [] => true
  | x :: gap => if isBreak x then passes false gap else (free || x != '\t') && passes free gap

/-- A character that belongs to no gap, no comment and no byte order mark. -/
def isSolid (x : Char) : Bool := !(isBlank x || isBreak x || x == '#' || x == '\uFEFF')

def endsGap (rest : List Char) : Bool := rest.head?.all isSolid

theorem isBreak_or_isBlank (blank : isGapChar x) : isBreak x ∨ isBlank x := by
  simp only [isGapChar, Bool.or_eq_true, beq_iff_eq] at blank
  rcases blank with ((rfl | rfl) | rfl) | rfl <;> decide

theorem not_isBlank (ends : isBreak x) : isBlank x = false := by
  rw [isBlank, Bool.or_eq_false_iff, beq_eq_false_iff_ne, beq_eq_false_iff_ne]
  constructor <;> rintro rfl <;> exact absurd ends (by decide)

/-! ## Cursors -/

namespace Cursor

theorem skipWhile_cons {p : Char → Bool} {m : Mark} (passed : p x) :
    skipWhile ⟨x :: rest, m⟩ p = skipWhile (skip ⟨x :: rest, m⟩) p := by
  simp only [skipWhile, takeWhile, skipMany, skip, List.takeWhile_cons, passed, if_true, List.length_cons,
    List.drop_succ_cons, Cursor.mk.injEq, true_and, Mark.mk.injEq]
  omega

theorem skipWhile_of_head {p : Char → Bool} (stays : c.rest.head?.all fun x => !p x) : c.skipWhile p = c := by
  obtain ⟨rest, m⟩ := c
  cases rest with
  | nil => rfl
  | cons x rest =>
    have stop : p x = false := by simpa using stays
    simp [skipWhile, takeWhile, skipMany, stop]

theorem takeBreak_single {m : Mark} (ends : isBreak x) (single : ¬ (x = '\r' ∧ rest.head? = some '\n')) :
    (takeBreak ⟨x :: rest, m⟩).2 = ⟨rest, ⟨m.index + 1, m.line + 1, 0⟩⟩ := by
  unfold takeBreak
  dsimp only
  split
  case h_1 tail pair =>
    cases pair
    exact absurd ⟨rfl, rfl⟩ single
  case h_2 y tail _ same =>
    cases same
    rw [if_pos ends]
    split_ifs <;> rfl
  case h_3 empty => cases empty

end Cursor

/-! ## Gaps -/

def passesBlank (l : Lexer) (x : Char) : Bool := x == ' ' || ((l.inFlow || !l.keyAllowed) && x == '\t')

theorem skipGap_eq_def (fuel : Nat) (other : ¬ (l.cursor.mark.index = 0 ∧ l.cursor.isAt '\uFEFF')) :
    l.skipGap (fuel + 1) =
      let c := (l.cursor.skipWhile (passesBlank l)).skipComment
      if c.atClass isBreak then
        Lexer.skipGap fuel { l with cursor := c.takeBreak.2, keyAllowed := l.keyAllowed || !l.inFlow }
      else { l with cursor := c } := by
  rw [Lexer.skipGap, if_neg other]
  rfl

/-- A blank is passed over within the line. -/
theorem skipGap_blank {fuel : Nat} {m : Mark} (text : l.cursor = ⟨x :: rest, m⟩) (passed : passesBlank l x) :
    l.skipGap (fuel + 1) = Lexer.skipGap (fuel + 1) { l with cursor := l.cursor.skip } := by
  have other : x ≠ '\uFEFF' := by
    rintro rfl
    simp [passesBlank] at passed
  rw [skipGap_eq_def, skipGap_eq_def, text]
  · rw [Cursor.skipWhile_cons passed]
    rfl
  · rintro ⟨start, -⟩
    rw [text] at start
    cases start
  · rintro ⟨-, mark⟩
    rw [text, Cursor.isAt, beq_iff_eq] at mark
    exact other (Option.some.inj mark)

/-- A line break is passed over, and a key may start behind it unless in flow. -/
theorem skipGap_break {fuel : Nat} {m : Mark} (text : l.cursor = ⟨x :: rest, m⟩) (ends : isBreak x)
    (notBlank : isBlank x = false) :
    l.skipGap (fuel + 1) = Lexer.skipGap fuel
      { l with cursor := l.cursor.takeBreak.2, keyAllowed := l.keyAllowed || !l.inFlow } := by
  have others : x ≠ ' ' ∧ x ≠ '\t' := by simpa [isBlank] using notBlank
  have stays : passesBlank l x = false := by simp [passesBlank, others]
  have noComment : x ≠ '#' := by
    rintro rfl
    exact absurd ends (by decide)
  rw [skipGap_eq_def, Cursor.skipWhile_of_head]
  · simp [Cursor.skipComment, Cursor.isAt, Cursor.next?, Cursor.atClass, text, noComment, ends]
  · simp [text, stays]
  · rintro ⟨-, mark⟩
    rw [text, Cursor.isAt, beq_iff_eq] at mark
    cases mark
    exact absurd ends (by decide)

/-- A gap ends at the first character that is none of its own. -/
theorem skipGap_end {fuel : Nat} (ends : endsGap l.cursor.rest) : l.skipGap (fuel + 1) = l := by
  rw [skipGap_eq_def, Cursor.skipWhile_of_head]
  · cases text : l.cursor.rest with
    | nil => simp [Cursor.skipComment, Cursor.isAt, Cursor.next?, Cursor.atClass, text]
    | cons x rest =>
      rw [text] at ends
      simp only [endsGap, isSolid, List.head?_cons, Option.all_some, Bool.not_eq_true', Bool.or_eq_false_iff,
        beq_eq_false_iff_ne] at ends
      simp [Cursor.skipComment, Cursor.isAt, Cursor.next?, Cursor.atClass, text, ends]
  · cases text : l.cursor.rest with
    | nil => rfl
    | cons x rest =>
      rw [text] at ends
      simp only [endsGap, isSolid, List.head?_cons, Option.all_some, Bool.not_eq_true', Bool.or_eq_false_iff,
        beq_eq_false_iff_ne, isBlank] at ends
      simp [passesBlank, ends]
  · rintro ⟨-, mark⟩
    rw [endsGap, ← Cursor.next?, beq_iff_eq.mp mark] at ends
    cases ends

/-- A gap has been passed from one place to another. -/
structure Passed (gap : List Char) (start mark : Mark) : Prop where
  line : start.line ≤ mark.line
  index : mark.index = start.index + gap.length
  /-- Without a line break the line is the same. -/
  sameLine : (∀ x ∈ gap, isBreak x = false) → mark.line = start.line

theorem Passed.nil (m : Mark) : Passed [] m m := ⟨Nat.le_refl _, rfl, fun _ => rfl⟩

theorem Passed.blank {start mark : Mark} (passed : Passed gap (Cursor.skip ⟨x :: rest, start⟩).mark mark) :
    Passed (x :: gap) start mark := by
  obtain ⟨line, index, sameLine⟩ := passed
  refine ⟨line, ?_, fun none => sameLine fun y among => none y (List.mem_cons_of_mem _ among)⟩
  rw [index, List.length_cons, Cursor.skip]
  dsimp only
  omega

theorem Passed.break {start mark : Mark} {taken : List Char} (ends : isBreak x)
    (passed : Passed gap ⟨start.index + (x :: taken).length, start.line + 1, 0⟩ mark) :
    Passed (x :: (taken ++ gap)) start mark := by
  obtain ⟨line, index, -⟩ := passed
  refine ⟨by dsimp only at line; omega, ?_, fun none => ?_⟩
  · rw [index, List.length_cons, List.length_cons, List.length_append]
    dsimp only
    omega
  · rw [none x (List.mem_cons_self ..)] at ends
    cases ends

/-- A gap has been passed up to the text behind it. In flow it stays as it was whether a key may start. -/
def PassesGap (fuel : Nat) (l : Lexer) (gap rest : List Char) : Prop :=
  ∃ mark allowed, l.skipGap fuel = { l with cursor := ⟨rest, mark⟩, keyAllowed := allowed } ∧
    Passed gap l.cursor.mark mark ∧ (l.inFlow → allowed = l.keyAllowed)

/-- An empty gap is passed on the spot. -/
theorem passesGap_nil {fuel : Nat} (enough : 0 < fuel) (text : l.cursor.rest = rest) (ends : endsGap rest) :
    PassesGap fuel l [] rest := by
  obtain ⟨fuel, rfl⟩ := Nat.exists_eq_succ_of_ne_zero (Nat.ne_of_gt enough)
  exact ⟨l.cursor.mark, l.keyAllowed, by rw [skipGap_end (text ▸ ends), ← text], .nil _, fun _ => rfl⟩

/-- After a line break the gap goes on at the beginning of the next line, where a key may start if there is no
bracket around it. -/
theorem PassesGap.break {fuel : Nat} (taken : List Char) (place : l.cursor.rest = x :: (taken ++ gap ++ rest))
    (breaks : isBreak x) (after : l.cursor.takeBreak.2 =
      ⟨gap ++ rest, ⟨l.cursor.mark.index + (x :: taken).length, l.cursor.mark.line + 1, 0⟩⟩)
    (passes : PassesGap fuel
      { l with cursor := l.cursor.takeBreak.2, keyAllowed := l.keyAllowed || !l.inFlow } gap rest) :
    PassesGap (fuel + 1) l (x :: (taken ++ gap)) rest := by
  obtain ⟨mark, allowed, reached, arrival, same⟩ := passes
  refine ⟨mark, allowed, ?_, .break breaks ?_, fun flows => ?_⟩
  · have here : l.cursor = ⟨x :: (taken ++ gap ++ rest), l.cursor.mark⟩ := by rw [← place]
    rw [skipGap_break here breaks (not_isBlank breaks), reached]
  · dsimp only at arrival
    rwa [after] at arrival
  · have flows' : l.inFlow = true := flows
    have same := same flows
    dsimp only at same
    rwa [flows', Bool.not_true, Bool.or_false] at same

/-- Where blanks may be passed, the first of them is and so may the others be. -/
theorem passesBlank_of_passes (blank : isBlank x) (inLine : ¬ isBreak x)
    (free : l.inFlow ∨ passes (!l.keyAllowed) (x :: gap)) :
    passesBlank l x ∧ (l.inFlow ∨ passes (!l.keyAllowed) gap) := by
  rw [isBlank, Bool.or_eq_true] at blank
  rw [passes, if_neg inLine] at free
  cases flows : l.inFlow with
  | true => exact ⟨by simpa [passesBlank, flows] using blank, .inl rfl⟩
  | false =>
    rw [flows, Bool.and_eq_true] at free
    obtain ⟨tab, later⟩ := free.resolve_left Bool.false_ne_true
    refine ⟨?_, .inr later⟩
    rcases blank with space | isTab
    · simp [passesBlank, space]
    · rw [beq_iff_eq.mp isTab] at tab ⊢
      simpa [passesBlank, flows] using tab

/-- A gap of blanks and line breaks is passed, given a step for each of its characters. -/
theorem passesGap_of_length (n : Nat) : ∀ {gap : List Char} {l : Lexer} {fuel : Nat}, gap.length ≤ n → n < fuel →
    l.cursor.rest = gap ++ rest → (∀ x ∈ gap, isGapChar x) → endsGap rest →
    (l.inFlow ∨ passes (!l.keyAllowed) gap) → PassesGap fuel l gap rest := by
  -- not on the gap itself, for a line break of two characters is passed in one step
  induction n with
  | zero =>
    intro gap l fuel few enough text blank ends free
    obtain rfl := List.length_eq_zero_iff.mp (Nat.le_zero.mp few)
    exact passesGap_nil enough text ends
  | succ n ih =>
    intro gap l fuel few enough text blank ends free
    obtain ⟨fuel, rfl⟩ := Nat.exists_eq_succ_of_ne_zero (Nat.ne_of_gt (Nat.zero_lt_of_lt enough))
    cases gap with
    | nil => exact passesGap_nil (Nat.zero_lt_of_lt enough) text ends
    | cons x gap =>
      rw [List.forall_mem_cons] at blank
      have fits : gap.length ≤ n := Nat.le_of_succ_le_succ few
      have place : l.cursor = ⟨x :: (gap ++ rest), l.cursor.mark⟩ := by rw [← List.cons_append, ← text]
      by_cases breaks : isBreak x
      · have later : ∀ gap : List Char, (l.inFlow ∨ passes false gap) →
            l.inFlow ∨ passes (!(l.keyAllowed || !l.inFlow)) gap := by
          intro gap free
          cases flows : l.inFlow with
          | true => exact .inl rfl
          | false =>
            rw [flows] at free
            rw [Bool.not_false, Bool.or_true]
            exact free
        have free : l.inFlow ∨ passes false gap := by
          refine free.imp_right fun passed => ?_
          rwa [passes, if_pos breaks] at passed
        by_cases pair : x = '\r' ∧ (gap ++ rest).head? = some '\n'
        · -- the line feed belongs to the gap as well, for no token starts with it
          obtain ⟨rfl, feed⟩ := pair
          cases gap with
          | nil =>
            rw [endsGap, ← List.nil_append rest, feed] at ends
            cases ends
          | cons y gap =>
            obtain rfl := Option.some.inj feed
            rw [List.forall_mem_cons] at blank
            have after : l.cursor.takeBreak.2 =
                ⟨gap ++ rest, ⟨l.cursor.mark.index + 2, l.cursor.mark.line + 1, 0⟩⟩ := by
              rw [place]
              rfl
            refine .break ['\n'] text breaks after (ih (Nat.le_of_succ_le fits)
              (Nat.lt_of_succ_lt_succ enough) (by rw [after]) blank.2.2 ends (later gap free))
        · have after : l.cursor.takeBreak.2 =
              ⟨gap ++ rest, ⟨l.cursor.mark.index + 1, l.cursor.mark.line + 1, 0⟩⟩ := by
            rw [place, Cursor.takeBreak_single breaks pair]
          exact .break [] text breaks after
            (ih fits (Nat.lt_of_succ_lt_succ enough) (by rw [after]) blank.2 ends (later gap free))
      · have passed := passesBlank_of_passes ((isBreak_or_isBlank blank.1).resolve_left breaks) breaks free
        obtain ⟨mark, allowed, reached, arrival, same⟩ := ih
          (l := { l with cursor := l.cursor.skip }) fits (Nat.lt_of_succ_lt enough)
          (by rw [place]; rfl) blank.2 ends passed.2
        refine ⟨mark, allowed, (skipGap_blank place passed.1).trans reached, ?_, same⟩
        refine Passed.blank (show Passed gap (Cursor.skip ⟨x :: (gap ++ rest), l.cursor.mark⟩).mark mark from ?_)
        rw [← place]
        exact arrival

/-- A gap is passed in front of a token if there is a bracket around it, or no tab where none may stand. -/
theorem passesGap (blank : ∀ x ∈ gap, isGapChar x) (ends : endsGap rest) (text : l.cursor.rest = gap ++ rest)
    (free : l.inFlow ∨ passes (!l.keyAllowed) gap) :
    PassesGap (l.cursor.rest.length + 1) l gap rest := by
  refine passesGap_of_length _ (Nat.le_refl _) ?_ text blank ends free
  rw [text, List.length_append]
  omega

end Tenancy.Yaml
