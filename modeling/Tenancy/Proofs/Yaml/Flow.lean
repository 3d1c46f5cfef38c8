import Tenancy.Proofs.Json.Document
import Tenancy.Proofs.Yaml.Lexing

/-! # The tokens of a JSON text

A JSON text has the tokens that one expects of it, brackets, braces, commas, names and scalars in the order of
the text, if it is *portable*: if its strings are read in YAML as in JSON, if each name is near its colon and on
its line, and if no tab stands in the wrong place outside of all brackets and braces.
-/

namespace Tenancy.Json

open Yaml (isBreak passes keyLimit)

/-! ## Portable texts -/

/-- Whether a scalar is read in YAML as in JSON. -/
def ScalarSpelling.isPortable : ScalarSpelling → Bool
  | string pieces => pieces.all Yaml.isPortable
  | _ => true

/-- Whether a name is read in YAML as in JSON, and its colon is near enough for it to be one. -/
def Label.isPortable (label : Label) : Bool :=
  label.pieces.all Yaml.isPortable && label.after.chars.all (!isBreak ·)
    && (quoted label.pieces).length + label.after.chars.length ≤ keyLimit

mutual

/-- Whether all strings and names of a value are read in YAML as in JSON. -/
def Spelling.isPortable : Spelling → Bool
  | .scalar scalar => scalar.isPortable
  | .emptyArray _ | .emptyObject _ => true
  | .array _ first others => first.isPortable && others.isPortable
  | .object label _ first others => label.isPortable && (first.isPortable && others.isPortable)

@[inherit_doc Spelling.isPortable] def ItemsLeft.isPortable : ItemsLeft → Bool
  | .close _ => true
  | .item _ _ value others => value.isPortable && others.isPortable

@[inherit_doc Spelling.isPortable] def MembersLeft.isPortable : MembersLeft → Bool
  | .close _ => true
  | .member _ label _ value others => label.isPortable && (value.isPortable && others.isPortable)

end

/-- Whether a text is read in YAML as in JSON. A key could start at the beginning of the text, but not behind a
value. -/
def TextSpelling.isPortable (s : TextSpelling) : Bool :=
  passes false s.before.chars && s.root.isPortable && passes true s.after.chars

/-! ## What stands behind a value -/

/-- The blanks in front of the next item or of the bracket. -/
def ItemsLeft.gap : ItemsLeft → Blanks
  | .close gap => gap
  | .item before _ _ _ => before

/-- What follows from the comma or the bracket on. -/
def ItemsLeft.marked : ItemsLeft → List Char
  | .close _ => [']']
  | .item _ after value others => ',' :: (after.chars ++ (value.chars ++ others.chars))

/-- The blanks in front of the next member or of the brace. -/
def MembersLeft.gap : MembersLeft → Blanks
  | .close gap => gap
  | .member before _ _ _ _ => before

/-- What follows from the comma or the brace on. -/
def MembersLeft.marked : MembersLeft → List Char
  | .close _ => ['\x7d']
  | .member _ label gap value others =>
    ',' :: (label.chars ++ (gap.chars ++ (value.chars ++ others.chars)))

theorem ItemsLeft.chars_eq (others : ItemsLeft) : others.chars = others.gap.chars ++ others.marked := by
  cases others <;> rw [chars, ItemsLeft.gap, marked]

theorem MembersLeft.chars_eq (others : MembersLeft) : others.chars = others.gap.chars ++ others.marked := by
  cases others <;> rw [chars, MembersLeft.gap, marked]

end Tenancy.Json

namespace Tenancy.Yaml

open Json (isGapChar Piece quoted meant renderChars Spelling ItemsLeft MembersLeft ScalarSpelling TextSpelling)

variable {first l : Lexer} {kinds : List TokenKind} {depth : Nat} {gap rest : List Char} {allowed : Bool}

/-! ## Tokens -/

def nameKinds (name : String) : List TokenKind := [.key, .scalar .double name, .value]

mutual

def tokenKinds : Json → List TokenKind
  | .string s => [.scalar .double s]
  | .array [] => [.flowListStart, .flowListEnd]
  | .array (item :: items) => .flowListStart :: (tokenKinds item ++ itemKinds items)
  | .object [] => [.flowTableStart, .flowTableEnd]
  | .object ((name, value) :: members) =>
    .flowTableStart :: (nameKinds name ++ (tokenKinds value ++ memberKinds members))
  | j => [.scalar .plain (String.ofList (renderChars j))]

/-- The tokens of the items after the first one, and of the bracket. -/
def itemKinds : List Json → List TokenKind
  | [] => [.flowListEnd]
  | item :: items => .comma :: (tokenKinds item ++ itemKinds items)

/-- The tokens of the members after the first one, and of the brace. -/
def memberKinds : List (String × Json) → List TokenKind
  | [] => [.flowTableEnd]
  | (name, value) :: members => .comma :: (nameKinds name ++ (tokenKinds value ++ memberKinds members))

end

/-! ## Taking the parts of a text -/

/-- The lexer has come to this rest of the text but for blanks that are passed. -/
def Nears (first : Lexer) (kinds : List TokenKind) (depth : Nat) (rest : List Char) : Prop :=
  ∃ l gap, Reached first kinds depth l ∧ (∀ x ∈ gap, isGapChar x) ∧ l.cursor.rest = gap ++ rest ∧
    (l.inFlow ∨ passes (!l.keyAllowed) gap)

/-- Blanks that are passed lead nearer to what stands behind them. -/
theorem Comes.nears {gap : Json.Blanks} (comes : Comes first kinds depth (gap.chars ++ rest) allowed)
    (free : depth ≠ 0 ∨ passes (!allowed) gap.chars) : Nears first kinds depth rest := by
  obtain ⟨l, reached, place, rfl⟩ := comes
  refine ⟨l, gap.chars, reached, gap.blank, place, free.imp_left fun some => ?_⟩
  rw [reached.inFlow, bne_iff_ne]
  exact some

/-- Behind the blanks the next token starts. -/
theorem Nears.ready (nears : Nears first kinds depth rest) (ends : endsGap rest) :
    ∃ l, Ready first kinds depth l ∧ l.cursor.rest = rest := by
  obtain ⟨l, gap, reached, blank, place, free⟩ := nears
  obtain ⟨l', ready, place', -⟩ := reached.ready blank ends place free
  exact ⟨l', ready, place'⟩

theorem isWord_toDigits (n : Nat) : ∀ c ∈ Nat.toDigits 10 n, c.isAlphanum := by
  intro c among
  have digit := Nat.isDigit_of_mem_toDigits (by decide) (by decide) among
  rw [Char.isAlphanum, digit, Bool.or_true]

/-- A written integer is a word that a plain scalar may be made of. -/
theorem isWord_renderInt (i : Int) : IsWord (Json.renderInt i) := by
  have digits := isWord_toDigits i.natAbs
  obtain ⟨d, others, all⟩ := List.exists_cons_of_ne_nil (Nat.toDigits_ne_nil (n := i.natAbs) (b := 10))
  have front : d.isAlphanum := digits d (all ▸ List.mem_cons_self ..)
  have each : ∀ c ∈ Nat.toDigits 10 i.natAbs, isWordChar c := fun c among => by
    rw [isWordChar, digits c among, Bool.true_or]
  rw [Json.renderInt]
  split
  · refine ⟨List.forall_mem_cons.mpr ⟨rfl, each⟩, '-', _, rfl, .inr ⟨rfl, d, ?_, front⟩⟩
    rw [all]
    rfl
  · exact ⟨each, d, others, all, .inl front⟩

theorem endsGap_word {word : List Char} (isWord : IsWord word) : endsGap (word ++ rest) := by
  obtain ⟨each, x, tail, rfl, -⟩ := isWord
  have char := each x (List.mem_cons_self ..)
  obtain ⟨blank, breaks, -⟩ := isWordChar_stays char
  have sharp : (x == '#') = false := beq_eq_false_iff_ne.mpr (ne_of_isWordChar char (by decide))
  have mark : (x == '\uFEFF') = false := beq_eq_false_iff_ne.mpr (ne_of_isWordChar char (by decide))
  simp [endsGap, isSolid, blank, breaks, sharp, mark]

/-- What stands behind a value may be passed, and then the value has ended. -/
structure Follows (depth : Nat) (gap : Json.Blanks) (rest : List Char) : Prop where
  ends : EndsPlain (depth != 0) rest
  free : depth ≠ 0 ∨ passes true gap.chars

variable {after : Json.Blanks} {closes : Char}

theorem Follows.mark {x : Char} (mark : isFlowMark x) : Follows (depth + 1) after (x :: rest) :=
  ⟨.inr ⟨rfl, x, rest, rfl, mark⟩, .inl (Nat.succ_ne_zero _)⟩

theorem Reached.nears (reached : Reached first kinds depth l) (place : l.cursor.rest = rest) :
    Nears first kinds depth rest :=
  ⟨l, [], reached, fun _ none => (nomatch none), place, .inr rfl⟩

/-- A closing bracket or brace is taken as such and leads out of the innermost one. -/
theorem Nears.closing {b : Bracket} (nears : Nears first kinds (depth + 1) (b.closes :: rest)) :
    Comes first (kinds ++ [b.closing]) depth rest false := by
  have ends : endsGap (b.closes :: rest) := by cases b <;> rfl
  obtain ⟨l, ready, place⟩ := nears.ready ends
  exact ready.closing place

/-- An opening one leads a level further in, where a key may start. -/
theorem Nears.opening {b : Bracket} (nears : Nears first kinds depth (b.opens :: rest)) :
    Comes first (kinds ++ [b.opening]) (depth + 1) rest true := by
  have ends : endsGap (b.opens :: rest) := by cases b <;> rfl
  obtain ⟨l, ready, place⟩ := nears.ready ends
  exact ready.opening place

/-- Behind a comma a key may start again. -/
theorem Nears.comma (nears : Nears first kinds depth (',' :: rest)) :
    Comes first (kinds ++ [.comma]) depth rest true := by
  obtain ⟨l, ready, place⟩ := nears.ready rfl
  exact ready.comma place

/-- A word is taken as a plain scalar. -/
theorem Nears.word {word : List Char} (nears : Nears first kinds depth (word ++ (after.chars ++ rest)))
    (isWord : IsWord word) (follows : Follows depth after rest) :
    Nears first (kinds ++ [.scalar .plain (String.ofList word)]) depth rest := by
  obtain ⟨l, ready, place⟩ := nears.ready (endsGap_word isWord)
  obtain ⟨l', reached, place'⟩ := ready.plainScalar isWord after.blank follows.ends place
  exact reached.nears place'

/-- A string of portable pieces is taken as a scalar in double quotes. -/
theorem Nears.string {pieces : List Piece}
    (nears : Nears first kinds depth (quoted pieces ++ (after.chars ++ rest)))
    (portable : ∀ p ∈ pieces, isPortable p) (follows : Follows depth after rest) :
    Nears first (kinds ++ [.scalar .double (meant pieces)]) depth rest := by
  obtain ⟨l, ready, place⟩ := nears.ready rfl
  obtain ⟨l', reached, cursor, allowed, -⟩ := ready.quotedScalar portable place
  exact Comes.nears ⟨l', reached, by rw [cursor], allowed⟩ follows.free

/-- A scalar as it may be spelled is taken as the token of its value. -/
theorem Nears.scalar {s : ScalarSpelling} (nears : Nears first kinds depth (s.chars ++ (after.chars ++ rest)))
    (portable : s.isPortable) (integral : s.written.isIntegral) (follows : Follows depth after rest) :
    Nears first (kinds ++ tokenKinds s.written) depth rest := by
  cases s with
  | null => exact nears.word ⟨List.all_eq_true.mp rfl, _, _, rfl, .inl rfl⟩ follows
  | bool b => cases b <;> exact nears.word ⟨List.all_eq_true.mp rfl, _, _, rfl, .inl rfl⟩ follows
  | string pieces => exact nears.string (List.all_eq_true.mp portable) follows
  | number numeral =>
    obtain ⟨chars, number, whole⟩ := numeral
    cases number with
    | double d => cases integral
    | integer i =>
      obtain rfl := whole i rfl
      exact nears.word (isWord_renderInt i) follows

/-- The name of a member is taken with its colon. -/
theorem Comes.member {label : Json.Label} {gap : Json.Blanks}
    (comes : Comes first kinds (depth + 1) (label.chars ++ (gap.chars ++ rest)) true)
    (portable : label.isPortable) : Nears first (kinds ++ nameKinds (meant label.pieces)) (depth + 1) rest := by
  simp only [Json.Label.isPortable, Bool.and_eq_true, List.all_eq_true, Bool.not_eq_true', decide_eq_true_eq]
    at portable
  obtain ⟨⟨pieces, inLine⟩, short⟩ := portable
  exact (comes.label pieces inLine short).nears (.inl (Nat.succ_ne_zero _))

theorem ItemsLeft.follows (others : ItemsLeft) : Follows (depth + 1) others.gap (others.marked ++ rest) := by
  cases others <;> exact .mark (by decide)

theorem MembersLeft.follows (others : MembersLeft) : Follows (depth + 1) others.gap (others.marked ++ rest) := by
  cases others <;> exact .mark (by decide)

mutual

/-- A value is taken. -/
theorem Nears.value : ∀ (s : Spelling) {kinds : List TokenKind} {depth : Nat} {after : Json.Blanks}
    {rest : List Char}, Nears first kinds depth (s.chars ++ (after.chars ++ rest)) → s.isPortable →
    s.written.isIntegral → Follows depth after rest → Nears first (kinds ++ tokenKinds s.written) depth rest
  | .scalar s, _, _, _, _, nears, portable, integral, follows => nears.scalar portable integral follows
  | .emptyArray gap, kinds, _, _, _, nears, _, _, follows => by
    rw [Spelling.chars, List.cons_append, List.append_assoc] at nears
    have inside := (nears.opening (b := .list)).nears (.inl (Nat.succ_ne_zero _))
    have outside := (inside.closing (b := .list)).nears follows.free
    rwa [List.append_assoc kinds] at outside
  | .array gap head others, kinds, _, _, _, nears, portable, integral, follows => by
    rw [Spelling.chars, List.cons_append, List.append_assoc, List.append_assoc, others.chars_eq,
      List.append_assoc] at nears
    rw [Spelling.isPortable, Bool.and_eq_true] at portable
    rw [Spelling.written, Json.isIntegral_array, List.forall_mem_cons] at integral
    have inside := (nears.opening (b := .list)).nears (.inl (Nat.succ_ne_zero _))
    have left := Nears.value head inside portable.1 integral.1 (ItemsLeft.follows others)
    have outside := (Nears.items others left portable.2 integral.2).nears follows.free
    rwa [List.append_assoc, List.append_assoc kinds] at outside
  | .emptyObject gap, kinds, _, _, _, nears, _, _, follows => by
    rw [Spelling.chars, List.cons_append, List.append_assoc] at nears
    have inside := (nears.opening (b := .table)).nears (.inl (Nat.succ_ne_zero _))
    have outside := (inside.closing (b := .table)).nears follows.free
    rwa [List.append_assoc kinds] at outside
  | .object label gap head others, kinds, _, _, _, nears, portable, integral, follows => by
    rw [Spelling.chars, List.cons_append, List.append_assoc, List.append_assoc, List.append_assoc,
      others.chars_eq, List.append_assoc] at nears
    rw [Spelling.isPortable, Bool.and_eq_true, Bool.and_eq_true] at portable
    rw [Spelling.written, Json.isIntegral_object, List.forall_mem_cons] at integral
    have inside := (nears.opening (b := .table)).member portable.1
    have left := Nears.value head inside portable.2.1 integral.1 (MembersLeft.follows others)
    have outside := (Nears.members others left portable.2.2 integral.2).nears follows.free
    rwa [List.append_assoc, List.append_assoc, List.append_assoc kinds] at outside

/-- The items after the first one are taken. -/
theorem Nears.items : ∀ (others : ItemsLeft) {kinds : List TokenKind} {depth : Nat} {rest : List Char},
    Nears first kinds (depth + 1) (others.marked ++ rest) → others.isPortable →
    (∀ item ∈ others.written, item.isIntegral) →
    Comes first (kinds ++ itemKinds others.written) depth rest false
  | .close gap, _, _, _, nears, _, _ => nears.closing (b := .list)
  | .item before after value others, kinds, _, _, nears, portable, integral => by
    rw [ItemsLeft.marked, List.cons_append, List.append_assoc, List.append_assoc, others.chars_eq,
      List.append_assoc] at nears
    rw [ItemsLeft.isPortable, Bool.and_eq_true] at portable
    rw [ItemsLeft.written, List.forall_mem_cons] at integral
    have inside := nears.comma.nears (.inl (Nat.succ_ne_zero _))
    have left := Nears.value value inside portable.1 integral.1 (ItemsLeft.follows others)
    have outside := Nears.items others left portable.2 integral.2
    rwa [List.append_assoc, List.append_assoc kinds] at outside

/-- The members after the first one are taken. -/
theorem Nears.members : ∀ (others : MembersLeft) {kinds : List TokenKind} {depth : Nat} {rest : List Char},
    Nears first kinds (depth + 1) (others.marked ++ rest) → others.isPortable →
    (∀ m ∈ others.written, m.2.isIntegral) →
    Comes first (kinds ++ memberKinds others.written) depth rest false
  | .close gap, _, _, _, nears, _, _ => nears.closing (b := .table)
  | .member before label gap value others, kinds, _, _, nears, portable, integral => by
    rw [MembersLeft.marked, List.cons_append, List.append_assoc, List.append_assoc, List.append_assoc,
      others.chars_eq, List.append_assoc] at nears
    rw [MembersLeft.isPortable, Bool.and_eq_true, Bool.and_eq_true] at portable
    rw [MembersLeft.written, List.forall_mem_cons] at integral
    have inside := nears.comma.member portable.1
    have left := Nears.value value inside portable.2.1 integral.1 (MembersLeft.follows others)
    have outside := Nears.members others left portable.2.2 integral.2
    rwa [List.append_assoc, List.append_assoc, List.append_assoc kinds] at outside

end

/-! ## Whole texts -/

theorem length_quoted (pieces : List Piece) : 2 ≤ (quoted pieces).length := by
  rw [quoted, List.length_cons, List.length_append, List.length_singleton]
  omega

theorem length_nameKinds_le (label : Json.Label) (name : String) :
    (nameKinds name).length ≤ label.chars.length := by
  have quotes := length_quoted label.pieces
  simp only [nameKinds, Json.Label.chars, List.length_append, List.length_cons, List.length_nil]
  omega

/-- The spelling of a scalar is no shorter than its tokens are many. -/
theorem length_scalarKinds_le (s : ScalarSpelling) (integral : s.written.isIntegral) :
    (tokenKinds s.written).length ≤ s.chars.length := by
  cases s with
  | null => decide
  | bool b => cases b <;> decide
  | string pieces => exact Nat.le_trans (by decide : 1 ≤ 2) (length_quoted pieces)
  | number numeral =>
    obtain ⟨chars, number, whole⟩ := numeral
    cases number with
    | double d => cases integral
    | integer i =>
      obtain rfl := whole i rfl
      obtain ⟨-, x, tail, all, -⟩ := isWord_renderInt i
      change 1 ≤ (Json.renderInt i).length
      rw [all]
      exact Nat.succ_le_succ (Nat.zero_le _)

mutual

/-- A value has no more tokens than characters. -/
theorem length_tokenKinds_le : ∀ s : Spelling, s.written.isIntegral →
    (tokenKinds s.written).length ≤ s.chars.length
  | .scalar s, integral => length_scalarKinds_le s integral
  | .emptyArray gap, _ => by simp [Spelling.chars, Spelling.written, tokenKinds]
  | .array gap head others, integral => by
    rw [Spelling.written, Json.isIntegral_array, List.forall_mem_cons] at integral
    have left := length_tokenKinds_le head integral.1
    have right := length_itemKinds_le others integral.2
    simp only [Spelling.chars, Spelling.written, tokenKinds, List.length_cons, List.length_append]
    omega
  | .emptyObject gap, _ => by simp [Spelling.chars, Spelling.written, tokenKinds]
  | .object label gap head others, integral => by
    rw [Spelling.written, Json.isIntegral_object, List.forall_mem_cons] at integral
    have name := length_nameKinds_le label (meant label.pieces)
    have left := length_tokenKinds_le head integral.1
    have right := length_memberKinds_le others integral.2
    simp only [Spelling.chars, Spelling.written, tokenKinds, List.length_cons, List.length_append]
    omega

@[inherit_doc length_tokenKinds_le] theorem length_itemKinds_le : ∀ others : ItemsLeft,
    (∀ item ∈ others.written, item.isIntegral) → (itemKinds others.written).length ≤ others.chars.length
  | .close gap, _ => by simp [ItemsLeft.chars, ItemsLeft.written, itemKinds]
  | .item before after value others, integral => by
    rw [ItemsLeft.written, List.forall_mem_cons] at integral
    have left := length_tokenKinds_le value integral.1
    have right := length_itemKinds_le others integral.2
    simp only [ItemsLeft.chars, ItemsLeft.written, itemKinds, List.length_cons, List.length_append]
    omega

@[inherit_doc length_tokenKinds_le] theorem length_memberKinds_le : ∀ others : MembersLeft,
    (∀ m ∈ others.written, m.2.isIntegral) → (memberKinds others.written).length ≤ others.chars.length
  | .close gap, _ => by simp [MembersLeft.chars, MembersLeft.written, memberKinds]
  | .member before label gap value others, integral => by
    rw [MembersLeft.written, List.forall_mem_cons] at integral
    have name := length_nameKinds_le label (meant label.pieces)
    have left := length_tokenKinds_le value integral.1
    have right := length_memberKinds_le others integral.2
    simp only [MembersLeft.chars, MembersLeft.written, memberKinds, List.length_cons, List.length_append]
    omega

end

/-- At the beginning of a text only its first token has been taken. -/
theorem reached_start (text : List Char) : Reached (Lexer.start text) [.textStart] 0 (Lexer.start text) := by
  refine ⟨[], 0, ⟨rfl, rfl, rfl, rfl, rfl, rfl, rfl, ?_⟩, Nat.zero_le _, fun m => by rw [Nat.zero_add]; rfl⟩
  intro k among
  cases List.mem_singleton.mp among

/-- Allowed characters are no problem. -/
theorem controlProblem?_eq_none {text : List Char} (allowed : text.all isAllowed) :
    controlProblem? text = none := by
  rw [controlProblem?, List.takeWhile_eq_self_iff.mpr (List.all_eq_true.mp allowed)]
  exact if_pos rfl

/-- A portable text of which each character may stand in a text has the tokens of its value. -/
theorem Token.ofText_spelling {s : TextSpelling} (portable : s.isPortable) (integral : s.root.written.isIntegral)
    (allowed : s.chars.all isAllowed) :
    ∃ tokens, Token.ofText s.chars = (tokens, none) ∧
      tokens.map Token.kind = .textStart :: (tokenKinds s.root.written ++ [.textEnd]) := by
  simp only [TextSpelling.isPortable, Bool.and_eq_true] at portable
  obtain ⟨⟨before, root⟩, after⟩ := portable
  have nears : Nears (Lexer.start s.chars) [.textStart] 0 (s.root.chars ++ (s.after.chars ++ [])) :=
    ⟨_, s.before.chars, reached_start s.chars, s.before.blank, by rw [List.append_nil]; rfl, .inr before⟩
  obtain ⟨l, gap, reached, blank, place, free⟩ :=
    Nears.value s.root nears root integral ⟨.inl rfl, .inr after⟩
  have flow : ¬ l.inFlow = true := by rw [reached.inFlow]; decide
  rw [List.append_nil] at place
  have enough :
      2 * ([TokenKind.textStart] ++ tokenKinds s.root.written).length + 2 ≤ 8 * s.chars.length + 16 := by
    have few := length_tokenKinds_le s.root integral
    simp only [TextSpelling.chars, List.length_append, List.length_singleton]
    omega
  obtain ⟨tokens, run, kinds⟩ := reached.run_eq blank place (free.resolve_left flow) enough
  refine ⟨tokens, ?_, kinds⟩
  rw [Token.ofText, controlProblem?_eq_none allowed]
  exact run

end Tenancy.Yaml
