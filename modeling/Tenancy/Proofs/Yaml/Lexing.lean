import Tenancy.Proofs.Yaml.Plain

/-! # Taking tokens

A token that may turn out to be a key is kept back, and so what has been released says little about how far a
text has been taken. `Reached` says it for a text without blocks: which tokens have been taken, released or not,
and how many brackets and braces are open. From there each kind of token is taken in one step.
-/

namespace Tenancy.Yaml

open Json (isGapChar Piece quoted meant)

variable {first l : Lexer} {emitted : List Token} {kinds kinds' : List TokenKind} {depth depth' : Nat}
variable {gap rest : List Char} {x : Char} {kind : TokenKind}

/-! ## Where a lexer stands -/

/-- The lexer has met no block. The tokens that it has taken are of these kinds, and of them some have been
released. No candidate has to be a key, nor has one been released. -/
structure Stands (emitted : List Token) (kinds : List TokenKind) (depth : Nat) (l : Lexer) : Prop where
  tokens : (emitted ++ l.queue).map Token.kind = kinds
  released : l.released = emitted.length
  nesting : l.depth = depth
  indent : l.indent = none
  outer : l.outer = []
  goesOn : l.ended = false
  candidates : l.candidates.length = depth + 1
  optional : ∀ k, some k ∈ l.candidates → k.required = false ∧ l.released ≤ k.number

/-- The lexer without the candidates that are too far away. -/
def Lexer.fresh (l : Lexer) : Lexer :=
  { l with candidates := l.candidates.map fun k => k.filter (!l.isStale ·) }

def Lexer.release (l : Lexer) : Lexer := { l with queue := l.queue.tail, released := l.released + 1 }

theorem mem_fresh {k : KeyCandidate} (among : some k ∈ l.fresh.candidates) : some k ∈ l.candidates := by
  obtain ⟨k', among', kept⟩ := List.mem_map.mp among
  obtain ⟨same, -⟩ := Option.filter_eq_some_iff.mp kept
  rwa [same] at among'

theorem head_fresh {k : KeyCandidate} (head : l.candidates.head? = some (some k)) (near : l.isStale k = false) :
    l.fresh.candidates.head? = some (some k) := by
  rw [Lexer.fresh, List.head?_map, head, Option.map_some, Option.filter_some, near]
  rfl

namespace Stands

variable (stands : Stands emitted kinds depth l)
include stands

theorem fresh : Stands emitted kinds depth l.fresh :=
  { stands with
    candidates := (List.length_map _).trans stands.candidates
    optional := fun k among => stands.optional k (mem_fresh among) }

/-- No candidate is missed. -/
theorem dropStale : l.dropStale = .ok l.fresh := by
  have none : (l.candidates.reverse.filterMap fun k => k.filter l.isStale).find? (·.required) = none := by
    rw [List.find?_eq_none]
    intro k among
    obtain ⟨k', among', kept⟩ := List.mem_filterMap.mp among
    obtain ⟨rfl, -⟩ := Option.filter_eq_some_iff.mp kept
    rw [(stands.optional k (List.mem_reverse.mp among')).1]
    exact Bool.false_ne_true
  rw [Lexer.dropStale, none]
  rfl

/-- There is a candidate's place for what stands here. -/
theorem exists_candidates : ∃ k others, l.candidates = k :: others ∧ others.length = depth := by
  cases all : l.candidates with
  | nil =>
    have count := stands.candidates
    rw [all] at count
    cases count
  | cons k others =>
    have count := stands.candidates
    rw [all] at count
    exact ⟨k, others, rfl, Nat.succ.inj count⟩

theorem inFlow : l.inFlow = (depth != 0) := by rw [Lexer.inFlow, stands.nesting]

theorem closeBlocks (column : Option Nat) : Lexer.closeBlocks column l = l := by
  rw [Lexer.closeBlocks, stands.indent, stands.outer, Lexer.closeBlocks.go]
  split
  · rfl
  · cases l
    cases stands.indent
    cases stands.outer
    rfl

end Stands

/-! ## Up to the next token -/

def Lexer.takeHere (l : Lexer) : Except Problem Lexer :=
  match l.cursor.next? with
  | none => l.takeEnd
  | some x => l.takeAt x

namespace Stands

variable {t : Token} {queue : List Token} {after : Lexer}

/-- A token is released in front of which nothing can be put. -/
theorem release (stands : Stands emitted kinds depth l) (waits : l.queue = t :: queue) (closed : ¬ l.isOpen) :
    Stands (emitted ++ [t]) kinds depth l.release :=
  { stands with
    tokens := by
      rw [List.append_assoc, ← stands.tokens, Lexer.release, waits]
      rfl
    released := by rw [Lexer.release, stands.released, List.length_append, List.length_singleton]
    optional := fun k among => by
      obtain ⟨optional, least⟩ := stands.optional k among
      refine ⟨optional, Nat.lt_of_le_of_ne least fun same => closed ?_⟩
      rw [Lexer.isOpen, List.any_eq_true]
      exact ⟨some k, among, by rw [Option.any_some, ← same, beq_self_eq_true]⟩ }

/-- A token that no candidate waits for is released. -/
theorem run_release (stands : Stands emitted kinds depth l) (waits : l.queue = t :: queue)
    (closed : ¬ l.fresh.isOpen) (fuel : Nat) :
    l.run (fuel + 1) = (t :: (l.fresh.release.run fuel).1, (l.fresh.release.run fuel).2) := by
  rw [Lexer.run, waits]
  simp only [stands.dropStale, closed, Bool.false_eq_true, if_false]
  rw [show l.fresh.release = { l.fresh with queue, released := l.fresh.released + 1 } by
    rw [Lexer.release, show l.fresh.queue = t :: queue from waits, List.tail_cons]]

/-- While the innermost candidate may still become a key, another token is taken. -/
theorem run_open (stands : Stands emitted kinds depth l) (waits : l.queue ≠ []) (opens : l.fresh.isOpen)
    (taken : l.fresh.takeNext = .ok after) (fuel : Nat) : l.run (fuel + 1) = after.run fuel := by
  rw [Lexer.run]
  split
  case h_1 none => exact absurd none waits
  case h_2 => simp only [stands.dropStale, opens, if_true, taken]

theorem run_empty (stands : Stands emitted kinds depth l) (waits : l.queue = []) (taken : l.takeNext = .ok after)
    (fuel : Nat) : l.run (fuel + 1) = after.run fuel := by
  rw [Lexer.run, waits]
  simp only [stands.goesOn, Bool.false_eq_true, if_false, taken]

/-- The lexer releases what can be released, and then takes the next token. -/
theorem run (stands : Stands emitted kinds depth l) :
    ∃ more l', Stands (emitted ++ more) kinds depth l' ∧ l'.cursor = l.cursor ∧ l'.keyAllowed = l.keyAllowed ∧
      (∀ k, l.candidates.head? = some (some k) → l.isStale k = false →
        l'.candidates.head? = some (some k)) ∧
      ∀ after, l'.takeNext = .ok after → ∀ m,
        l.run (more.length + 1 + m) = (more ++ (after.run m).1, (after.run m).2) := by
  induction waits : l.queue generalizing l emitted with
  | nil =>
    refine ⟨[], l, by rwa [List.append_nil], rfl, rfl, fun _ head _ => head, fun after taken m => ?_⟩
    rw [List.length_nil, Nat.zero_add, Nat.add_comm, stands.run_empty waits taken]
    rfl
  | cons t queue ih =>
    by_cases opens : l.fresh.isOpen
    · refine ⟨[], l.fresh, by rw [List.append_nil]; exact stands.fresh, rfl, rfl, fun _ => head_fresh,
        fun after taken m => ?_⟩
      rw [List.length_nil, Nat.zero_add, Nat.add_comm, stands.run_open (by simp [waits]) opens taken]
      rfl
    · obtain ⟨more, l', stands', cursor, allowed, head, taken⟩ :=
        ih (stands.fresh.release waits opens) (congrArg List.tail waits)
      refine ⟨t :: more, l', by rwa [List.append_cons], cursor, allowed,
        fun k here near => head k (head_fresh here near) near, fun after takes m => ?_⟩
      rw [List.length_cons, Nat.add_right_comm more.length, Nat.add_right_comm,
        stands.run_release waits opens, taken after takes]
      rfl

end Stands

/-- The next token is taken behind the gap. -/
theorem takeNext_eq {l' : Lexer} (gap : l.skipGap (l.cursor.rest.length + 1) = l')
    (stands : Stands emitted kinds depth l') : l.takeNext = l'.fresh.takeHere := by
  rw [Lexer.takeNext, gap, stands.dropStale]
  change (match (Lexer.closeBlocks _ l'.fresh).cursor.next? with | none => _ | some x => _) = _
  rw [stands.fresh.closeBlocks]
  rfl

/-- The lexer has come from the first one by taking tokens of these kinds; the steps are not more than the tokens
released and taken. -/
def Reached (first : Lexer) (kinds : List TokenKind) (depth : Nat) (l : Lexer) : Prop :=
  ∃ emitted n, Stands emitted kinds depth l ∧ n ≤ emitted.length + kinds.length ∧
    ∀ m, first.run (n + m) = (emitted ++ (l.run m).1, (l.run m).2)

/-- The same where the next token starts. -/
def Ready (first : Lexer) (kinds : List TokenKind) (depth : Nat) (l : Lexer) : Prop :=
  ∃ emitted n, Stands emitted kinds depth l ∧ n ≤ emitted.length + kinds.length ∧
    ∀ after, l.takeHere = .ok after → ∀ m, first.run (n + 1 + m) = (emitted ++ (after.run m).1, (after.run m).2)

theorem Reached.inFlow (reached : Reached first kinds depth l) : l.inFlow = (depth != 0) :=
  let ⟨_, _, stands, _⟩ := reached
  stands.inFlow

/-- Blanks in front of a token are passed. A candidate that is near enough stays one. -/
theorem Reached.ready (reached : Reached first kinds depth l) (blank : ∀ x ∈ gap, isGapChar x)
    (ends : endsGap rest) (text : l.cursor.rest = gap ++ rest)
    (free : l.inFlow ∨ passes (!l.keyAllowed) gap) :
    ∃ l', Ready first kinds depth l' ∧ l'.cursor.rest = rest ∧ Passed gap l.cursor.mark l'.cursor.mark ∧
      (l.inFlow → l'.keyAllowed = l.keyAllowed) ∧
      ∀ k, l.candidates.head? = some (some k) → l.isStale k = false → l'.isStale k = false →
        l'.candidates.head? = some (some k) := by
  obtain ⟨emitted, n, stands, steps, goes⟩ := reached
  obtain ⟨more, l1, stands1, cursor1, allowed1, head1, run1⟩ := stands.run
  have flow : l1.inFlow = l.inFlow := by rw [stands1.inFlow, stands.inFlow]
  obtain ⟨mark, allowed, skipped, passed, same⟩ :=
    passesGap (l := l1) blank ends (by rw [cursor1, text]) (by rwa [flow, allowed1])
  have stands2 : Stands (emitted ++ more) kinds depth
      { l1 with cursor := ⟨rest, mark⟩, keyAllowed := allowed } := { stands1 with }
  refine ⟨_, ⟨emitted ++ more, n + more.length, stands2.fresh, ?_, fun after taken m => ?_⟩, rfl, ?_,
    fun flows => (same (flow.trans flows)).trans allowed1, fun k here near near' => ?_⟩
  · rw [List.length_append]
    omega
  · have step := run1 after ((takeNext_eq skipped stands2).trans taken) m
    rw [Nat.add_assoc n, Nat.add_assoc n, goes, step, List.append_assoc]
  · rwa [cursor1] at passed
  · exact head_fresh (head1 k here near) near'

/-- A token is taken. -/
theorem Ready.reached {P : Lexer → Prop} (ready : Ready first kinds depth l)
    (more : kinds.length < kinds'.length)
    (takes : ∀ emitted, Stands emitted kinds depth l →
      ∃ after, l.takeHere = .ok after ∧ Stands emitted kinds' depth' after ∧ P after) :
    ∃ after, Reached first kinds' depth' after ∧ P after := by
  obtain ⟨emitted, n, stands, steps, goes⟩ := ready
  obtain ⟨after, taken, stands', has⟩ := takes emitted stands
  exact ⟨after, ⟨emitted, n + 1, stands', by omega, goes after taken⟩, has⟩

/-! ## Marks -/

/-- The lexer without the innermost candidate. -/
def Lexer.keyless (l : Lexer) : Lexer := { l with candidates := none :: l.candidates.tail }

/-- The lexer with the next token as the innermost candidate, if a key may start here. -/
def Lexer.marked (l : Lexer) : Lexer :=
  if l.keyAllowed then
    { l with candidates := some ⟨false, l.released + l.queue.length, l.cursor.mark⟩ :: l.candidates.tail }
  else l

namespace Stands

variable (stands : Stands emitted kinds depth l)
include stands

theorem length_kinds : kinds.length = l.released + l.queue.length := by
  rw [← stands.tokens, List.length_map, List.length_append, stands.released]

/-- Dropping the innermost candidate keeps the lexer where it stands. -/
theorem keyless : Stands emitted kinds depth l.keyless := by
  obtain ⟨k, others, all, count⟩ := stands.exists_candidates
  refine { stands with candidates := ?_, optional := fun k among => ?_ }
  · rw [Lexer.keyless, all, List.tail_cons, List.length_cons, count]
  · rw [Lexer.keyless, List.mem_cons] at among
    exact stands.optional k (List.mem_of_mem_tail (among.resolve_left (nomatch ·)))

theorem dropKey : l.dropKey = .ok l.keyless := by
  obtain ⟨k, others, all, -⟩ := stands.exists_candidates
  cases k with
  | none =>
    have same : l.keyless = l := by rw [Lexer.keyless, all, List.tail_cons, ← all]
    rw [same, Lexer.dropKey, all]
  | some k =>
    have optional := (stands.optional k (all ▸ List.mem_cons_self ..)).1
    simp only [Lexer.dropKey, Lexer.keyless, all, optional, Bool.false_eq_true, if_false, List.tail_cons]

/-- Marking a candidate keeps the lexer where it stands. -/
theorem marked : Stands emitted kinds depth l.marked := by
  rw [Lexer.marked]
  split
  · obtain ⟨k, others, all, count⟩ := stands.exists_candidates
    refine { stands with candidates := ?_, optional := fun k among => ?_ }
    · rw [all, List.tail_cons, List.length_cons, count]
    · rcases List.mem_cons.mp among with same | among
      · cases same
        exact ⟨rfl, Nat.le_add_right ..⟩
      · exact stands.optional k (List.mem_of_mem_tail among)
  · exact stands

/-- The new candidate does not have to be a key, as there is no block. -/
theorem markKey : l.markKey = .ok l.marked := by
  rw [Lexer.markKey, Lexer.marked]
  cases allowed : l.keyAllowed with
  | false => rfl
  | true =>
    simp only [Bool.not_true, Bool.false_eq_true, if_false, if_true, stands.dropKey, bind, Except.bind]
    have optional : (l.indent == some l.cursor.mark.column) = false := by rw [stands.indent]; rfl
    simp only [Lexer.keyless, optional, Bool.and_false, List.tail_cons, allowed]
    rfl

theorem push (kind : TokenKind) (start stop : Mark) :
    Stands emitted (kinds ++ [kind]) depth (l.push kind start stop) :=
  { stands with
    tokens := by
      rw [Lexer.push, ← List.append_assoc, List.map_append, stands.tokens]
      rfl }

end Stands

theorem atDocumentMark_eq_false {c : Cursor} {y : Char} (place : c.rest = x :: rest) (other : x ≠ y) :
    c.atDocumentMark y = false := by
  have differs : (c.rest.take 3 == [y, y, y]) = false := by
    rw [place, beq_eq_false_iff_ne]
    exact fun same => other (List.cons.inj same).1
  rw [Cursor.atDocumentMark, differs, Bool.and_false, Bool.false_and]

/-- The next character tells which token is taken. -/
theorem takeHere_eq (place : l.cursor.rest = x :: rest) : l.takeHere = l.takeAt x := by
  rw [Lexer.takeHere, Cursor.next?, place]
  rfl

/-- What stands around the parts of a list or a table. -/
inductive Bracket where
  | list
  | table

namespace Bracket

def opens : Bracket → Char
  | list => '['
  | table => '\x7b'

def closes : Bracket → Char
  | list => ']'
  | table => '\x7d'

def opening : Bracket → TokenKind
  | list => .flowListStart
  | table => .flowTableStart

def closing : Bracket → TokenKind
  | list => .flowListEnd
  | table => .flowTableEnd

end Bracket

theorem takeHere_opening {b : Bracket} (place : l.cursor.rest = b.opens :: rest) :
    l.takeHere = l.takeOpening b.opening := by
  rw [takeHere_eq place, Lexer.takeAt]
  cases b <;> rw [Bracket.opens] at place <;>
    simp [Bracket.opens, Bracket.opening, atDocumentMark_eq_false place]

theorem takeHere_closing {b : Bracket} (place : l.cursor.rest = b.closes :: rest) :
    l.takeHere = l.takeClosing b.closing := by
  rw [takeHere_eq place, Lexer.takeAt]
  cases b <;> rw [Bracket.closes] at place <;>
    simp [Bracket.closes, Bracket.closing, atDocumentMark_eq_false place]

theorem takeHere_comma (place : l.cursor.rest = ',' :: rest) : l.takeHere = l.takeComma := by
  rw [takeHere_eq place, Lexer.takeAt]
  simp [atDocumentMark_eq_false place]

theorem takeHere_colon (place : l.cursor.rest = ':' :: rest) (flows : l.inFlow) : l.takeHere = l.takeValue := by
  rw [takeHere_eq place, Lexer.takeAt]
  simp [atDocumentMark_eq_false place, flows]

theorem not_isReserved (alphanum : x.isAlphanum) : Lexer.isReserved x = false := by
  have other : ∀ y, y.isAlphanum = false → (x == y) = false := by
    intro y none
    rw [beq_eq_false_iff_ne]
    rintro rfl
    rw [alphanum] at none
    cases none
  simp only [Lexer.isReserved, isFlowMark, other '-' (by decide), other '?' (by decide), other ':' (by decide),
    other ',' (by decide), other '[' (by decide), other ']' (by decide), other '\x7b' (by decide),
    other '\x7d' (by decide), other '#' (by decide), other '&' (by decide), other '*' (by decide),
    other '!' (by decide), other '|' (by decide), other '>' (by decide), other '\'' (by decide),
    other '"' (by decide), other '%' (by decide), other '@' (by decide), other '\x60' (by decide), Bool.or_self]

/-- A character that starts nothing else starts a plain scalar. -/
theorem takeAt_ordinary (dash : l.cursor.atDocumentMark '-' = false)
    (point : l.cursor.atDocumentMark '.' = false) (ordinary : Lexer.isReserved x = false)
    (solid : (isBlank x || isBreak x) = false) :
    l.takeAt x = l.takePlainScalar := by
  have starts : l.startsPlain x := by rw [Lexer.startsPlain, solid, ordinary]; rfl
  simp only [Lexer.isReserved, isFlowMark, Bool.or_eq_false_iff, beq_eq_false_iff_ne] at ordinary
  simp [Lexer.takeAt, dash, point, starts, ordinary]

/-- A word is taken as a plain scalar, whichever its first character is. -/
theorem takeHere_word {word : List Char} (isWord : IsWord word) (place : l.cursor.rest = word ++ rest) :
    l.takeHere = l.takePlainScalar := by
  have noMark : l.cursor.atAnyDocumentMark = false := by
    have noMark : Cursor.atAnyDocumentMark ⟨word ++ rest, l.cursor.mark⟩ = false := isWord.atAnyDocumentMark
    rwa [← place] at noMark
  rw [Cursor.atAnyDocumentMark, Bool.or_eq_false_iff] at noMark
  obtain ⟨each, x, tail, rfl, front⟩ := isWord
  rw [takeHere_eq place]
  rcases front with alphanum | ⟨rfl, d, second, digit⟩
  · obtain ⟨blank, breaks, -⟩ := isWordChar_stays (each x (List.mem_cons_self ..))
    exact takeAt_ordinary noMark.1 noMark.2 (not_isReserved alphanum) (by rw [blank, breaks]; rfl)
  · -- a dash in front of a digit begins no item
    obtain ⟨others, rfl⟩ := List.head?_eq_some_iff.mp second
    obtain ⟨blank, breaks, -⟩ := isWordChar_stays (each d (by simp))
    have ahead : l.cursor.ahead? 1 = some d := by rw [Cursor.ahead?, place]; rfl
    have noGap : l.cursor.isGapAhead 1 = false := by simp [Cursor.isGapAhead, ahead, blank, breaks]
    have starts : l.startsPlain '-' := by simp [Lexer.startsPlain, ahead, blank]
    simp [Lexer.takeAt, noMark, noGap, starts]

theorem takeHere_quote (place : l.cursor.rest = '"' :: rest) : l.takeHere = l.takeQuotedScalar .double '"' := by
  rw [takeHere_eq place, Lexer.takeAt]
  simp [atDocumentMark_eq_false place]

theorem rest_skipMany {c : Cursor} (place : c.rest = x :: rest) : (c.skipMany 1).rest = rest := by
  rw [Cursor.skipMany, place]
  rfl

theorem cursor_marked : l.marked.cursor = l.cursor := by
  rw [Lexer.marked]
  split <;> rfl

/-- The lexer has come to this rest of the text, where a key may start or not. -/
def Comes (first : Lexer) (kinds : List TokenKind) (depth : Nat) (rest : List Char) (allowed : Bool) : Prop :=
  ∃ l, Reached first kinds depth l ∧ l.cursor.rest = rest ∧ l.keyAllowed = allowed

/-- One step is taken. -/
theorem Ready.comes {allowed : Bool} (take : Lexer → Lexer) (ready : Ready first kinds depth l)
    (more : kinds.length < kinds'.length)
    (takes : ∀ emitted, Stands emitted kinds depth l →
      l.takeHere = .ok (take l) ∧ Stands emitted kinds' depth' (take l))
    (place : (take l).cursor.rest = rest) (same : (take l).keyAllowed = allowed) :
    Comes first kinds' depth' rest allowed := by
  obtain ⟨after, reached, rfl⟩ := ready.reached (P := (· = take l)) more fun emitted stands =>
    have here := takes emitted stands
    ⟨take l, here.1, here.2, rfl⟩
  exact ⟨take l, reached, place, same⟩

namespace Ready

variable {b : Bracket} (ready : Ready first kinds depth l)
include ready

/-- After an opening mark a key may start. -/
theorem opening (place : l.cursor.rest = b.opens :: rest) :
    Comes first (kinds ++ [b.opening]) (depth + 1) rest true := by
  refine ready.comes (fun l => { l.marked.takeMark b.opening 1 with
    depth := l.marked.depth + 1, candidates := none :: l.marked.candidates, keyAllowed := true })
    (by simp) (fun emitted stands => ⟨?_, ?_⟩) (rest_skipMany (cursor_marked ▸ place)) rfl
  · rw [takeHere_opening place, Lexer.takeOpening, stands.markKey]
    rfl
  · have marked := stands.marked
    exact { marked.push _ l.marked.cursor.mark (l.marked.cursor.skipMany 1).mark with
      nesting := congrArg (· + 1) marked.nesting
      candidates := congrArg (· + 1) marked.candidates
      optional := fun k among => marked.optional k ((List.mem_cons.mp among).resolve_left nofun) }

theorem comma (place : l.cursor.rest = ',' :: rest) : Comes first (kinds ++ [.comma]) depth rest true := by
  refine ready.comes (fun l => { l.keyless.takeMark .comma 1 with keyAllowed := true })
    (by simp) (fun emitted stands => ⟨?_, ?_⟩) (rest_skipMany place) rfl
  · rw [takeHere_comma place, Lexer.takeComma, stands.dropKey]
    rfl
  · exact { stands.keyless.push _ l.cursor.mark (l.cursor.skipMany 1).mark with }

end Ready

/-- After a closing mark no key may start. -/
theorem Ready.closing {b : Bracket} (ready : Ready first kinds (depth + 1) l)
    (place : l.cursor.rest = b.closes :: rest) : Comes first (kinds ++ [b.closing]) depth rest false := by
  refine ready.comes (fun l => { l.keyless.takeMark b.closing 1 with
    depth := l.depth - 1, candidates := l.keyless.candidates.tail, keyAllowed := false })
    (by simp) (fun emitted stands => ⟨?_, ?_⟩) (rest_skipMany place) rfl
  · have flows : l.keyless.inFlow := stands.keyless.inFlow
    rw [takeHere_closing place, Lexer.takeClosing, stands.dropKey]
    simp only [bind, Except.bind, flows, if_true]
    rfl
  · have keyless := stands.keyless
    exact { keyless.push _ l.cursor.mark (l.cursor.skipMany 1).mark with
      nesting := congrArg (· - 1) keyless.nesting
      candidates := by
        have count := keyless.candidates
        rw [List.length_tail, count]
        rfl
      optional := fun k among => keyless.optional k (List.mem_of_mem_tail among) }

/-! ## Scalars and names -/

/-- A string in double quotes is taken. If a key may start there, it is a candidate. -/
theorem Ready.quotedScalar {pieces : List Piece} (ready : Ready first kinds depth l)
    (portable : ∀ p ∈ pieces, isPortable p) (place : l.cursor.rest = quoted pieces ++ rest) :
    ∃ after, Reached first (kinds ++ [.scalar .double (meant pieces)]) depth after ∧
      after.cursor = ⟨rest, l.cursor.mark.along (quoted pieces).length⟩ ∧ after.keyAllowed = false ∧
      (l.keyAllowed → after.candidates.head? = some (some ⟨false, kinds.length, l.cursor.mark⟩)) := by
  refine ready.reached (P := fun after => after.cursor = _ ∧ after.keyAllowed = false ∧
    (l.keyAllowed → after.candidates.head? = _)) (by simp) fun emitted stands => ?_
  have cursor : l.marked.cursor = ⟨quoted pieces ++ rest, l.cursor.mark⟩ := by rw [cursor_marked, ← place]
  refine ⟨{ l.marked.taken (.scalar .double (meant pieces))
      ⟨rest, l.cursor.mark.along (quoted pieces).length⟩ with keyAllowed := false },
    ?_, ?_, rfl, rfl, fun allowed => ?_⟩
  · rw [quoted, List.cons_append] at place
    rw [takeHere_quote place, Lexer.takeQuotedScalar, stands.markKey]
    simp only [bind, Except.bind, cursor, takeQuoted_quoted portable]
    rfl
  · exact { stands.marked.push _ l.marked.cursor.mark (l.cursor.mark.along (quoted pieces).length) with }
  · rw [stands.length_kinds]
    simp only [Lexer.taken, Lexer.push, Lexer.marked, allowed, if_true, List.head?_cons]

/-- In flow no block is opened. -/
theorem openBlock_eq {column : Nat} {number : Option Nat} {m : Mark} (flows : l.inFlow) :
    l.openBlock column number kind m = l := by
  rw [Lexer.openBlock, if_pos (.inl flows)]

/-- A token put in front of the last one. -/
theorem Stands.pushBefore {last : TokenKind} (stands : Stands emitted (kinds ++ [last]) depth l)
    (kind : TokenKind) (late : l.released ≤ kinds.length) (m : Mark) :
    Stands emitted (kinds ++ [kind, last]) depth (l.pushBefore kinds.length kind m) := by
  obtain ⟨n, place⟩ := Nat.exists_eq_add_of_le late
  refine { stands with tokens := ?_ }
  rw [stands.released] at place
  simp only [Lexer.pushBefore, List.splitAt_eq, stands.released, place, Nat.add_sub_cancel_left]
  rw [← List.append_assoc, ← List.take_length_add_append, ← @List.drop_length_add_append _ emitted,
    List.map_append, List.map_cons, List.map_take, List.map_drop, stands.tokens, ← place, List.take_left,
    List.drop_left]

/-- The colon behind a key puts a token in front of the key. -/
theorem Ready.colon {last : TokenKind} {m : Mark} (ready : Ready first (kinds ++ [last]) (depth + 1) l)
    (place : l.cursor.rest = ':' :: rest)
    (key : l.candidates.head? = some (some ⟨false, kinds.length, m⟩)) :
    Comes first (kinds ++ [.key, last, .value]) (depth + 1) rest false := by
  obtain ⟨others, all⟩ := List.head?_eq_some_iff.mp key
  refine ready.comes (fun l => { (l.pushBefore kinds.length .key m).takeMark .value 1 with
    candidates := none :: l.candidates.tail, keyAllowed := false })
    (by simp) (fun emitted stands => ⟨?_, ?_⟩) (rest_skipMany place) rfl
  · have flows : l.inFlow := stands.inFlow
    have flows' : (l.pushBefore kinds.length .key m).inFlow := flows
    rw [takeHere_colon place flows, Lexer.takeValue, all]
    dsimp only
    rw [openBlock_eq flows']
    rfl
  · have late := (stands.optional _ (all ▸ List.mem_cons_self ..)).2
    have before := (stands.pushBefore .key late m).keyless
    have pushed := before.push .value l.cursor.mark (l.cursor.skipMany 1).mark
    rw [List.append_assoc] at pushed
    exact { pushed with }

/-- A word is taken with the blanks behind it. -/
theorem Ready.plainScalar {word : List Char} (ready : Ready first kinds depth l) (isWord : IsWord word)
    (blank : ∀ x ∈ gap, isGapChar x) (ends : EndsPlain (depth != 0) rest)
    (place : l.cursor.rest = word ++ (gap ++ rest)) :
    ∃ after, Reached first (kinds ++ [.scalar .plain (String.ofList word)]) depth after ∧
      after.cursor.rest = rest := by
  have cursor : l.marked.cursor = ⟨word ++ (gap ++ rest), l.cursor.mark⟩ := by rw [cursor_marked, ← place]
  obtain ⟨m, broken, taken⟩ := takePlain_word (m := l.cursor.mark) isWord blank ends
  refine ready.reached (P := fun after => after.cursor.rest = rest) (by simp) fun emitted stands => ?_
  refine ⟨{ l.marked.taken (.scalar .plain (String.ofList word)) ⟨rest, m⟩ with keyAllowed := broken },
    ?_, ?_, rfl⟩
  · have flows : l.marked.inFlow = (depth != 0) := stands.marked.inFlow
    have indent : l.marked.indent = none := stands.marked.indent
    rw [takeHere_word isWord place, Lexer.takePlainScalar, stands.markKey]
    simp only [bind, Except.bind, indent, flows, cursor, taken]
    rfl
  · exact { stands.marked.push _ l.marked.cursor.mark m with }

/-! ## Names and the end -/

theorem isStale_eq_false {k : KeyCandidate} (line : l.cursor.mark.line = k.mark.line)
    (near : l.cursor.mark.index ≤ k.mark.index + keyLimit) : l.isStale k = false := by
  rw [Lexer.isStale, Bool.or_eq_false_iff, decide_eq_false_iff_not, decide_eq_false_iff_not]
  omega

/-- A name is taken up to its colon if that is near enough. -/
theorem Comes.label {label : Json.Label} (comes : Comes first kinds (depth + 1) (label.chars ++ rest) true)
    (portable : ∀ p ∈ label.pieces, isPortable p) (inLine : ∀ x ∈ label.after.chars, isBreak x = false)
    (short : (quoted label.pieces).length + label.after.chars.length ≤ keyLimit) :
    Comes first (kinds ++ [.key, .scalar .double (meant label.pieces), .value]) (depth + 1) rest false := by
  obtain ⟨l, reached, place, allowed⟩ := comes
  rw [Json.Label.chars, List.append_assoc, List.append_assoc, List.append_assoc] at place
  obtain ⟨l1, ready, place1, -, same, -⟩ := reached.ready label.before.blank
    (show endsGap (quoted label.pieces ++ (label.after.chars ++ ([':'] ++ rest))) from rfl) place
    (.inl reached.inFlow)
  obtain ⟨l2, reached2, cursor2, -, key2⟩ := ready.quotedScalar portable place1
  have key2 := key2 ((same reached.inFlow).trans allowed)
  obtain ⟨l3, ready3, place3, passed3, -, key3⟩ := reached2.ready label.after.blank
    (show endsGap ([':'] ++ rest) from rfl)
    (by rw [cursor2]) (.inl reached2.inFlow)
  rw [cursor2] at passed3
  have near : (quoted label.pieces).length ≤ keyLimit := Nat.le_of_add_right_le short
  refine ready3.colon place3 (key3 _ key2 (isStale_eq_false ?_ ?_) (isStale_eq_false ?_ ?_))
  · rw [cursor2]
    rfl
  · rw [cursor2]
    exact Nat.add_le_add_left near _
  · exact passed3.sameLine inLine
  · rw [passed3.index]
    exact (Nat.add_assoc ..).trans_le (Nat.add_le_add_left short _)

/-- After the end everything is released. -/
theorem run_ended {queue : List Token} {fuel : Nat} (waits : l.queue = queue) (ended : l.ended = true)
    (noKey : l.candidates = [none]) (enough : queue.length ≤ fuel) : l.run fuel = (queue, none) := by
  induction queue generalizing l fuel with
  | nil =>
    cases fuel with
    | zero => rfl
    | succ fuel => rw [Lexer.run, waits, ended]; rfl
  | cons t queue ih =>
    obtain ⟨fuel, rfl⟩ := Nat.exists_eq_succ_of_ne_zero (Nat.ne_of_gt (Nat.zero_lt_of_lt enough))
    have fresh : l.dropStale = .ok l := by
      rw [Lexer.dropStale, noKey]
      cases l
      cases noKey
      rfl
    have closed : l.isOpen = false := by rw [Lexer.isOpen, noKey]; rfl
    have later := ih (l := { l with queue, released := l.released + 1 }) rfl ended noKey
      (Nat.le_of_succ_le_succ enough)
    rw [Lexer.run, waits]
    simp only [fresh, closed, Bool.false_eq_true, if_false, later]

/-- The last token is taken where the text ends outside of all brackets and braces. -/
theorem Stands.takeHere_end (stands : Stands emitted kinds 0 l) (place : l.cursor.rest = []) :
    ∃ after, l.takeHere = .ok after ∧ (emitted ++ after.queue).map Token.kind = kinds ++ [.textEnd] ∧
      after.ended = true ∧ after.candidates = [none] := by
  rw [Lexer.takeHere, Cursor.next?, place, List.head?_nil, Lexer.takeEnd]
  generalize (if l.cursor.mark.column = 0 then l.cursor.mark
    else { l.cursor.mark with line := l.cursor.mark.line + 1, column := 0 }) = m
  let l1 : Lexer := { l with cursor := { l.cursor with mark := m } }
  have moved : Stands emitted kinds 0 l1 := { stands with }
  obtain ⟨k, others, all, count⟩ := moved.exists_candidates
  obtain rfl := List.length_eq_zero_iff.mp count
  have noKey : l1.keyless.candidates = [none] := by rw [Lexer.keyless, all]; rfl
  refine ⟨{ l1.keyless.push .textEnd m m with keyAllowed := false, ended := true }, ?_,
    (moved.keyless.push .textEnd m m).tokens, rfl, noKey⟩
  change (do let l ← (Lexer.closeBlocks none l1).dropKey; _) = _
  rw [moved.closeBlocks, moved.dropKey]
  rfl

/-- Where nothing but blanks is left, the tokens are those taken so far and the last one. -/
theorem Reached.run_eq (reached : Reached first kinds 0 l) (blank : ∀ x ∈ gap, isGapChar x)
    (place : l.cursor.rest = gap) (free : passes (!l.keyAllowed) gap) {fuel : Nat}
    (enough : 2 * kinds.length + 2 ≤ fuel) :
    ∃ tokens, first.run fuel = (tokens, none) ∧ tokens.map Token.kind = kinds ++ [.textEnd] := by
  obtain ⟨l1, ⟨emitted, n, stands, steps, goes⟩, place1, -⟩ :=
    reached.ready blank (show endsGap [] from rfl) (by rw [place, List.append_nil]) (.inr free)
  obtain ⟨after, taken, tokens, ended, noKey⟩ := stands.takeHere_end place1
  have count := congrArg List.length tokens
  rw [List.length_map, List.length_append, List.length_append, List.length_singleton] at count
  obtain ⟨m, rfl⟩ := Nat.exists_eq_add_of_le (show n + 1 ≤ fuel by omega)
  refine ⟨emitted ++ after.queue, ?_, tokens⟩
  rw [goes after taken, run_ended rfl ended noKey (show after.queue.length ≤ m by omega)]

end Tenancy.Yaml
