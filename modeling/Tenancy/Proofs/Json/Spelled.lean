import Tenancy.Proofs.Json.Document
import Tenancy.Proofs.Json.Numeral

/-! # Every text that was read is spelled

What the reader of documents takes off a text spells the document that it gives: the document is the one that
is written there, with its members in order. So there is a spelling for every text that can be read.
-/

namespace Tenancy.Json

open Text.Utf8

variable {cs : List Char} {rest next : Input} {b : UInt8} {value : Json} {fuel depth index : Nat}
  {items : List Json} {members : List (String × Json)} {first more : Bool}

/-! ## Scalars -/

/-- A scalar that was read stands at the front of the text. -/
theorem readScalar_eq_ok (front : encodeChars cs = b :: next)
    (found : readScalar b next = .ok (value, rest)) :
    ∃ (scalar : ScalarSpelling) (cs' : List Char), cs = scalar.chars ++ cs' ∧ rest = encodeChars cs' ∧
      scalar.written = value := by
  rw [readScalar] at found
  split_ifs at found with null yes no quote minus digit
  · subst null
    obtain ⟨cs, rfl, rfl⟩ := encodeChars_eq_ascii_cons (by decide) front
    obtain ⟨left, word, same⟩ := bind_eq_ok.mp found
    cases same
    obtain ⟨cs, rfl, rfl⟩ := readWord_eq_ok ['u', 'l', 'l'] rfl word
    exact ⟨.null, cs, rfl, rfl, rfl⟩
  · subst yes
    obtain ⟨cs, rfl, rfl⟩ := encodeChars_eq_ascii_cons (by decide) front
    obtain ⟨left, word, same⟩ := bind_eq_ok.mp found
    cases same
    obtain ⟨cs, rfl, rfl⟩ := readWord_eq_ok ['r', 'u', 'e'] rfl word
    exact ⟨.bool true, cs, rfl, rfl, rfl⟩
  · subst no
    obtain ⟨cs, rfl, rfl⟩ := encodeChars_eq_ascii_cons (by decide) front
    obtain ⟨left, word, same⟩ := bind_eq_ok.mp found
    cases same
    obtain ⟨cs, rfl, rfl⟩ := readWord_eq_ok ['a', 'l', 's', 'e'] rfl word
    exact ⟨.bool false, cs, rfl, rfl, rfl⟩
  · subst quote
    obtain ⟨cs, rfl, rfl⟩ := encodeChars_eq_ascii_cons (by decide) front
    obtain ⟨⟨s, left⟩, text, same⟩ := bind_eq_ok.mp found
    cases same
    obtain ⟨pieces, cs, rfl, rfl, rfl⟩ := readText_eq_ok text
    exact ⟨.string pieces, cs, by simp [ScalarSpelling.chars, quoted], rfl, rfl⟩
  · subst minus
    obtain ⟨cs, rfl, rfl⟩ := encodeChars_eq_ascii_cons (by decide) front
    obtain ⟨⟨number, left⟩, read, same⟩ := bind_eq_ok.mp found
    cases same
    obtain ⟨ds, cs, rfl, rfl, whole⟩ := readNumber_eq_ok read
    exact ⟨.number ⟨'-' :: ds, number, whole⟩, cs, rfl, rfl, rfl⟩
  · obtain ⟨⟨number, left⟩, read, same⟩ := bind_eq_ok.mp found
    cases same
    rw [← front] at read
    obtain ⟨ds, cs, rfl, rfl, whole⟩ := readNumber_eq_ok read
    exact ⟨.number ⟨ds, number, whole⟩, cs, rfl, rfl, rfl⟩
  · exact absurd found stopAt_ne_ok

/-! ## Punctuation -/

/-- Where the next item of a list was found. -/
theorem nextItem_eq_ok (found : nextItem first (encodeChars cs) = .ok (more, next)) :
    (more = false ∧ ∃ (gap : Blanks) (cs' : List Char), cs = gap.chars ++ ']' :: cs' ∧
      next.tail = encodeChars cs') ∨
    (more = true ∧ first = true ∧ ∃ (gap : Blanks) (cs' : List Char), cs = gap.chars ++ cs' ∧
      next = encodeChars cs') ∨
    (more = true ∧ first = false ∧ ∃ (before after : Blanks) (cs' : List Char),
      cs = before.chars ++ ',' :: (after.chars ++ cs') ∧ next = encodeChars cs') := by
  rw [nextItem] at found
  cases start : skipSpace (encodeChars cs) with
  | nil =>
    rw [start] at found
    exact absurd found stop_ne_ok
  | cons b tail =>
    rw [start] at found
    dsimp only at found
    split_ifs at found with close isFirst comma
    · cases found
      subst close
      obtain ⟨gap, cs, rfl, rfl⟩ := skipSpace_eq_cons (by decide) start
      exact .inl ⟨rfl, gap, cs, rfl, rfl⟩
    · cases found
      obtain ⟨gap, cs, rfl, left⟩ := exists_gap cs
      exact .inr (.inl ⟨rfl, isFirst, gap, cs, rfl, start.symm.trans left⟩)
    · subst comma
      obtain ⟨before, cs, rfl, rfl⟩ := skipSpace_eq_cons (by decide) start
      cases later : skipSpace (encodeChars cs) with
      | nil =>
        rw [later] at found
        exact absurd found stop_ne_ok
      | cons c tail =>
        rw [later] at found
        dsimp only at found
        split_ifs at found
        · exact absurd found stopAt_ne_ok
        · cases found
          obtain ⟨after, cs, rfl, left⟩ := exists_gap cs
          exact .inr (.inr ⟨rfl, Bool.not_eq_true _ ▸ isFirst, before, after, cs, rfl, later.symm.trans left⟩)
    · exact absurd found stopAt_ne_ok

/-- Where the name of the next member of an object was found, after its opening quote. -/
theorem nextMember_eq_ok (found : nextMember first (encodeChars cs) = .ok (more, next)) :
    (more = false ∧ ∃ (gap : Blanks) (cs' : List Char), cs = gap.chars ++ '\x7d' :: cs' ∧
      next.tail = encodeChars cs') ∨
    (more = true ∧ first = true ∧ ∃ (gap : Blanks) (cs' : List Char), cs = gap.chars ++ '"' :: cs' ∧
      next = encodeChars cs') ∨
    (more = true ∧ first = false ∧ ∃ (before after : Blanks) (cs' : List Char),
      cs = before.chars ++ ',' :: (after.chars ++ '"' :: cs') ∧ next = encodeChars cs') := by
  rw [nextMember] at found
  cases start : skipSpace (encodeChars cs) with
  | nil =>
    rw [start] at found
    exact absurd found stop_ne_ok
  | cons b tail =>
    rw [start] at found
    dsimp only at found
    split_ifs at found with close isFirst quote comma
    · cases found
      subst close
      obtain ⟨gap, cs, rfl, rfl⟩ := skipSpace_eq_cons (by decide) start
      exact .inl ⟨rfl, gap, cs, rfl, rfl⟩
    · cases found
      subst quote
      obtain ⟨gap, cs, rfl, rfl⟩ := skipSpace_eq_cons (by decide) start
      exact .inr (.inl ⟨rfl, isFirst, gap, cs, rfl, rfl⟩)
    · exact absurd found stopAt_ne_ok
    · subst comma
      obtain ⟨before, cs, rfl, rfl⟩ := skipSpace_eq_cons (by decide) start
      cases later : skipSpace (encodeChars cs) with
      | nil =>
        rw [later] at found
        exact absurd found stop_ne_ok
      | cons c tail =>
        rw [later] at found
        dsimp only at found
        split_ifs at found with quote
        · cases found
          subst quote
          obtain ⟨after, cs, rfl, rfl⟩ := skipSpace_eq_cons (by decide) later
          exact .inr (.inr ⟨rfl, Bool.not_eq_true _ ▸ isFirst, before, after, cs, rfl, rfl⟩)
        · exact absurd found stopAt_ne_ok
        · exact absurd found stopAt_ne_ok
    · exact absurd found stopAt_ne_ok

/-- A colon that reads is one after blanks. -/
theorem readColon_eq_ok (found : readColon (encodeChars cs) = .ok next) :
    ∃ (gap : Blanks) (cs' : List Char), cs = gap.chars ++ ':' :: cs' ∧ next = encodeChars cs' := by
  rw [readColon] at found
  cases start : skipSpace (encodeChars cs) with
  | nil =>
    rw [start] at found
    exact absurd found stop_ne_ok
  | cons b tail =>
    rw [start] at found
    dsimp only at found
    split_ifs at found with colon
    · cases found
      subst colon
      exact skipSpace_eq_cons (by decide) start
    · exact absurd found stopAt_ne_ok

/-! ## Containers -/

/-- A text starts with blanks and a value that means the one that was read. -/
def SpellsValue (depth : Nat) (cs : List Char) (value : Json) (rest : Input) : Prop :=
  ∃ (gap : Blanks) (s : Spelling) (cs' : List Char), cs = gap.chars ++ (s.chars ++ cs') ∧
    rest = encodeChars cs' ∧ s.written.sorted = value ∧ s.written.depth < depth

/-- A text starts with the items of a list, from the first one on or from a later one. -/
def SpellsItems (first : Bool) (depth : Nat) (cs : List Char) (items : List Json) (rest : Input) : Prop :=
  if first then ∃ (s : Spelling) (written : List Json) (cs' : List Char), '[' :: cs = s.chars ++ cs' ∧
    rest = encodeChars cs' ∧ s.written = .array written ∧ written.map sorted = items ∧
    ∀ item ∈ written, item.depth < depth
  else ∃ (others : ItemsLeft) (cs' : List Char), cs = others.chars ++ cs' ∧ rest = encodeChars cs' ∧
    others.written.map sorted = items ∧ ∀ item ∈ others.written, item.depth < depth

/-- A text starts with the members of an object, from the first one on or from a later one. -/
def SpellsMembers (first : Bool) (depth : Nat) (cs : List Char) (members : List (String × Json))
    (rest : Input) : Prop :=
  if first then ∃ (s : Spelling) (written : List (String × Json)) (cs' : List Char),
    '\x7b' :: cs = s.chars ++ cs' ∧ rest = encodeChars cs' ∧ s.written = .object written ∧
    (written.map fun m => (m.1, m.2.sorted)) = members ∧ ∀ m ∈ written, m.2.depth < depth
  else ∃ (others : MembersLeft) (cs' : List Char), cs = others.chars ++ cs' ∧ rest = encodeChars cs' ∧
    (others.written.map fun m => (m.1, m.2.sorted)) = members ∧ ∀ m ∈ others.written, m.2.depth < depth

private theorem spellsValue_of_parts {cs : List Char} {value : Json} {rest : Input} (room : 0 < depth)
    (list : ∀ cs items rest, 1 < depth → readItems fuel (depth - 1) 0 (encodeChars cs) = .ok (items, rest) →
      SpellsItems true (depth - 1) cs items rest)
    (table : ∀ cs members rest, 1 < depth →
      readMembers fuel (depth - 1) true (encodeChars cs) = .ok (members, rest) →
      SpellsMembers true (depth - 1) cs members rest)
    (found : readDocument (fuel + 1) depth (encodeChars cs) = .ok (value, rest)) :
    SpellsValue depth cs value rest := by
  obtain ⟨gap, cs, rfl, start⟩ := exists_gap cs
  rw [readDocument, start] at found
  cases front : encodeChars cs with
  | nil =>
    rw [front] at found
    exact absurd found stop_ne_ok
  | cons b next =>
    rw [front] at found
    dsimp only at found
    split_ifs at found with bracket shallow brace shallow
    · exact absurd found stopAt_ne_ok
    · subst bracket
      obtain ⟨cs, rfl, rfl⟩ := encodeChars_eq_ascii_cons (by decide) front
      obtain ⟨⟨items, left⟩, read, same⟩ := bind_eq_ok.mp found
      cases same
      obtain ⟨s, written, cs', text, rfl, means, rfl, deep⟩ := list _ _ _ (by omega) read
      refine ⟨gap, s, cs', by rw [text], rfl, by rw [means, sorted_array], ?_⟩
      obtain ⟨depth, rfl⟩ : ∃ d, depth = d + 2 := ⟨depth - 2, by omega⟩
      rw [means]
      exact Nat.lt_succ_of_le (depth_array_le_succ.mpr fun item among => Nat.le_of_lt_succ (deep item among))
    · exact absurd found stopAt_ne_ok
    · subst brace
      obtain ⟨cs, rfl, rfl⟩ := encodeChars_eq_ascii_cons (by decide) front
      obtain ⟨⟨members, left⟩, read, same⟩ := bind_eq_ok.mp found
      cases same
      obtain ⟨s, written, cs', text, rfl, means, rfl, deep⟩ := table _ _ _ (by omega) read
      refine ⟨gap, s, cs', by rw [text], rfl, by rw [means, sorted_object], ?_⟩
      obtain ⟨depth, rfl⟩ : ∃ d, depth = d + 2 := ⟨depth - 2, by omega⟩
      rw [means]
      exact Nat.lt_succ_of_le (depth_object_le_succ.mpr fun m among => Nat.le_of_lt_succ (deep m among))
    · obtain ⟨scalar, cs', rfl, rfl, rfl⟩ := readScalar_eq_ok front found
      refine ⟨gap, .scalar scalar, cs', rfl, rfl, ?_, ?_⟩
      · cases scalar <;> rfl
      · cases scalar <;> exact room

private theorem spellsItems_of_parts {cs : List Char} {items : List Json} {rest : Input}
    (item : ∀ cs value rest, readDocument fuel depth (encodeChars cs) = .ok (value, rest) →
      SpellsValue depth cs value rest)
    (later : ∀ cs items rest, readItems fuel depth (index + 1) (encodeChars cs) = .ok (items, rest) →
      SpellsItems false depth cs items rest)
    (found : readItems (fuel + 1) depth index (encodeChars cs) = .ok (items, rest)) :
    SpellsItems (index == 0) depth cs items rest := by
  rw [readItems] at found
  obtain ⟨⟨more, next⟩, step, branch⟩ := bind_eq_ok.mp found
  rcases nextItem_eq_ok (within_eq_ok.mp step) with ⟨rfl, gap, cs, rfl, left⟩ |
    ⟨rfl, isFirst, gap, cs, rfl, rfl⟩ | ⟨rfl, isLater, before, after, cs, rfl, rfl⟩
  · obtain ⟨rfl, rfl⟩ := Prod.mk.inj (Except.ok.inj branch)
    cases index with
    | zero => exact ⟨.emptyArray gap, [], cs, by simp [Spelling.chars], left, rfl, rfl, List.forall_mem_nil _⟩
    | succ index => exact ⟨.close gap, cs, by simp [ItemsLeft.chars], left, rfl, List.forall_mem_nil _⟩
  · obtain ⟨⟨value, after⟩, read, branch⟩ := bind_eq_ok.mp branch
    obtain ⟨⟨others, last⟩, following, same⟩ := bind_eq_ok.mp branch
    cases same
    obtain ⟨inner, s, cs, rfl, rfl, rfl, shallow⟩ := item _ _ _ (within_eq_ok.mp read)
    obtain ⟨left, cs, rfl, rfl, rfl, each⟩ := later _ _ _ following
    rw [isFirst]
    refine ⟨.array (gap.append inner) s left, s.written :: left.written, cs, ?_, rfl, rfl, rfl,
      List.forall_mem_cons.mpr ⟨shallow, each⟩⟩
    simp [Spelling.chars, Blanks.append]
  · obtain ⟨⟨value, left⟩, read, branch⟩ := bind_eq_ok.mp branch
    obtain ⟨⟨others, last⟩, following, same⟩ := bind_eq_ok.mp branch
    cases same
    obtain ⟨inner, s, cs, rfl, rfl, rfl, shallow⟩ := item _ _ _ (within_eq_ok.mp read)
    obtain ⟨left, cs, rfl, rfl, rfl, each⟩ := later _ _ _ following
    rw [isLater]
    refine ⟨.item before (after.append inner) s left, cs, ?_, rfl, rfl, List.forall_mem_cons.mpr ⟨shallow, each⟩⟩
    simp [ItemsLeft.chars, Blanks.append]

private theorem spellsMembers_of_parts {cs : List Char} {members : List (String × Json)} {rest : Input}
    (item : ∀ cs value rest, readDocument fuel depth (encodeChars cs) = .ok (value, rest) →
      SpellsValue depth cs value rest)
    (later : ∀ cs members rest, readMembers fuel depth false (encodeChars cs) = .ok (members, rest) →
      SpellsMembers false depth cs members rest)
    (found : readMembers (fuel + 1) depth first (encodeChars cs) = .ok (members, rest)) :
    SpellsMembers first depth cs members rest := by
  rw [readMembers] at found
  obtain ⟨⟨more, next⟩, step, branch⟩ := bind_eq_ok.mp found
  rcases nextMember_eq_ok step with ⟨rfl, gap, cs, rfl, left⟩ |
    ⟨rfl, rfl, gap, cs, rfl, rfl⟩ | ⟨rfl, rfl, before, gap, cs, rfl, rfl⟩
  · obtain ⟨rfl, rfl⟩ := Prod.mk.inj (Except.ok.inj branch)
    cases first with
    | true => exact ⟨.emptyObject gap, [], cs, by simp [Spelling.chars], left, rfl, rfl, List.forall_mem_nil _⟩
    | false => exact ⟨.close gap, cs, by simp [MembersLeft.chars], left, rfl, List.forall_mem_nil _⟩
  all_goals
    obtain ⟨⟨name, colon⟩, key, branch⟩ := bind_eq_ok.mp branch
    obtain ⟨⟨value, left⟩, member, branch⟩ := bind_eq_ok.mp branch
    obtain ⟨start, sign, member⟩ := bind_eq_ok.mp (within_eq_ok.mp member)
    obtain ⟨⟨others, last⟩, following, same⟩ := bind_eq_ok.mp branch
    cases same
    obtain ⟨pieces, cs, rfl, rfl, rfl⟩ := readText_eq_ok key
    obtain ⟨after, cs, rfl, rfl⟩ := readColon_eq_ok sign
    obtain ⟨inner, s, cs, rfl, rfl, rfl, shallow⟩ := item _ _ _ member
    obtain ⟨left, cs, rfl, rfl, rfl, each⟩ := later _ _ _ following
  · refine ⟨.object ⟨gap, pieces, after⟩ inner s left, (meant pieces, s.written) :: left.written, cs, ?_, rfl,
      rfl, rfl, List.forall_mem_cons.mpr ⟨shallow, each⟩⟩
    simp [Spelling.chars, Label.chars, quoted]
  · refine ⟨.member before ⟨gap, pieces, after⟩ inner s left, cs, ?_, rfl, rfl,
      List.forall_mem_cons.mpr ⟨shallow, each⟩⟩
    simp [MembersLeft.chars, Label.chars, quoted]

/-- What the three readers take with some fuel; the induction is on the fuel they share. -/
private theorem spells_all (fuel : Nat) :
    (∀ depth cs value rest, 0 < depth → readDocument fuel depth (encodeChars cs) = .ok (value, rest) →
      SpellsValue depth cs value rest) ∧
    (∀ depth index cs items rest, 0 < depth →
      readItems fuel depth index (encodeChars cs) = .ok (items, rest) →
      SpellsItems (index == 0) depth cs items rest) ∧
    (∀ depth first cs members rest, 0 < depth →
      readMembers fuel depth first (encodeChars cs) = .ok (members, rest) →
      SpellsMembers first depth cs members rest) := by
  induction fuel with
  | zero =>
    refine ⟨?_, ?_, ?_⟩
    · intro depth cs value rest _ found
      rw [readDocument] at found
      exact absurd found stop_ne_ok
    · intro depth index cs items rest _ found
      rw [readItems] at found
      exact absurd found stop_ne_ok
    · intro depth first cs members rest _ found
      rw [readMembers] at found
      exact absurd found stop_ne_ok
  | succ fuel ih =>
    obtain ⟨document, list, table⟩ := ih
    refine ⟨?_, ?_, ?_⟩
    · intro depth cs value rest room
      exact spellsValue_of_parts room (fun cs items rest deep => list _ _ cs items rest (by omega))
        (fun cs members rest deep => table _ _ cs members rest (by omega))
    · intro depth index cs items rest room
      exact spellsItems_of_parts (fun cs value rest => document _ cs value rest room)
        (fun cs items rest => list _ _ cs items rest room)
    · intro depth first cs members rest room
      exact spellsMembers_of_parts (fun cs value rest => document _ cs value rest room)
        (fun cs members rest => table _ _ cs members rest room)

/-- Every text that can be read has a spelling, which means the document that was read. -/
theorem exists_spelling {text : List Char} (found : read (encodeChars text) = .ok value) :
    ∃ s : TextSpelling, s.chars = text ∧ s.root.written.sorted = value ∧ s.root.written.depth < depthLimit := by
  rw [read] at found
  obtain ⟨⟨document, left⟩, taken, found⟩ := bind_eq_ok.mp found
  obtain ⟨_, ended, same⟩ := bind_eq_ok.mp found
  cases same
  obtain ⟨before, root, cs, rfl, rfl, rfl, shallow⟩ := (spells_all _).1 _ _ _ _ (by decide) taken
  obtain ⟨after, cs, rfl, last⟩ := exists_gap cs
  rw [readEnd.eq_def, last] at ended
  cases cs with
  | nil => exact ⟨⟨before, root, after⟩, by simp [TextSpelling.chars], rfl, shallow⟩
  | cons c cs =>
    obtain ⟨b, tail, bytes⟩ := List.exists_cons_of_length_pos (length_encodeChar_pos c)
    rw [encodeChars_cons, bytes] at ended
    exact absurd ended stopAt_ne_ok

end Tenancy.Json
