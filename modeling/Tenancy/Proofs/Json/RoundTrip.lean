import Tenancy.Proofs.Json.Reading
import Tenancy.Proofs.Json.Written

/-! # Reading undoes writing

A document whose numbers are integers of 64 bits is read back from its text, with the members of its
objects put in order. The reader opens no more containers at once than it allows, so that the text of a
deeper document is refused; `read_encode` therefore asks for the depth of the document.
-/

namespace Tenancy.Json

open Text.Utf8

variable {fuel depth index : Nat} {input next rest : Input} {value : Json} {items : List Json}
  {name : String} {members : List (String × Json)}

/-! ## One step of a reader -/

theorem readDocument_list (room : 1 < depth)
    (list : readItems fuel (depth - 1) 0 next = .ok (items, rest)) :
    readDocument (fuel + 1) depth (ascii '[' :: next) = .ok (.array items, rest) := by
  rw [readDocument, skipSpace_cons _ (by decide)]
  simp only [if_true, if_neg (Nat.not_le_of_lt room), list]
  rfl

theorem readDocument_table (room : 1 < depth)
    (table : readMembers fuel (depth - 1) true next = .ok (members, rest)) :
    readDocument (fuel + 1) depth (ascii '\x7b' :: next) = .ok (.object (ofMembers members), rest) := by
  have brace : ¬ ascii '\x7b' = ascii '[' := by decide
  rw [readDocument, skipSpace_cons _ (by decide)]
  simp only [if_neg brace, if_true, if_neg (Nat.not_le_of_lt room), table]
  rfl

/-- One more item in front of a list that reads makes a list that reads. -/
theorem readItems_more {first : Bool} (isFirst : (index == 0) = first)
    (more : nextItem first input = .ok (true, next))
    (item : readDocument fuel depth next = .ok (value, rest))
    {last : Input} (others : readItems fuel depth (index + 1) rest = .ok (items, last)) :
    readItems (fuel + 1) depth index input = .ok (value :: items, last) := by
  simp [readItems, isFirst, more, item, others, bind, Except.bind, pure, Except.pure]

/-- One more member in front of a table that reads makes a table that reads. -/
theorem readMembers_more {first : Bool} (more : nextMember first input = .ok (true, next))
    {colon : Input} (key : readText next = .ok (name, ascii ':' :: colon))
    (member : readDocument fuel depth colon = .ok (value, rest))
    {last : Input} (others : readMembers fuel depth false rest = .ok (members, last)) :
    readMembers (fuel + 1) depth first input = .ok ((name, value) :: members, last) := by
  simp [readMembers, more, key, member, others, readColon_colon, bind, Except.bind, pure, Except.pure]

theorem readItems_end (fuel depth index : Nat) (rest : Input) :
    readItems (fuel + 1) depth index (ascii ']' :: rest) = .ok ([], rest) := by
  simp [readItems, nextItem_end, bind, Except.bind, pure, Except.pure]

theorem readMembers_end (fuel depth : Nat) (first : Bool) (rest : Input) :
    readMembers (fuel + 1) depth first (ascii '\x7d' :: rest) = .ok ([], rest) := by
  simp [readMembers, nextMember_end, bind, Except.bind, pure, Except.pure]

/-! ## Values -/

/-- The value is read back from its text, wherever that text stands. -/
def ReadsBack (j : Json) : Prop :=
  ∀ fuel depth rest, j.depth < depth → j.encode.length ≤ fuel → endsNumber rest →
    readDocument fuel depth (j.encode ++ rest) = .ok (j.sorted, rest)

private theorem readDocument_scalar {j : Json} (scalar : j.isScalar) (integral : j.isIntegral) :
    ReadsBack j := by
  intro fuel depth rest shallow enough ends
  obtain ⟨b, tail, text⟩ := exists_scalarText scalar integral
  have noBracket := text.noBracket
  simp only [isBracket, Bool.or_eq_false_iff, beq_eq_false_iff_ne] at noBracket
  have sorted : j.sorted = j := by cases j <;> first | rfl | exact (Bool.false_ne_true scalar).elim
  rw [text.encode_eq, List.length_cons] at enough
  obtain ⟨fuel, rfl⟩ := Nat.exists_eq_succ_of_ne_zero (by omega : fuel ≠ 0)
  rw [text.encode_eq, List.cons_append, readDocument, skipSpace_cons _ (opensValue_solid text.opens)]
  simp only [if_neg noBracket.1, if_neg noBracket.2, text.readScalar_eq rest ends, sorted]

private theorem readItems_itemsBytes (integral : ∀ item ∈ items, item.isIntegral)
    (back : ∀ item ∈ items, ReadsBack item) :
    ∀ fuel index, (∀ item ∈ items, item.depth < depth) → (itemsBytes items).length ≤ fuel →
      readItems fuel depth (index + 1) (itemsBytes items ++ rest) = .ok (items.map sorted, rest) := by
  induction items with
  | nil =>
    intro fuel index shallow enough
    rw [itemsBytes_nil, List.length_singleton] at enough
    obtain ⟨fuel, rfl⟩ := Nat.exists_eq_succ_of_ne_zero (by omega : fuel ≠ 0)
    exact readItems_end fuel depth (index + 1) rest
  | cons item items ih =>
    intro fuel index shallow enough
    rw [List.forall_mem_cons] at integral back shallow
    rw [itemsBytes_cons, List.length_cons, List.length_append] at enough
    obtain ⟨fuel, rfl⟩ := Nat.exists_eq_succ_of_ne_zero (by omega : fuel ≠ 0)
    rw [itemsBytes_cons, List.cons_append, List.append_assoc]
    exact readItems_more (show (index + 1 == 0) = false from rfl) (nextItem_comma integral.1 _)
      (back.1 fuel depth _ shallow.1 (by omega) (endsNumber_itemsBytes rest))
      (ih integral.2 back.2 fuel (index + 1) shallow.2 (by omega))

private theorem readItems_listBytes (integral : ∀ item ∈ items, item.isIntegral)
    (back : ∀ item ∈ items, ReadsBack item) (shallow : ∀ item ∈ items, item.depth < depth)
    (enough : (listBytes items).length ≤ fuel) :
    readItems fuel depth 0 (listBytes items ++ rest) = .ok (items.map sorted, rest) := by
  cases items with
  | nil =>
    rw [listBytes, List.length_singleton] at enough
    obtain ⟨fuel, rfl⟩ := Nat.exists_eq_succ_of_ne_zero (by omega : fuel ≠ 0)
    exact readItems_end fuel depth 0 rest
  | cons item items =>
    rw [List.forall_mem_cons] at integral back shallow
    have opening := length_encode_pos integral.1
    have closing := length_itemsBytes_pos items
    rw [listBytes, List.length_append] at enough
    obtain ⟨fuel, rfl⟩ := Nat.exists_eq_succ_of_ne_zero (by omega : fuel ≠ 0)
    rw [listBytes, List.append_assoc]
    exact readItems_more (show (0 == 0) = true from rfl) (nextItem_first integral.1 _)
      (back.1 fuel depth _ shallow.1 (by omega) (endsNumber_itemsBytes rest))
      (readItems_itemsBytes integral.2 back.2 fuel 0 shallow.2 (by omega))

private theorem readMembers_memberBytes {first : Bool} (name : String)
    (more : nextMember first input = .ok (true, memberBytes name value members ++ rest))
    (back : ReadsBack value) (shallow : value.depth < depth)
    (enough : (memberBytes name value members).length ≤ fuel) {others : List (String × Json)}
    (following : readMembers fuel depth false (membersBytes members ++ rest) = .ok (others, rest)) :
    readMembers (fuel + 1) depth first input = .ok ((name, value.sorted) :: others, rest) := by
  rw [length_memberBytes] at enough
  exact readMembers_more more (readText_memberBytes name value members rest)
    (back fuel depth _ shallow (by omega) (endsNumber_membersBytes rest)) following

private theorem readMembers_membersBytes (integral : ∀ m ∈ members, m.2.isIntegral)
    (back : ∀ m ∈ members, ReadsBack m.2) (shallow : ∀ m ∈ members, m.2.depth < depth) :
    ∀ fuel, (membersBytes members).length ≤ fuel →
      readMembers fuel depth false (membersBytes members ++ rest) =
        .ok (members.map fun m => (m.1, m.2.sorted), rest) := by
  induction members with
  | nil =>
    intro fuel enough
    rw [membersBytes_nil, List.length_singleton] at enough
    obtain ⟨fuel, rfl⟩ := Nat.exists_eq_succ_of_ne_zero (by omega : fuel ≠ 0)
    exact readMembers_end fuel depth false rest
  | cons m members ih =>
    obtain ⟨name, value⟩ := m
    intro fuel enough
    rw [List.forall_mem_cons] at integral back shallow
    rw [membersBytes_cons, List.length_cons, List.length_cons] at enough
    obtain ⟨fuel, rfl⟩ := Nat.exists_eq_succ_of_ne_zero (by omega : fuel ≠ 0)
    have fits : (memberBytes name value members).length ≤ fuel := by omega
    have length := length_memberBytes name value members
    refine readMembers_memberBytes name ?_ back.1 shallow.1 fits
      (ih integral.2 back.2 shallow.2 fuel (by omega))
    rw [membersBytes_cons, List.cons_append, List.cons_append, nextMember_comma]

private theorem readMembers_tableBytes (integral : ∀ m ∈ members, m.2.isIntegral)
    (back : ∀ m ∈ members, ReadsBack m.2) (shallow : ∀ m ∈ members, m.2.depth < depth)
    (enough : (tableBytes members).length ≤ fuel) :
    readMembers fuel depth true (tableBytes members ++ rest) =
      .ok (members.map fun m => (m.1, m.2.sorted), rest) := by
  cases members with
  | nil =>
    rw [tableBytes, List.length_singleton] at enough
    obtain ⟨fuel, rfl⟩ := Nat.exists_eq_succ_of_ne_zero (by omega : fuel ≠ 0)
    exact readMembers_end fuel depth true rest
  | cons m members =>
    obtain ⟨name, value⟩ := m
    rw [List.forall_mem_cons] at integral back shallow
    rw [tableBytes, List.length_cons] at enough
    obtain ⟨fuel, rfl⟩ := Nat.exists_eq_succ_of_ne_zero (by omega : fuel ≠ 0)
    have fits : (memberBytes name value members).length ≤ fuel := by omega
    have length := length_memberBytes name value members
    refine readMembers_memberBytes name ?_ back.1 shallow.1 fits
      (readMembers_membersBytes integral.2 back.2 shallow.2 fuel (by omega))
    rw [tableBytes, List.cons_append, nextMember_first]

/-- A value with integers of 64 bits for its numbers is read back from its text. -/
theorem readsBack (j : Json) (integral : j.isIntegral) : ReadsBack j := by
  induction j using parts_induction with
  | null | bool b | number n | string s => exact readDocument_scalar rfl integral
  | array items ih =>
    intro fuel depth rest shallow enough _
    rw [isIntegral_array] at integral
    obtain ⟨depth, rfl⟩ := Nat.exists_eq_succ_of_ne_zero (by omega : depth ≠ 0)
    have inner : ∀ item ∈ items, item.depth < depth := by
      cases depth with
      | zero => rw [depth] at shallow; omega
      | succ depth =>
        have parts := depth_array_le_succ.mp (Nat.le_of_lt_succ shallow)
        exact fun item present => Nat.lt_succ_of_le (parts item present)
    have room : 1 < depth + 1 := by rw [Json.depth] at shallow; omega
    rw [encode_array, List.length_cons] at enough
    obtain ⟨fuel, rfl⟩ := Nat.exists_eq_succ_of_ne_zero (by omega : fuel ≠ 0)
    rw [encode_array, List.cons_append, sorted_array]
    exact readDocument_list room
      (readItems_listBytes integral (fun item present => ih item present (integral item present)) inner
        (Nat.le_of_succ_le_succ enough))
  | object members ih =>
    intro fuel depth rest shallow enough _
    rw [isIntegral_object] at integral
    obtain ⟨depth, rfl⟩ := Nat.exists_eq_succ_of_ne_zero (by omega : depth ≠ 0)
    have inner : ∀ m ∈ members, m.2.depth < depth := by
      cases depth with
      | zero => rw [depth] at shallow; omega
      | succ depth =>
        have parts := depth_object_le_succ.mp (Nat.le_of_lt_succ shallow)
        exact fun m present => Nat.lt_succ_of_le (parts m present)
    have room : 1 < depth + 1 := by rw [Json.depth] at shallow; omega
    rw [encode_object, List.length_cons] at enough
    obtain ⟨fuel, rfl⟩ := Nat.exists_eq_succ_of_ne_zero (by omega : fuel ≠ 0)
    rw [encode_object, List.cons_append, sorted_object]
    exact readDocument_table room
      (readMembers_tableBytes integral (fun m present => ih m present (integral m present)) inner
        (Nat.le_of_succ_le_succ enough))

/-- A document is read from its text if fewer containers are open at once than allowed, and no deeper one is;
its depth has to be that of the document in order, which may have lost members. -/
theorem toOption_readDocument_sorted {j : Json} (integral : j.isIntegral) (same : j.sorted.depth = j.depth)
    (room : 0 < depth) (enough : j.encode.length ≤ fuel) (ends : endsNumber rest) :
    (readDocument fuel depth (j.encode ++ rest)).toOption =
      if j.depth < depth then some (j.sorted, rest) else none := by
  split_ifs with shallow
  · rw [readsBack j integral fuel depth rest shallow enough ends]
    rfl
  · cases found : readDocument fuel depth (j.encode ++ rest) with
    | error e => rfl
    | ok result =>
      obtain ⟨value, last⟩ := result
      have well := wellRead_of_readDocument room found
      have deeper := readDocument_mono (Nat.le_max_left depth (j.depth + 1)) found
      have whole := readsBack j integral fuel (max depth (j.depth + 1)) rest
        (Nat.lt_of_lt_of_le (Nat.lt_succ_self _) (Nat.le_max_right ..)) enough ends
      rw [deeper] at whole
      cases whole
      exact absurd (same ▸ well.2) shallow

/-- A document in order is read from its text if fewer containers are open at once than allowed, and no
deeper one is. -/
theorem toOption_readDocument {j : Json} (integral : j.isIntegral) (ordered : j.isOrdered)
    (room : 0 < depth) (enough : j.encode.length ≤ fuel) (ends : endsNumber rest) :
    (readDocument fuel depth (j.encode ++ rest)).toOption =
      if j.depth < depth then some (j, rest) else none := by
  have same := sorted_eq_self j ordered
  rw [toOption_readDocument_sorted integral (by rw [same]) room enough ends, same]

/-! ## Whole texts -/

/-- The text of a document that is not too deep is read as the document with its members in order. -/
theorem read_encode_sorted {j : Json} (integral : j.isIntegral) (shallow : j.depth < depthLimit) :
    read j.encode = .ok j.sorted := by
  have document := readsBack j integral (readFuel j.encode) depthLimit [] shallow
    (by rw [readFuel]; omega) rfl
  rw [List.append_nil] at document
  rw [read, document]
  rfl

/-- The text of a document in order that is not too deep is read as the document. -/
theorem read_encode {j : Json} (integral : j.isIntegral) (ordered : j.isOrdered)
    (shallow : j.depth < depthLimit) : read j.encode = .ok j := by
  rw [read_encode_sorted integral shallow, sorted_eq_self j ordered]

/-- The text of a document in order that is too deep is not read. -/
theorem read_encode_of_deep {j : Json} (integral : j.isIntegral) (ordered : j.isOrdered)
    (deep : depthLimit ≤ j.depth) : ∃ e, read j.encode = .error e := by
  have enough : j.encode.length ≤ readFuel j.encode := by
    rw [readFuel]
    omega
  have document : (readDocument (readFuel j.encode) depthLimit (j.encode ++ [])).toOption = _ :=
    toOption_readDocument integral ordered (by decide) enough rfl
  rw [List.append_nil, if_neg (Nat.not_lt.mpr deep)] at document
  rw [read]
  cases found : readDocument (readFuel j.encode) depthLimit j.encode with
  | error e => exact ⟨e, rfl⟩
  | ok result =>
    rw [found] at document
    cases document

end Tenancy.Json
