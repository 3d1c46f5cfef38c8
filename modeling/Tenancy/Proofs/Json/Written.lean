import Tenancy.Proofs.Json.Scalar

/-! # What a written value looks like

The bytes of a container are those of its parts with punctuation between them, and the steps that find
the next part of a container find it there. Readers of every kind take a written value apart by these
equations.
-/

namespace Tenancy.Json

open Text.Utf8

variable {item value : Json} {items : List Json} {name : String} {members : List (String × Json)}

/-! ## Bytes -/

/-- The bytes of the items after the first, and the closing bracket. -/
def itemsBytes (items : List Json) : List UInt8 := encodeChars (renderItems items)

/-- The bytes of a list after its opening bracket. -/
def listBytes : List Json → List UInt8
  | [] => [ascii ']']
  | item :: items => item.encode ++ itemsBytes items

/-- The bytes of the members after the first, and the closing brace. -/
def membersBytes (members : List (String × Json)) : List UInt8 := encodeChars (renderMembers members)

/-- The bytes of a member after the opening quote of its name, and of the members that follow. -/
def memberBytes (name : String) (value : Json) (members : List (String × Json)) : List UInt8 :=
  textBytes name ++ ascii '"' :: ascii ':' :: (value.encode ++ membersBytes members)

/-- The bytes of an object after its opening brace. -/
def tableBytes : List (String × Json) → List UInt8
  | [] => [ascii '\x7d']
  | (name, value) :: members => ascii '"' :: memberBytes name value members

theorem itemsBytes_nil : itemsBytes [] = [ascii ']'] := rfl

theorem itemsBytes_cons : itemsBytes (item :: items) =
    ascii ',' :: (item.encode ++ itemsBytes items) := by
  simp only [itemsBytes, renderItems, encodeChars_cons, encodeChars_append, encode,
    encodeChar_ascii (show (',' : Char).toNat < 0x80 by decide), List.singleton_append]

theorem length_memberBytes (name : String) (value : Json) (members : List (String × Json)) :
    (memberBytes name value members).length =
    (textBytes name).length + 2 + value.encode.length + (membersBytes members).length := by
  simp only [memberBytes, List.length_append, List.length_cons]
  omega

/-- The name of a written member reads back, up to its colon. -/
theorem readText_memberBytes (name : String) (value : Json) (members : List (String × Json))
    (rest : Input) : readText (memberBytes name value members ++ rest) =
      .ok (name, ascii ':' :: (value.encode ++ (membersBytes members ++ rest))) := by
  rw [memberBytes, List.append_assoc, List.cons_append, readText_textBytes, List.cons_append,
    List.append_assoc]

theorem membersBytes_nil : membersBytes [] = [ascii '\x7d'] := rfl

private theorem encodeChars_member : encodeChars (renderText name ++ ':' :: (renderChars value ++
    renderMembers members)) = ascii '"' :: memberBytes name value members := by
  simp only [encodeChars_append, encodeChars_cons, encodeChars_renderText, encode, memberBytes,
    membersBytes, encodeChar_ascii (show (':' : Char).toNat < 0x80 by decide), List.nil_append,
    List.cons_append, List.append_assoc]

theorem membersBytes_cons : membersBytes ((name, value) :: members) =
    ascii ',' :: ascii '"' :: memberBytes name value members := by
  rw [membersBytes, renderMembers, encodeChars_cons, encodeChars_member,
    encodeChar_ascii (show (',' : Char).toNat < 0x80 by decide), List.singleton_append]

theorem encode_array : (array items).encode = ascii '[' :: listBytes items := by
  cases items with
  | nil => rfl
  | cons item items =>
    simp only [encode, renderChars, encodeChars_cons, encodeChars_append, listBytes, itemsBytes,
      encodeChar_ascii (show ('[' : Char).toNat < 0x80 by decide), List.singleton_append]

theorem encode_object : (object members).encode = ascii '\x7b' :: tableBytes members := by
  cases members with
  | nil => rfl
  | cons m members =>
    obtain ⟨name, value⟩ := m
    rw [encode, renderChars, encodeChars_cons, encodeChars_member,
      encodeChar_ascii (show ('\x7b' : Char).toNat < 0x80 by decide), List.singleton_append, tableBytes]

private theorem length_le_length_membersBytes (present : (name, value) ∈ members) :
    (textBytes name).length + value.encode.length + 5 ≤ (membersBytes members).length := by
  induction members with
  | nil => exact absurd present List.not_mem_nil
  | cons entry members ih =>
    obtain ⟨key, first⟩ := entry
    rw [membersBytes_cons, List.length_cons, List.length_cons, length_memberBytes]
    rcases List.mem_cons.mp present with same | later
    · cases same
      have closing : 0 < (membersBytes members).length := by
        cases members with
        | nil => rw [membersBytes_nil]; exact Nat.one_pos
        | cons m members => rw [membersBytes_cons]; exact Nat.succ_pos _
      omega
    · have below := ih later
      omega

/-- An object takes five bytes more than any of its members with its name. -/
theorem length_le_length_object (present : (name, value) ∈ members) :
    (textBytes name).length + value.encode.length + 5 ≤ (object members).encode.length := by
  cases members with
  | nil => exact absurd present List.not_mem_nil
  | cons entry members =>
    have bytes : (membersBytes (entry :: members)).length = (object (entry :: members)).encode.length := by
      obtain ⟨name, value⟩ := entry
      simp only [membersBytes_cons, encode_object, tableBytes, List.length_cons]
    rw [← bytes]
    exact length_le_length_membersBytes present

/-! ## Where values start and end -/

/-- Every written value starts with a byte that opens one. -/
theorem encode_opens {j : Json} (integral : j.isIntegral) :
    ∃ b tail, j.encode = b :: tail ∧ opensValue b := by
  by_cases scalar : j.isScalar
  · obtain ⟨b, tail, text⟩ := exists_scalarText scalar integral
    exact ⟨b, tail, text.encode_eq, text.opens⟩
  · cases j with
    | array items => exact ⟨_, _, encode_array, by decide⟩
    | object members => exact ⟨_, _, encode_object, by decide⟩
    | _ => exact absurd rfl scalar

theorem length_encode_pos {j : Json} (integral : j.isIntegral) : 0 < j.encode.length := by
  obtain ⟨b, tail, bytes, -⟩ := encode_opens integral
  rw [bytes, List.length_cons]
  omega

theorem length_itemsBytes_pos (items : List Json) : 0 < (itemsBytes items).length := by
  cases items with
  | nil => rw [itemsBytes_nil]; exact Nat.one_pos
  | cons item items => rw [itemsBytes_cons]; exact Nat.succ_pos _

theorem endsNumber_itemsBytes (rest : Input) : endsNumber (itemsBytes items ++ rest) := by
  cases items with
  | nil => rfl
  | cons item items => rw [itemsBytes_cons]; rfl

theorem endsNumber_membersBytes (rest : Input) : endsNumber (membersBytes members ++ rest) := by
  cases members with
  | nil => rfl
  | cons m members => rw [membersBytes_cons]; rfl

/-! ## Finding the next part -/

theorem nextItem_end (first : Bool) (rest : Input) :
    nextItem first (ascii ']' :: rest) = .ok (false, ascii ']' :: rest) := rfl

theorem nextItem_first (integral : item.isIntegral) (rest : Input) :
    nextItem true (item.encode ++ rest) = .ok (true, item.encode ++ rest) := by
  obtain ⟨b, tail, bytes, opens⟩ := encode_opens integral
  obtain ⟨notEnd, -, -⟩ := opensValue_ne opens
  rw [bytes, List.cons_append, nextItem, skipSpace_cons _ (opensValue_solid opens)]
  simp only [if_neg notEnd, if_true]

theorem nextItem_comma (integral : item.isIntegral) (rest : Input) :
    nextItem false (ascii ',' :: (item.encode ++ rest)) = .ok (true, item.encode ++ rest) := by
  obtain ⟨b, tail, bytes, opens⟩ := encode_opens integral
  obtain ⟨notEnd, -, -⟩ := opensValue_ne opens
  have comma : ¬ ascii ',' = ascii ']' := by decide
  rw [bytes, List.cons_append, nextItem, skipSpace_cons _ (by decide)]
  simp only [if_neg comma, Bool.false_eq_true, if_false, if_true,
    skipSpace_cons _ (opensValue_solid opens), if_neg notEnd]

theorem nextMember_end (first : Bool) (rest : Input) :
    nextMember first (ascii '\x7d' :: rest) = .ok (false, ascii '\x7d' :: rest) := rfl

theorem nextMember_first (rest : Input) : nextMember true (ascii '"' :: rest) = .ok (true, rest) := rfl

theorem nextMember_comma (rest : Input) :
    nextMember false (ascii ',' :: ascii '"' :: rest) = .ok (true, rest) := rfl

theorem readColon_colon (rest : Input) : readColon (ascii ':' :: rest) = .ok rest := rfl

@[simp] theorem within_ok {α : Type} (step : Step) (v : α) : within step (.ok v) = .ok v := rfl

end Tenancy.Json
