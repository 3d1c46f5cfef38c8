import Mathlib.Tactic.SplitIfs
import Tenancy.Text.Utf8

/-! # Decoding what was encoded

One character comes back from its bytes, whatever follows them. Above ASCII the first byte of a
character is at least `0x80`, so that it can be taken for neither a quote, a backslash nor a control.
-/

namespace Tenancy.Text.Utf8

theorem byte_toNat {n : Nat} (small : n < 0x100) : (byte n).toNat = n := by
  rw [byte, UInt8.toNat_ofNat']
  omega

theorem continuation?_byte {n : Nat} (small : n < 0x40) : continuation? (byte (0x80 + n)) = some n := by
  rw [continuation?, byte_toNat (by omega), if_pos (by omega), Nat.add_sub_cancel_left]

theorem toNat_lt (c : Char) : c.toNat < 0x110000 := by
  have valid : c.toNat.isValidChar := c.valid
  rcases valid with small | ⟨_, large⟩
  · omega
  · exact large

theorem character?_toNat {least : Nat} {c : Char} (enough : least ≤ c.toNat) :
    character? least c.toNat = some c := by
  have valid : c.toNat.isValidChar := c.valid
  rw [character?, if_pos ⟨enough, valid⟩, Char.ofNat_toNat]

@[simp] theorem encodeChars_nil : encodeChars [] = [] := rfl

@[simp] theorem encodeChars_cons (c : Char) (cs : List Char) :
    encodeChars (c :: cs) = encodeChar c ++ encodeChars cs := rfl

@[simp] theorem encodeChars_append (cs ds : List Char) :
    encodeChars (cs ++ ds) = encodeChars cs ++ encodeChars ds := List.flatMap_append

theorem encodeChar_of_lt {c : Char} (narrow : c.toNat < 0x80) : encodeChar c = [byte c.toNat] := by
  simp only [encodeChar, if_pos narrow]

/-- Above ASCII no byte of a character is one of ASCII. -/
theorem le_toNat_of_mem_encodeChar {c : Char} {b : UInt8} (wide : 0x80 ≤ c.toNat)
    (present : b ∈ encodeChar c) : 0x80 ≤ b.toNat := by
  have bound := toNat_lt c
  simp only [encodeChar, if_neg (show ¬ c.toNat < 0x80 by omega)] at present
  split_ifs at present
  all_goals
    simp only [List.mem_cons, List.not_mem_nil, or_false] at present
    rcases present with rfl | rfl | rfl | rfl <;> (rw [byte_toNat (by omega)]; omega)

theorem length_encodeChar_pos (c : Char) : 0 < (encodeChar c).length := by
  simp only [encodeChar]
  split_ifs <;> simp

theorem length_le_length_encodeChars (cs : List Char) : cs.length ≤ (encodeChars cs).length := by
  induction cs with
  | nil => simp
  | cons c cs ih =>
    have first := length_encodeChar_pos c
    simp only [encodeChars_cons, List.length_append, List.length_cons]
    omega

/-! ## One lead byte at a time -/

private theorem decode_two {a b : UInt8} {x : Nat} {c : Char} (rest : List UInt8)
    (least : 0xC0 ≤ a.toNat) (most : a.toNat < 0xE0) (hx : continuation? b = some x)
    (whole : character? 0x80 ((a.toNat - 0xC0) * 0x40 + x) = some c) :
    decodeChar? (a :: b :: rest) = some (c, rest) := by
  unfold decodeChar?
  dsimp only
  rw [if_neg (by omega), if_neg (by omega), if_pos most]
  exact Option.bind_eq_some_iff.mpr ⟨x, hx, Option.bind_eq_some_iff.mpr ⟨c, whole, rfl⟩⟩

private theorem decode_three {a b d : UInt8} {x y : Nat} {c : Char} (rest : List UInt8)
    (least : 0xE0 ≤ a.toNat) (most : a.toNat < 0xF0) (hx : continuation? b = some x)
    (hy : continuation? d = some y)
    (whole : character? 0x800 ((a.toNat - 0xE0) * 0x1000 + x * 0x40 + y) = some c) :
    decodeChar? (a :: b :: d :: rest) = some (c, rest) := by
  unfold decodeChar?
  dsimp only
  rw [if_neg (by omega), if_neg (by omega), if_neg (by omega), if_pos most]
  exact Option.bind_eq_some_iff.mpr ⟨x, hx, Option.bind_eq_some_iff.mpr ⟨y, hy,
    Option.bind_eq_some_iff.mpr ⟨c, whole, rfl⟩⟩⟩

private theorem decode_four {a b d e : UInt8} {x y z : Nat} {c : Char} (rest : List UInt8)
    (least : 0xF0 ≤ a.toNat) (hx : continuation? b = some x) (hy : continuation? d = some y)
    (hz : continuation? e = some z)
    (whole : character? 0x10000 ((a.toNat - 0xF0) * 0x40000 + x * 0x1000 + y * 0x40 + z) = some c) :
    decodeChar? (a :: b :: d :: e :: rest) = some (c, rest) := by
  rw [decodeChar?, if_neg (by omega), if_neg (by omega), if_neg (by omega), if_neg (by omega)]
  exact Option.bind_eq_some_iff.mpr ⟨x, hx, Option.bind_eq_some_iff.mpr ⟨y, hy,
    Option.bind_eq_some_iff.mpr ⟨z, hz, Option.bind_eq_some_iff.mpr ⟨c, whole, rfl⟩⟩⟩⟩

private theorem character?_of_eq {least n : Nat} {c : Char} (same : n = c.toNat)
    (enough : least ≤ c.toNat) : character? least n = some c := same ▸ character?_toNat enough

/-- The first character of encoded bytes is the one that was encoded. -/
theorem decodeChar?_encodeChar (c : Char) (rest : List UInt8) :
    decodeChar? (encodeChar c ++ rest) = some (c, rest) := by
  by_cases one : c.toNat < 0x80
  · simp only [encodeChar_of_lt one, List.singleton_append, decodeChar?,
      byte_toNat (show c.toNat < 0x100 by omega), if_pos one, Char.ofNat_toNat]
  have bound := toNat_lt c
  by_cases two : c.toNat < 0x800
  · have lead := byte_toNat (show 0xC0 + c.toNat / 0x40 < 0x100 by omega)
    rw [encodeChar, if_neg one, if_pos two]
    refine decode_two rest (by omega) (by omega) (continuation?_byte (by omega)) ?_
    exact character?_of_eq (by omega) (by omega)
  by_cases three : c.toNat < 0x10000
  · have lead := byte_toNat (show 0xE0 + c.toNat / 0x1000 < 0x100 by omega)
    rw [encodeChar, if_neg one, if_neg two, if_pos three]
    refine decode_three rest (by omega) (by omega) (continuation?_byte (by omega))
      (continuation?_byte (by omega)) ?_
    exact character?_of_eq (by omega) (by omega)
  · have lead := byte_toNat (show 0xF0 + c.toNat / 0x40000 < 0x100 by omega)
    rw [encodeChar, if_neg one, if_neg two, if_neg three]
    refine decode_four rest (by omega) (continuation?_byte (by omega))
      (continuation?_byte (by omega)) (continuation?_byte (by omega)) ?_
    exact character?_of_eq (by omega) (by omega)

/-- After the first byte of a character there are only bytes that are no ASCII. -/
theorem decodeChar?_eq_some {a : UInt8} {rest left : List UInt8} {c : Char}
    (found : decodeChar? (a :: rest) = some (c, left)) :
    ∃ more, rest = more ++ left ∧ ∀ b ∈ more, 0x80 ≤ b.toNat := by
  have wide {b : UInt8} {x : Nat} (continues : continuation? b = some x) : 0x80 ≤ b.toNat := by
    rw [continuation?] at continues
    split_ifs at continues with bounds
    exact bounds.1
  rw [decodeChar?.eq_def] at found
  dsimp only at found
  split_ifs at found with one alone two three
  · cases found
    exact ⟨[], rfl, List.forall_mem_nil _⟩
  · split at found
    · obtain ⟨x, first, found⟩ := Option.bind_eq_some_iff.mp found
      obtain ⟨d, -, same⟩ := Option.bind_eq_some_iff.mp found
      cases same
      exact ⟨[_], rfl, List.forall_mem_singleton.mpr (wide first)⟩
    · cases found
  · split at found
    · obtain ⟨x, first, found⟩ := Option.bind_eq_some_iff.mp found
      obtain ⟨y, second, found⟩ := Option.bind_eq_some_iff.mp found
      obtain ⟨d, -, same⟩ := Option.bind_eq_some_iff.mp found
      cases same
      exact ⟨[_, _], rfl, List.forall_mem_cons.mpr ⟨wide first, List.forall_mem_singleton.mpr (wide second)⟩⟩
    · cases found
  · split at found
    · obtain ⟨x, first, found⟩ := Option.bind_eq_some_iff.mp found
      obtain ⟨y, second, found⟩ := Option.bind_eq_some_iff.mp found
      obtain ⟨z, third, found⟩ := Option.bind_eq_some_iff.mp found
      obtain ⟨d, -, same⟩ := Option.bind_eq_some_iff.mp found
      cases same
      exact ⟨[_, _, _], rfl, List.forall_mem_cons.mpr ⟨wide first, List.forall_mem_cons.mpr
        ⟨wide second, List.forall_mem_singleton.mpr (wide third)⟩⟩⟩
    · cases found

end Tenancy.Text.Utf8
