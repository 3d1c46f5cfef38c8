import Mathlib.Data.String.Basic
import Tenancy.Proofs.Text.Utf8

/-! # The order of texts is the order of their bytes

A character with a larger number has larger bytes: its first byte is larger, or it is the same and the bits
left over for the bytes that continue it are the larger ones. So it does not matter whether texts are compared
by their characters or by the bytes that encode them.
-/

namespace Tenancy.Text.Utf8

variable {m n : Nat} {c d : Char} {xs ys : List UInt8}

/-! ## One byte at a time -/

/-- Bytes are compared from the front: the later ones count where the first ones are the same. -/
theorem byte_cons_lt (ordered : m ≤ n) (small : n < 0x100) (later : m = n → xs < ys) :
    byte m :: xs < byte n :: ys := by
  rw [List.cons_lt_cons_iff, UInt8.lt_iff_toNat_lt, ← UInt8.toNat_inj, byte_toNat (by omega),
    byte_toNat small]
  rcases Nat.lt_or_eq_of_le ordered with less | same
  · exact .inl less
  · exact .inr ⟨same, later same⟩

private theorem last_lt (less : m < n) (same : m / 0x40 = n / 0x40) :
    byte (0x80 + m % 0x40) :: xs < byte (0x80 + n % 0x40) :: ys := by
  apply byte_cons_lt (by omega) (by omega)
  intro equal
  omega

private theorem last_two_lt (less : m < n) (same : m / 0x1000 = n / 0x1000) :
    byte (0x80 + m / 0x40 % 0x40) :: byte (0x80 + m % 0x40) :: xs <
      byte (0x80 + n / 0x40 % 0x40) :: byte (0x80 + n % 0x40) :: ys := by
  apply byte_cons_lt (by omega) (by omega)
  intro equal
  exact last_lt less (by omega)

private theorem last_three_lt (less : m < n) (same : m / 0x40000 = n / 0x40000) :
    byte (0x80 + m / 0x1000 % 0x40) :: byte (0x80 + m / 0x40 % 0x40) :: byte (0x80 + m % 0x40) :: xs <
      byte (0x80 + n / 0x1000 % 0x40) :: byte (0x80 + n / 0x40 % 0x40) :: byte (0x80 + n % 0x40) :: ys := by
  apply byte_cons_lt (by omega) (by omega)
  intro equal
  exact last_two_lt less (by omega)

/-! ## One character at a time -/

/-- The first byte of the character numbered `n`. -/
def lead (n : Nat) : Nat :=
  if n < 0x80 then n
  else if n < 0x800 then 0xC0 + n / 0x40
  else if n < 0x10000 then 0xE0 + n / 0x1000
  else 0xF0 + n / 0x40000

def continuing (n : Nat) : List UInt8 :=
  if n < 0x80 then []
  else if n < 0x800 then [byte (0x80 + n % 0x40)]
  else if n < 0x10000 then [byte (0x80 + n / 0x40 % 0x40), byte (0x80 + n % 0x40)]
  else [byte (0x80 + n / 0x1000 % 0x40), byte (0x80 + n / 0x40 % 0x40), byte (0x80 + n % 0x40)]

theorem encodeChar_eq (c : Char) : encodeChar c = byte (lead c.toNat) :: continuing c.toNat := by
  simp only [encodeChar, lead, continuing]
  split_ifs <;> rfl

theorem lead_lt (bound : n < 0x110000) : lead n < 0x100 := by
  rw [lead]
  split_ifs <;> omega

theorem lead_mono (ordered : m ≤ n) (bound : n < 0x110000) : lead m ≤ lead n := by
  rw [lead, lead]
  split_ifs <;> omega

/-- Characters with the same first byte have as many bytes, and the later ones tell them apart. -/
theorem continuing_append_lt (less : m < n) (same : lead m = lead n) :
    continuing m ++ xs < continuing n ++ ys := by
  rw [lead, lead] at same
  rw [continuing, continuing]
  split_ifs at same ⊢
  -- where the numbers of bytes differ, so do the first ones
  all_goals try omega
  · exact last_lt less (by omega)
  · exact last_two_lt less (by omega)
  · exact last_three_lt less (by omega)

/-- The bytes of the smaller of two characters are the smaller ones, whatever follows them. -/
theorem encodeChar_append_lt (less : c < d) : encodeChar c ++ xs < encodeChar d ++ ys := by
  have smaller : c.toNat < d.toNat := less
  rw [encodeChar_eq, encodeChar_eq]
  apply byte_cons_lt (lead_mono (Nat.le_of_lt smaller) (toNat_lt d)) (lead_lt (toNat_lt d))
  exact continuing_append_lt smaller

/-! ## Whole texts -/

/-- The bytes of texts are ordered as the texts are. -/
theorem encodeChars_lt {cs ds : List Char} (less : cs < ds) : encodeChars cs < encodeChars ds := by
  induction less with
  | nil =>
    rw [encodeChars_cons, encodeChar_eq]
    exact List.nil_lt_cons _ _
  | rel first => exact encodeChar_append_lt first
  | cons later ih => exact List.append_left_lt ih

/-- The bytes of the smaller of two texts are the smaller ones. -/
theorem encode_lt_encode {s t : String} (less : s < t) : encode s < encode t :=
  encodeChars_lt (String.lt_iff_toList_lt.mp less)

end Tenancy.Text.Utf8
