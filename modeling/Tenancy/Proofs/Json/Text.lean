import Tenancy.Json.Token
import Tenancy.Proofs.Text.Utf8

/-! # Strings read back

What `renderText` writes, `readText` reads. A character takes one step of the scanner, whether it is
escaped or stands for itself.
-/

namespace Tenancy.Json

open Text.Utf8

theorem encodeChar_ascii {c : Char} (narrow : c.toNat < 0x80) : encodeChar c = [ascii c] :=
  encodeChar_of_lt narrow

theorem eq_of_byte_eq_ascii {c d : Char} (narrow : c.toNat < 0x80) (narrow' : d.toNat < 0x80)
    (same : byte c.toNat = ascii d) : c = d := by
  have numbers := congrArg UInt8.toNat same
  change (byte c.toNat).toNat = (byte d.toNat).toNat at numbers
  rw [byte_toNat (by omega), byte_toNat (by omega)] at numbers
  exact Char.toNat_inj.mp numbers

/-- The two bytes that tell one control from another. -/
private def controlDigits (n : Nat) : List UInt8 :=
  [ascii (Nat.digitChar (n / 0x10)), ascii (Nat.digitChar (n % 0x10))]

private theorem encode_hex4_control : ∀ n < 0x20,
    encodeChars (Text.hex4 n) = ascii '0' :: ascii '0' :: controlDigits n := by decide

private theorem hexQuad?_control : ∀ n < 0x20,
    hexQuad? (ascii '0') (ascii '0') (ascii (Nat.digitChar (n / 0x10)))
      (ascii (Nat.digitChar (n % 0x10))) = some n := by decide

/-- The four digits written for a control character read as its number. -/
theorem readQuad_control {n : Nat} (control : n < 0x20) (rest : Input) :
    readQuad (encodeChars (Text.hex4 n) ++ rest) = .ok (n, rest) := by
  rw [encode_hex4_control _ control, controlDigits, List.cons_append, List.cons_append,
    List.cons_append, List.cons_append, List.nil_append, readQuad, hexQuad?_control _ control]

/-- A control that is written by number is read back as itself. -/
private theorem readNumbered_control {c : Char} (control : c.toNat < 0x20) (rest : Input) :
    readNumbered (encodeChars (Text.hex4 c.toNat) ++ rest) = .ok (c, rest) := by
  have lone : isTrailing c.toNat = false ∧ isLeading c.toNat = false := by
    simp only [isTrailing, isLeading, Bool.and_eq_false_iff, decide_eq_false_iff_not]
    omega
  simp only [readNumbered, readQuad_control control, bind, Except.bind, lone, Bool.false_eq_true,
    if_false, Char.ofNat_toNat]

/-- A byte of a string that stands for itself or for a part of a character. -/
def isPlain (b : UInt8) : Prop := b ≠ ascii '"' ∧ b ≠ ascii '\\' ∧ ¬ b.toNat < 0x20

theorem isPlain_of_wide {b : UInt8} (wide : 0x80 ≤ b.toNat) : isPlain b := by
  refine ⟨?_, ?_, by omega⟩
  · rintro rfl
    exact absurd wide (by decide)
  · rintro rfl
    exact absurd wide (by decide)

/-- A character that is neither a quote, nor a backslash, nor a control is written as it is. -/
theorem isPlain_of_mem_encodeChar {c : Char} (quote : c ≠ '"') (backslash : c ≠ '\\')
    (visible : ¬ c.toNat < 0x20) {b : UInt8} (present : b ∈ encodeChar c) : isPlain b := by
  by_cases narrow : c.toNat < 0x80
  · rw [encodeChar_of_lt narrow, List.mem_singleton] at present
    subst present
    refine ⟨?_, ?_, ?_⟩
    · exact fun same => quote (eq_of_byte_eq_ascii narrow (by decide) same)
    · exact fun same => backslash (eq_of_byte_eq_ascii narrow (by decide) same)
    · rw [byte_toNat (by omega)]
      exact visible
  · exact isPlain_of_wide (le_toNat_of_mem_encodeChar (by omega) present)

private theorem scanText_plain {c : Char} (quote : c ≠ '"') (backslash : c ≠ '\\')
    (visible : ¬ c.toNat < 0x20) (fuel : Nat) (read : List Char) (broken : Option Input)
    (rest : Input) :
    scanText (fuel + 1) read broken (encodeChar c ++ rest) = scanText fuel (c :: read) broken rest := by
  have whole := decodeChar?_encodeChar c rest
  obtain ⟨b, tail, bytes⟩ := List.exists_cons_of_length_pos (length_encodeChar_pos c)
  obtain ⟨notQuote, notBackslash, notControl⟩ :=
    isPlain_of_mem_encodeChar quote backslash visible (bytes ▸ List.mem_cons_self ..)
  rw [bytes, List.cons_append] at whole ⊢
  simp only [scanText, if_neg notQuote, if_neg notBackslash, if_neg notControl, whole]

/-- Each written character is read back, escape or not. -/
theorem scanText_renderChar (c : Char) (fuel : Nat) (read : List Char) (broken : Option Input)
    (rest : Input) :
    scanText (fuel + 1) read broken (encodeChars (renderChar c) ++ rest) =
      scanText fuel (c :: read) broken rest := by
  rw [renderChar]
  split_ifs with quote backslash lineFeed carriageReturn tab backspace formFeed control
  · subst quote; rfl
  · subst backslash; rfl
  · subst lineFeed; rfl
  · subst carriageReturn; rfl
  · subst tab; rfl
  · subst backspace; rfl
  · subst formFeed; rfl
  · have escaped : readEscape (ascii 'u' :: (encodeChars (Text.hex4 c.toNat) ++ rest)) = .ok (c, rest) :=
      readNumbered_control control rest
    change scanText (fuel + 1) read broken
      (ascii '\\' :: ascii 'u' :: (encodeChars (Text.hex4 c.toNat) ++ rest)) = _
    simp only [scanText, if_neg (show ascii '\\' ≠ ascii '"' by decide), if_true, escaped, bind,
      Except.bind]
  · rw [encodeChars_cons, encodeChars_nil, List.append_nil]
    exact scanText_plain quote backslash control fuel read broken rest

/-- The characters of a string up to its closing quote. -/
theorem scanText_render (cs : List Char) (fuel : Nat) (enough : cs.length < fuel) (read : List Char)
    (rest : Input) :
    scanText fuel read none (encodeChars (cs.flatMap renderChar) ++ ascii '"' :: rest) =
      .ok (String.ofList (read.reverse ++ cs), rest) := by
  induction cs generalizing fuel read with
  | nil =>
    obtain ⟨fuel, rfl⟩ := Nat.exists_eq_succ_of_ne_zero (Nat.ne_of_gt enough)
    simp [scanText]
  | cons c cs ih =>
    obtain ⟨fuel, rfl⟩ := Nat.exists_eq_succ_of_ne_zero (Nat.ne_of_gt (Nat.zero_lt_of_lt enough))
    rw [List.flatMap_cons, encodeChars_append, List.append_assoc, scanText_renderChar,
      ih fuel (by simpa using enough), List.reverse_cons, List.append_assoc, List.singleton_append]

theorem length_le_length_renderChar (c : Char) : 1 ≤ (renderChar c).length := by
  rw [renderChar]
  split_ifs <;> simp

theorem length_le_length_flatMap_renderChar (cs : List Char) :
    cs.length ≤ (cs.flatMap renderChar).length := by
  induction cs with
  | nil => simp
  | cons c cs ih =>
    have first := length_le_length_renderChar c
    simp only [List.length_cons, List.flatMap_cons, List.length_append]
    omega

/-- The bytes of a string between its quotes. -/
def textBytes (s : String) : List UInt8 := encodeChars (s.toList.flatMap renderChar)

theorem encodeChars_renderText (s : String) :
    encodeChars (renderText s) = ascii '"' :: (textBytes s ++ [ascii '"']) := by
  simp only [renderText, encodeChars_cons, encodeChars_append, encodeChars_nil, List.append_nil,
    encodeChar_ascii (show ('"' : Char).toNat < 0x80 by decide), List.singleton_append, textBytes]

/-- A string that was written is read up to its closing quote. -/
theorem readText_textBytes (s : String) (rest : Input) :
    readText (textBytes s ++ ascii '"' :: rest) = .ok (s, rest) := by
  have enough : s.toList.length < (textBytes s ++ ascii '"' :: rest).length + 1 := by
    have chars := length_le_length_flatMap_renderChar s.toList
    have bytes := length_le_length_encodeChars (s.toList.flatMap renderChar)
    simp only [textBytes, List.length_append, List.length_cons]
    omega
  refine (scanText_render s.toList _ enough [] rest).trans ?_
  rw [List.reverse_nil, List.nil_append, String.ofList_toList]

end Tenancy.Json
