import Tenancy.Text.Invisible

/-! # Quoted texts

`quote` shows a text between double quotes so that each of its characters can be told: quotes,
backslashes and controls are escaped, and a character without a visible form is shown by number.
-/

namespace Tenancy.Text

/-- The hexadecimal digits of `n`, in small letters. -/
def hex (n : Nat) : List Char := Nat.toDigits 16 n

/-- `n` in hexadecimal, at least four digits wide. -/
def hex4 (n : Nat) : List Char :=
  let digits := hex n
  List.replicate (4 - digits.length) '0' ++ digits

/-- How one character stands within quotes. -/
def quoteChar (c : Char) : List Char :=
  if c = '"' then ['\\', '"']
  else if c = '\\' then ['\\', '\\']
  else if c = '\n' then ['\\', 'n']
  else if c = '\r' then ['\\', 'r']
  else if c = '\t' then ['\\', 't']
  else if c.toNat = 0 then ['\\', '0']
  else if c.toNat < 0x20 || c.toNat = 0x7F || (0x7F < c.toNat && isInvisible c) then
    ['\\', 'u', '\x7b'] ++ hex c.toNat ++ ['\x7d']
  else [c]

def quote (s : String) : String :=
  String.ofList ('"' :: (s.toList.flatMap quoteChar ++ ['"']))

/-- A text between backquotes. -/
def ticked (s : String) : String := "`" ++ s ++ "`"

end Tenancy.Text
