/-! # Blank characters

The characters of Unicode that count as white space.
-/

namespace Tenancy.Text

def isBlank (c : Char) : Bool :=
  let n := c.toNat
  (9 ≤ n && n ≤ 13) || n == 0x20 || n == 0x85 || n == 0xA0 || n == 0x1680
    || (0x2000 ≤ n && n ≤ 0x200A) || n == 0x2028 || n == 0x2029 || n == 0x202F || n == 0x205F
    || n == 0x3000

def dropBlank (cs : List Char) : List Char := cs.dropWhile isBlank

def digit? (c : Char) : Option Nat :=
  if '0' ≤ c ∧ c ≤ '9' then some (c.toNat - '0'.toNat) else none

def isDigit (c : Char) : Bool := (digit? c).isSome

/-- The digits at the front, as a number, and how many there are. -/
def digits (cs : List Char) : Nat × Nat :=
  (cs.takeWhile isDigit).foldl (fun (n, k) c => (n * 10 + (c.toNat - '0'.toNat), k + 1)) (0, 0)

/-- The number that decimal digits spell, if there is at least one and nothing else. -/
def natural? (cs : List Char) : Option Nat :=
  if cs.isEmpty || !cs.all isDigit then none else some (digits cs).1

end Tenancy.Text
