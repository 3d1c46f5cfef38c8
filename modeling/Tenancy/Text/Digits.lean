/-! # Digits

The value of digits in a base up to 36; letters count on from ten, large or small.
-/

namespace Tenancy.Text

def digitValue? (base : Nat) (c : Char) : Option Nat :=
  let v? :=
    if '0' ≤ c ∧ c ≤ '9' then some (c.toNat - '0'.toNat)
    else if 'a' ≤ c ∧ c ≤ 'z' then some (c.toNat - 'a'.toNat + 10)
    else if 'A' ≤ c ∧ c ≤ 'Z' then some (c.toNat - 'A'.toNat + 10)
    else none
  v?.filter (· < base)

/-- The value of digits, the first of which counts most. What is no digit counts as zero. -/
def digitsValue (base : Nat) (digits : List Char) : Nat :=
  digits.foldl (fun n c => n * base + (digitValue? base c).getD 0) 0

/-- The number that a text of digits stands for; the text has at least one and nothing else. -/
def number? (base : Nat) (text : List Char) : Option Nat :=
  if text.isEmpty ∨ !text.all fun c => (digitValue? base c).isSome then none
  else some (digitsValue base text)

end Tenancy.Text
