/-! # Powers of two and ten

What a place is worth in binary and in decimal notation. Both are stated by `Nat.pow` itself, so that
their meaning hangs on no instance.
-/

namespace Tenancy

/-- What binary place `n` is worth, which is also the number of words of `n` bits. -/
def twoTo (n : Nat) : Nat := Nat.pow 2 n

/-- What decimal place `n` is worth, which is also the number of numerals of `n` digits. -/
def tenTo (n : Nat) : Nat := Nat.pow 10 n

end Tenancy
