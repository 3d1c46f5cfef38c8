/-! # Request targets

The path and query of a request. Text from outside goes into it as it is: a character that may not
stand there spoils the target, and everything from a `#` on is dropped.
-/

namespace Tenancy.Http

/-- Whether a character may stand in a path. -/
def isPathChar (c : Char) : Bool :=
  let n := c.toNat
  n == 0x21 || n == 0x22 || (0x24 ≤ n && n ≤ 0x3B) || n == 0x3D || (0x40 ≤ n && n ≤ 0x5F)
    || (0x61 ≤ n && n ≤ 0x7E) || 0x7F ≤ n

/-- Whether a character may stand in a query. -/
def isQueryChar (c : Char) : Bool :=
  let n := c.toNat
  n == 0x21 || (0x24 ≤ n && n ≤ 0x3B) || n == 0x3D || (0x3F ≤ n && n ≤ 0x7E) || 0x7F ≤ n

/-- The target that a text stands for, unless a character of it is not allowed. -/
def target? (s : String) : Option String :=
  let kept := s.toList.takeWhile (· ≠ '#')
  let path := kept.takeWhile (· ≠ '?')
  let query := (kept.drop path.length).drop 1
  if path.all isPathChar && query.all isQueryChar then some (String.ofList kept) else none

end Tenancy.Http
