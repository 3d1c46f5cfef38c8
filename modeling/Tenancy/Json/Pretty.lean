import Tenancy.Json.Printer

/-! # Writing JSON for people

`pretty` writes each item and each member on a line of its own, two columns further in than the
bracket around it.
-/

namespace Tenancy.Json

def newLine (level : Nat) : List Char := '\n' :: List.replicate (2 * level) ' '

mutual

/-- The characters of a value, whose brackets stand at a level. -/
def prettyChars (level : Nat) : Json → List Char
  | .array (x :: xs) =>
    '[' :: (newLine (level + 1) ++ prettyChars (level + 1) x ++ prettyItems level xs)
  | .object ((k, x) :: xs) =>
    '\x7b' :: (newLine (level + 1) ++ renderText k ++ [':', ' '] ++ prettyChars (level + 1) x
      ++ prettyMembers level xs)
  | j => renderChars j

/-- The items after the first, and the closing bracket. -/
def prettyItems (level : Nat) : List Json → List Char
  | [] => newLine level ++ [']']
  | x :: xs => ',' :: (newLine (level + 1) ++ prettyChars (level + 1) x ++ prettyItems level xs)

/-- The members after the first, and the closing brace. -/
def prettyMembers (level : Nat) : List (String × Json) → List Char
  | [] => newLine level ++ ['\x7d']
  | (k, x) :: xs =>
    ',' :: (newLine (level + 1) ++ renderText k ++ [':', ' '] ++ prettyChars (level + 1) x
      ++ prettyMembers level xs)

end

/-- The text of a value on several lines. -/
def pretty (j : Json) : String := String.ofList (prettyChars 0 j)

end Tenancy.Json
