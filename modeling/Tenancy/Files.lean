import Tenancy.Text.Quoted

/-! # Files

The text files that the operator can see, by their paths from the working directory. A path may pass
through the current directory and may repeat slashes.
-/

namespace Tenancy

/-- Why a file cannot be read. -/
inductive FileError where
  | missing
  /-- The path leads to a directory. -/
  | directory
  /-- The path leads through a file. -/
  | notDirectory
  deriving DecidableEq, Repr

def FileError.message : FileError → String
  | .missing => "No such file or directory (os error 2)"
  | .directory => "Is a directory (os error 21)"
  | .notDirectory => "Not a directory (os error 20)"

structure Files where
  entries : List (String × String) := []
  deriving DecidableEq, Repr

namespace Files

/-- The names on a path. A path that starts at the root starts with the empty name. -/
def namesOf (path : String) : List String :=
  let parts := (path.toList.splitOn '/').map String.ofList
  let names := parts.filter fun p => p ≠ "" ∧ p ≠ "."
  if path.startsWith "/" then "" :: names else names

def read (files : Files) (path : String) : Except FileError String :=
  let names := namesOf path
  let known := files.entries.map fun e => (namesOf e.1, e.2)
  match known.lookup names with
  | some content => if path.endsWith "/" then .error .notDirectory else .ok content
  | none =>
    if path = "" then .error .missing
    else if names.isEmpty ∨ known.any fun e => names.isPrefixOf e.1 then .error .directory
    else if known.any fun e => e.1.isPrefixOf names then .error .notDirectory
    else .error .missing

/-- A path between double quotes, where single quotes are escaped as well. -/
def quotePath (path : String) : String :=
  let body := path.toList.flatMap fun c => if c = '\'' then ['\\', '\''] else Text.quoteChar c
  String.ofList ('"' :: (body ++ ['"']))

end Files

end Tenancy
