import Tenancy.Decimal.Double

/-! # JSON values

A value keeps the members of its objects in a list. A *document*, which is what reading an untyped
text gives, holds them in increasing order of their names and each name once; `insert` keeps that
order. Values that are written field by field, such as a typed record, have the order of their
fields instead.

Numbers keep apart the integers, which are exact, and the doubles.
-/

namespace Tenancy

inductive Json.Number where
  | integer (value : Int)
  | double (value : Double)
  deriving DecidableEq, Repr, Inhabited

inductive Json where
  | null
  | bool (value : Bool)
  | number (value : Json.Number)
  | string (value : String)
  | array (items : List Json)
  | object (members : List (String × Json))
  deriving Repr, Inhabited

namespace Json

mutual

/-- Equality of values can be decided. -/
def decEq : (a b : Json) → Decidable (a = b)
  | .null, .null => isTrue rfl
  | .bool x, .bool y =>
    if h : x = y then isTrue (by rw [h]) else isFalse (by intro e; injection e; contradiction)
  | .number x, .number y =>
    if h : x = y then isTrue (by rw [h]) else isFalse (by intro e; injection e; contradiction)
  | .string x, .string y =>
    if h : x = y then isTrue (by rw [h]) else isFalse (by intro e; injection e; contradiction)
  | .array x, .array y =>
    match decEqItems x y with
    | isTrue h => isTrue (by rw [h])
    | isFalse h => isFalse (by intro e; injection e; contradiction)
  | .object x, .object y =>
    match decEqMembers x y with
    | isTrue h => isTrue (by rw [h])
    | isFalse h => isFalse (by intro e; injection e; contradiction)
  | .null, .bool _ | .null, .number _ | .null, .string _ | .null, .array _ | .null, .object _
  | .bool _, .null | .bool _, .number _ | .bool _, .string _ | .bool _, .array _
  | .bool _, .object _ | .number _, .null | .number _, .bool _ | .number _, .string _
  | .number _, .array _ | .number _, .object _ | .string _, .null | .string _, .bool _
  | .string _, .number _ | .string _, .array _ | .string _, .object _ | .array _, .null
  | .array _, .bool _ | .array _, .number _ | .array _, .string _ | .array _, .object _
  | .object _, .null | .object _, .bool _ | .object _, .number _ | .object _, .string _
  | .object _, .array _ => isFalse (by intro e; cases e)

/-- Equality of lists of values can be decided. -/
def decEqItems : (a b : List Json) → Decidable (a = b)
  | [], [] => isTrue rfl
  | [], _ :: _ | _ :: _, [] => isFalse (by intro e; cases e)
  | x :: xs, y :: ys =>
    match decEq x y, decEqItems xs ys with
    | isTrue h, isTrue hs => isTrue (by rw [h, hs])
    | isFalse h, _ => isFalse (by intro e; injection e; contradiction)
    | _, isFalse hs => isFalse (by intro e; injection e; contradiction)

/-- Equality of lists of members can be decided. -/
def decEqMembers : (a b : List (String × Json)) → Decidable (a = b)
  | [], [] => isTrue rfl
  | [], _ :: _ | _ :: _, [] => isFalse (by intro e; cases e)
  | (k, x) :: xs, (l, y) :: ys =>
    if hk : k = l then
      match decEq x y, decEqMembers xs ys with
      | isTrue h, isTrue hs => isTrue (by rw [hk, h, hs])
      | isFalse h, _ => isFalse (by intro e; injection e with e _; injection e; contradiction)
      | _, isFalse hs => isFalse (by intro e; injection e; contradiction)
    else isFalse (by intro e; injection e with e _; injection e; contradiction)

end

instance : DecidableEq Json := decEq

def int (i : Int) : Json := .number (.integer i)

def ofText? : Option String → Json
  | some s => .string s
  | none => .null

/-! ## Members -/

/-- The member called `name`; of several, the first. -/
def lookup (name : String) : List (String × Json) → Option Json
  | [] => none
  | (key, value) :: rest => if key = name then some value else lookup name rest

/-- Puts a member in its place in a list that is in increasing order, in exchange for a member of
the same name. -/
def insert (name : String) (value : Json) : List (String × Json) → List (String × Json)
  | [] => [(name, value)]
  | (key, old) :: rest =>
    if name = key then (name, value) :: rest
    else if name < key then (name, value) :: (key, old) :: rest
    else (key, old) :: insert name value rest

/-- The list without the members called `name`. -/
def erase (name : String) (members : List (String × Json)) : List (String × Json) :=
  members.filter fun m => m.1 ≠ name

/-- The members in increasing order of name; of several with one name, the last. -/
def ofMembers (members : List (String × Json)) : List (String × Json) :=
  members.foldl (fun sorted m => insert m.1 m.2 sorted) []

/-- The member `name` of an object; nothing for any other value. -/
def get? (name : String) : Json → Option Json
  | .object members => lookup name members
  | _ => none

def members? : Json → Option (List (String × Json))
  | .object members => some members
  | _ => none

def text? : Json → Option String
  | .string s => some s
  | _ => none

def items? : Json → Option (List Json)
  | .array items => some items
  | _ => none

def bool? : Json → Option Bool
  | .bool b => some b
  | _ => none

def int? : Json → Option Int
  | .number (.integer i) => some i
  | _ => none

def double? : Json → Option Double
  | .number (.integer i) => some (Double.ofInt i)
  | .number (.double d) => some d
  | _ => none

def isNull : Json → Bool
  | .null => true
  | _ => false

def textAt? (name : String) (j : Json) : Option String := (j.get? name).bind text?

def boolAt? (name : String) (j : Json) : Option Bool := (j.get? name).bind bool?

/-- An object of the members that are present, in the order given. -/
def record (fields : List (String × Option Json)) : Json :=
  .object (fields.filterMap fun f => f.2.map fun v => (f.1, v))

mutual

/-- The document that says the same: members in increasing order of name, each name once. -/
def sorted : Json → Json
  | .array items => .array (sortedItems items)
  | .object members => .object (ofMembers (sortedMembers members))
  | j => j

def sortedItems : List Json → List Json
  | [] => []
  | x :: xs => sorted x :: sortedItems xs

def sortedMembers : List (String × Json) → List (String × Json)
  | [] => []
  | (k, x) :: xs => (k, sorted x) :: sortedMembers xs

end

end Json

end Tenancy
