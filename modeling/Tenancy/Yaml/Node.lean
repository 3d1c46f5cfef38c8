import Tenancy.Yaml.Token

/-! # Nodes

A document is a tree of nodes. Where its text is broken the tree is cut: everything before that
place is there, so that a reader who gets no further than something it cannot use never learns of
the break. An alias stays a node of its own, since the node that it stands for may contain it; a
document keeps the nodes that have anchors.
-/

namespace Tenancy.Yaml

/-- A node of a document, with the place where it starts. -/
inductive Node where
  | scalar (mark : Mark) (tag : Option String) (style : Style) (text : String)
  | list (mark : Mark) (tag : Option String) (items : List Node)
  | table (mark : Mark) (tag : Option String) (members : List (Node × Node))
  /-- What stands in for another node, by the number of its anchor. -/
  | alias (mark : Mark) (anchor : Nat)
  /-- The root of a text without documents. -/
  | absent (mark : Mark)
  /-- The place where the text is broken. -/
  | cut
  deriving Repr, Inhabited

/-- Why a text is broken. -/
inductive Break where
  | problem (problem : Problem)
  | unknownAnchor (mark : Mark)
  deriving DecidableEq, Repr

namespace Node

mutual

/-- Whether the text is broken within the node. -/
def isCut : Node → Bool
  | .list _ _ items => anyCut items
  | .table _ _ members => anyMemberCut members
  | .cut => true
  | _ => false

def anyCut : List Node → Bool
  | [] => false
  | n :: rest => n.isCut || anyCut rest

/-- Whether the text is broken within one of the members. -/
def anyMemberCut : List (Node × Node) → Bool
  | [] => false
  | (k, v) :: rest => k.isCut || v.isCut || anyMemberCut rest

end

mutual

/-- The number of places where a node begins or ends. -/
def size : Node → Nat
  | .list _ _ items => sizeAll items + 2
  | .table _ _ members => sizeMembers members + 2
  | .cut => 0
  | _ => 1

def sizeAll : List Node → Nat
  | [] => 0
  | n :: rest => n.size + sizeAll rest

def sizeMembers : List (Node × Node) → Nat
  | [] => 0
  | (k, v) :: rest => k.size + v.size + sizeMembers rest

end

def mark : Node → Mark
  | .scalar m _ _ _ | .list m _ _ | .table m _ _ | .alias m _ | .absent m => m
  | .cut => {}

end Node

structure Document where
  root : Node
  /-- The serial number of the node that an anchor's number means; the latest comes first. -/
  anchors : List (Nat × Nat) := []
  /-- The nodes with anchors, by serial number. -/
  nodes : List (Nat × Node) := []
  /-- Why the text is broken in this document or at its end. -/
  broken : Option Break := none
  /-- Whether there is more in the text after this document. -/
  followed : Bool := false

/-- The node that an alias stands for. -/
def Document.anchored (d : Document) (anchor : Nat) : Node :=
  ((d.anchors.lookup anchor).bind fun serial => d.nodes.lookup serial).getD .cut

end Tenancy.Yaml
