import Tenancy.Yaml.Node

/-! # Documents from tokens

`Document.ofText` puts the tokens of a text together to the first document that they describe, and
says whether there is more. Taking a node never fails: at the place where the tokens end too soon,
or do not go on as they should, the tree is cut and the reason is kept.
-/

namespace Tenancy.Yaml

structure Builder where
  tokens : List Token
  /-- The problem after the tokens. -/
  ending : Option Problem
  /-- What the handles of tags stand for. -/
  handles : List (String × String) := []
  /-- The number of each anchor's name, the latest first. -/
  names : List (String × Nat) := []
  /-- The number of different names. -/
  nameCount : Nat := 0
  anchors : List (Nat × Nat) := []
  nodes : List (Nat × Node) := []
  broken : Option Break := none

/-- A step in the making of a document. -/
abbrev Build := StateM Builder

namespace Build

/-- Breaks off; only the first reason counts. -/
def stop (why : Break) : Build Unit := modify fun b => { b with broken := b.broken.or (some why) }

/-- Breaks off with a fault at a place. -/
def fail (fault : Fault) (mark : Mark) (context : Option (Activity × Mark) := none) : Build Unit :=
  stop (.problem { fault, mark, context })

/-- The next token, unless the text is broken before it. -/
def peek : Build (Option Token) := do
  let b ← get
  match b.broken, b.tokens with
  | some _, _ => return none
  | none, t :: _ => return some t
  | none, [] =>
    match b.ending with
    | some p => stop (.problem p)
    | none => fail .endOfText {}
    return none

def pass : Build Unit := modify fun b => { b with tokens := b.tokens.tail }

def emptyAt (mark : Mark) : Node := .scalar mark none .plain ""

/-- Takes a node unless one of these tokens comes next, before which the node is empty. -/
def nodeUnless (ends : TokenKind → Bool) (place : Token → Mark) (take : Build Node) : Build Node := do
  match ← peek with
  | none => return .cut
  | some t => if ends t.kind then return emptyAt (place t) else take

/-- Whether a node in a block is left out before this token. -/
def endsBlockNode : TokenKind → Bool
  | .key | .value | .blockEnd => true
  | _ => false

/-- Whether an item is left out before this token, in a list whose dashes are not indented. -/
def endsItem : TokenKind → Bool
  | .item | .key | .value | .blockEnd => true
  | _ => false

/-- Whether a node between brackets or braces is left out before this token. -/
def endsFlowNode (closing : TokenKind) (kind : TokenKind) : Bool := kind = .comma ∨ kind = closing

/-! ## Properties -/

/-- What stands in front of a node. -/
structure Properties where
  anchor : Option String := none
  tag : Option (TagText × Mark) := none
  /-- Where the node starts, if something stands in front of it. -/
  start : Option Mark := none

def anchor? : Build (Option String) := do
  match ← peek with
  | some ⟨.anchor name, _, _⟩ => do
    pass
    return some name
  | _ => return none

def tag? : Build (Option (TagText × Mark)) := do
  match ← peek with
  | some ⟨.tag tag, mark, _⟩ => do
    pass
    return some (tag, mark)
  | _ => return none

/-- Takes the anchor and the tag of a node, in either order. -/
def properties (first : Token) : Build Properties := do
  match ← anchor? with
  | some name => return { anchor := some name, tag := ← tag?, start := some first.start }
  | none =>
    match ← tag? with
    | some tag => return { anchor := ← anchor?, tag := some tag, start := some first.start }
    | none => return {}

def fullTag? (handles : List (String × String)) (tag : TagText) : Option String :=
  if tag.handle = "" then some tag.suffix else (handles.lookup tag.handle).map (· ++ tag.suffix)

/-- Gives a number to an anchor, which is the count of the names before it, and a serial number to
its node. -/
def openAnchor (name : String) : Build Nat := do
  let b ← get
  let serial := b.anchors.length
  set { b with
    names := (name, b.nameCount) :: b.names
    nameCount := if (b.names.lookup name).isSome then b.nameCount else b.nameCount + 1
    anchors := (b.nameCount, serial) :: b.anchors }
  return serial

/-- Takes a node with the anchor that it has, and keeps it. -/
def anchored (name : Option String) (take : Build Node) : Build Node := do
  match name with
  | none => take
  | some name =>
    let serial ← openAnchor name
    let node ← take
    modify fun b => { b with nodes := (serial, node) :: b.nodes }
    return node

/-! ## Nodes -/

/-- Takes a comma, except before the first part and the end, and gives the token that comes next. -/
def comma (first : Bool) (closing : TokenKind) (fault : Fault) (activity : Activity) (start : Mark) :
    Build (Option Token) := do
  match ← peek with
  | none => return none
  | some t =>
    if first ∨ t.kind = closing then return some t
    else if t.kind = .comma then
      pass
      peek
    else
      fail fault t.start (some (activity, start))
      return none

mutual

/-- Takes a node. In a block it may be a block of its own, and in a table a list whose dashes are
not indented. -/
def node (inBlock inTable : Bool) : Nat → Build Node
  | 0 => return .cut
  | fuel + 1 => do
    match ← peek with
    | none => return .cut
    | some ⟨.alias name, mark, _⟩ =>
      match (← get).names.lookup name with
      | some number =>
        pass
        return .alias mark number
      | none =>
        stop (.unknownAnchor mark)
        return .cut
    | some first =>
      let props ← properties first
      match ← peek with
      | none => return .cut
      | some t =>
        let handles := (← get).handles
        let start := props.start.getD t.start
        match props.tag with
        | none => anchored props.anchor (content inBlock inTable start none t fuel)
        | some (tag, mark) =>
          match fullTag? handles tag with
          | none =>
            fail .unknownHandle mark (some (.node, start))
            return .cut
          | some tag => anchored props.anchor (content inBlock inTable start (some tag) t fuel)

/-- Takes what a node holds, of which `t` is the first token. What has a tag may be empty. -/
def content (inBlock inTable : Bool) (start : Mark) (tag : Option String) (t : Token) :
    Nat → Build Node
  | 0 => return .cut
  | fuel + 1 => do
    match t.kind, inBlock, inTable with
    | .scalar style text, _, _ =>
      pass
      -- an exclamation mark alone is no tag of a scalar
      return .scalar start (tag.filter (· ≠ "!")) style text
    | .flowListStart, _, _ =>
      pass
      return .list start tag (← flowItems t.start true fuel)
    | .flowTableStart, _, _ =>
      pass
      return .table start tag (← flowMembers t.start true fuel)
    | .item, _, true => return .list start tag (← looseItems fuel)
    | .blockListStart, true, _ =>
      pass
      return .list start tag (← blockItems t.start fuel)
    | .blockTableStart, true, _ =>
      pass
      return .table start tag (← blockMembers t.start fuel)
    | _, _, _ =>
      if start.index < t.start.index then return .scalar start tag .plain ""
      else
        fail .noContent t.start (some (if inBlock then .blockNode else .flowNode, start))
        return .cut

def blockItems (start : Mark) : Nat → Build (List Node)
  | 0 => return [.cut]
  | fuel + 1 => do
    match ← peek with
    | none => return [.cut]
    | some ⟨.item, _, stop⟩ =>
      pass
      let ends (kind : TokenKind) : Bool := kind = .item ∨ kind = .blockEnd
      let item ← nodeUnless ends (fun _ => stop) (node true false fuel)
      return item :: (← blockItems start fuel)
    | some ⟨.blockEnd, _, _⟩ =>
      pass
      return []
    | some t =>
      fail .noDash t.start (some (.blockList, start))
      return [.cut]

/-- Takes items whose dashes are not indented. -/
def looseItems : Nat → Build (List Node)
  | 0 => return [.cut]
  | fuel + 1 => do
    match ← peek with
    | none => return [.cut]
    | some ⟨.item, _, stop⟩ =>
      pass
      let item ← nodeUnless endsItem (fun _ => stop) (node true false fuel)
      return item :: (← looseItems fuel)
    | some _ => return []

def blockMembers (start : Mark) : Nat → Build (List (Node × Node))
  | 0 => return [(.cut, .cut)]
  | fuel + 1 => do
    match ← peek with
    | none => return [(.cut, .cut)]
    | some ⟨.key, _, stop⟩ =>
      pass
      let key ← nodeUnless endsBlockNode (fun _ => stop) (node true true fuel)
      let value ← blockValue fuel
      return (key, value) :: (← blockMembers start fuel)
    | some ⟨.blockEnd, _, _⟩ =>
      pass
      return []
    | some t =>
      fail .noKey t.start (some (.blockTable, start))
      return [(.cut, .cut)]

/-- Takes the value of a member of a block. -/
def blockValue : Nat → Build Node
  | 0 => return .cut
  | fuel + 1 => do
    match ← peek with
    | none => return .cut
    | some ⟨.value, _, stop⟩ =>
      pass
      nodeUnless endsBlockNode (fun _ => stop) (node true true fuel)
    | some t => return emptyAt t.start

/-- Takes the items between brackets. An item may be a table of a single member. -/
def flowItems (start : Mark) (first : Bool) : Nat → Build (List Node)
  | 0 => return [.cut]
  | fuel + 1 => do
    match ← comma first .flowListEnd .noFlowItem .flowList start with
    | none => return [.cut]
    | some ⟨.flowListEnd, _, _⟩ =>
      pass
      return []
    | some ⟨.key, mark, _⟩ =>
      pass
      let item ← loneMember mark fuel
      return item :: (← flowItems start false fuel)
    | some _ =>
      let item ← node false false fuel
      return item :: (← flowItems start false fuel)

/-- Takes a table of a single member. Where its key is left out, the token in place of the key goes
with it. -/
def loneMember (mark : Mark) : Nat → Build Node
  | 0 => return .cut
  | fuel + 1 => do
    let key ← do
      match ← peek with
      | none => pure .cut
      | some t =>
        if t.kind = .value ∨ endsFlowNode .flowListEnd t.kind then
          pass
          pure (emptyAt t.stop)
        else node false false fuel
    let value ← flowValue .flowListEnd fuel
    match ← peek with
    | none => return .table mark none [(key, value), (.cut, .cut)]
    | some _ => return .table mark none [(key, value)]

/-- Takes the value of a member between brackets or braces. -/
def flowValue (closing : TokenKind) : Nat → Build Node
  | 0 => return .cut
  | fuel + 1 => do
    match ← peek with
    | none => return .cut
    | some ⟨.value, _, _⟩ =>
      pass
      nodeUnless (endsFlowNode closing) (·.start) (node false false fuel)
    | some t => return emptyAt t.start

/-- Takes the members between braces. -/
def flowMembers (start : Mark) (first : Bool) : Nat → Build (List (Node × Node))
  | 0 => return [(.cut, .cut)]
  | fuel + 1 => do
    match ← comma first .flowTableEnd .noFlowMember .flowTable start with
    | none => return [(.cut, .cut)]
    | some ⟨.flowTableEnd, _, _⟩ =>
      pass
      return []
    | some ⟨.key, _, _⟩ =>
      pass
      let ends (kind : TokenKind) : Bool := kind = .value ∨ endsFlowNode .flowTableEnd kind
      let key ← nodeUnless ends (·.start) (node false false fuel)
      let value ← flowValue .flowTableEnd fuel
      return (key, value) :: (← flowMembers start false fuel)
    | some _ =>
      let key ← node false false fuel
      let value ← nodeUnless (fun _ => true) (·.start) (pure .cut)
      return (key, value) :: (← flowMembers start false fuel)

end

/-! ## Documents -/

/-- The handles that need no directive. -/
def commonHandles : List (String × String) := [("!", "!"), ("!!", "tag:yaml.org,2002:")]

/-- Takes directives, of which the version may come once. -/
def directives (versioned : Bool) : Nat → Build Unit
  | 0 => return
  | fuel + 1 => do
    match ← peek with
    | some ⟨.directive (.version major minor), mark, _⟩ =>
      if versioned then fail .repeatedVersion mark
      else if major = 1 ∧ (minor = 1 ∨ minor = 2) then
        pass
        directives true fuel
      else fail .otherVersion mark
    | some ⟨.directive (.handle name stem), mark, _⟩ =>
      if ((← get).handles.lookup name).isSome then fail .repeatedHandle mark
      else
        pass
        modify fun b => { b with handles := b.handles ++ [(name, stem)] }
        directives versioned fuel
    | _ => return

/-- Whether a document that has been begun is left empty before this token. -/
def endsDocument : TokenKind → Bool
  | .directive _ | .documentStart | .documentEnd | .textEnd => true
  | _ => false

/-- Takes the root of a document, whose beginning may be marked. -/
def root (fuel : Nat) : Build Node := do
  match ← peek with
  | none => return .cut
  | some ⟨.textEnd, mark, _⟩ => return .absent mark
  | some t =>
    let marked := t.kind = .documentStart ∨ t.kind matches .directive _
    directives false fuel
    modify fun b => { b with handles := b.handles ++ commonHandles }
    if !marked then node true false fuel
    else
      match ← peek with
      | none => return .cut
      | some ⟨.documentStart, _, _⟩ =>
        pass
        nodeUnless endsDocument (·.start) (node true false fuel)
      | some t =>
        fail .noDocumentStart t.start
        return .cut

/-- Takes the first document with the mark at its end. -/
def document (fuel : Nat) : Build Node := do
  match ← peek with
  | none => return .cut
  | some _ =>
    pass
    let root ← root fuel
    match ← peek with
    | some ⟨.documentEnd, _, _⟩ => pass
    | _ => pure ()
    return root

end Build

/-- Whether tokens after a document begin another one, or are no document. -/
def goesOn (tokens : List Token) : Bool :=
  match tokens.dropWhile (·.kind = .documentEnd) with
  | [⟨.textEnd, _, _⟩] => false
  | _ => true

/-- The first document of a text. A node takes no more than three steps for each of its tokens. -/
def Document.ofText (text : List Char) : Document :=
  let (tokens, ending) := Token.ofText text
  let (root, b) := (Build.document (3 * tokens.length + 8)).run { tokens, ending }
  { root, anchors := b.anchors, nodes := b.nodes, broken := b.broken, followed := goesOn b.tokens }

end Tenancy.Yaml
