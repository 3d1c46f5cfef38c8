import Tenancy.Proofs.Yaml.Flow
import Tenancy.Yaml.Document

/-! # The document of a JSON text

From the tokens of a value comes a node that shows this value.
-/

namespace Tenancy.Yaml

open Json (renderChars)

variable {α β : Type} {b b' : Builder} {t : Token} {tokens others rest : List Token} {fuel : Nat}

/-! ## Nodes that show values -/

mutual

/-- Whether a node shows a value: strings in double quotes, and other scalars as they are written. -/
def Shows : Json → Node → Prop
  | .string s, node => ∃ mark, node = .scalar mark none .double s
  | .array items, node => ∃ mark nodes, node = .list mark none nodes ∧ ShowsItems items nodes
  | .object members, node => ∃ mark nodes, node = .table mark none nodes ∧ ShowsMembers members nodes
  | j, node => ∃ mark, node = .scalar mark none .plain (String.ofList (renderChars j))

def ShowsItems : List Json → List Node → Prop
  | [], nodes => nodes = []
  | item :: items, nodes => ∃ node rest, nodes = node :: rest ∧ Shows item node ∧ ShowsItems items rest

def ShowsMembers : List (String × Json) → List (Node × Node) → Prop
  | [], nodes => nodes = []
  | (name, value) :: members, nodes =>
    ∃ mark node rest, nodes = (.scalar mark none .double name, node) :: rest ∧ Shows value node ∧
      ShowsMembers members rest

end

/-! ## Steps -/

/-- Taking goes over these tokens, whatever stands behind them. -/
def Takes (take : Build α) (tokens : List Token) (P : α → Prop) : Prop :=
  ∀ b rest, b.broken = none → b.tokens = tokens ++ rest →
    ∃ a, take b = (a, { b with tokens := rest }) ∧ P a

namespace Build

theorem bind_eq {x : Build α} {f : α → Build β} {a : α} (step : x b = (a, b')) : (x >>= f) b = f a b' := by
  change f (x b).1 (x b).2 = f a b'
  rw [step]

theorem peek_eq (whole : b.broken = none) (place : b.tokens = t :: rest) : peek b = (some t, b) := by
  obtain ⟨tokens, ending, handles, names, nameCount, anchors, nodes, broken⟩ := b
  cases whole
  cases place
  rfl

theorem pass_eq (place : b.tokens = t :: rest) : pass b = ((), { b with tokens := rest }) := by
  obtain ⟨tokens, ending, handles, names, nameCount, anchors, nodes, broken⟩ := b
  cases place
  rfl

end Build

open Build

/-- Whether a token is a scalar, or opens a list or a table. -/
def isContent : TokenKind → Bool
  | .scalar _ _ | .flowListStart | .flowTableStart => true
  | _ => false

/-- Nothing stands in front of the content. -/
theorem properties_eq (whole : b.broken = none) (place : b.tokens = t :: rest) (content : isContent t.kind) :
    properties t b = ({}, b) := by
  have peek := peek_eq whole place
  have noAnchor : anchor? b = (none, b) := by
    rw [anchor?, bind_eq peek]
    obtain ⟨kind, start, stop⟩ := t
    cases kind <;> first | rfl | cases content
  have noTag : tag? b = (none, b) := by
    rw [tag?, bind_eq peek]
    obtain ⟨kind, start, stop⟩ := t
    cases kind <;> first | rfl | cases content
  rw [properties, bind_eq noAnchor]
  dsimp only
  rw [bind_eq noTag]
  rfl

/-- Without an anchor and a tag a node is its content. -/
theorem node_eq {inBlock inTable : Bool} (whole : b.broken = none) (place : b.tokens = t :: rest)
    (content : isContent t.kind) :
    node inBlock inTable (fuel + 1) b = Build.content inBlock inTable t.start none t fuel b := by
  have peek := peek_eq whole place
  have bare := properties_eq whole place content
  rw [node, bind_eq peek]
  obtain ⟨kind, start, stop⟩ := t
  cases kind <;> first
    | cases content; done
    | dsimp only; rw [bind_eq bare, bind_eq peek]; rfl

/-- In front of the first part there is no comma. -/
theorem comma_first {closing : TokenKind} {fault : Fault} {activity : Activity} {start : Mark}
    (whole : b.broken = none) (place : b.tokens = t :: rest) :
    comma true closing fault activity start b = (some t, b) := by
  rw [comma, bind_eq (peek_eq whole place)]
  rfl

/-- In front of the end there is no comma. -/
theorem comma_end {first : Bool} {fault : Fault} {activity : Activity} {start : Mark}
    (whole : b.broken = none) (place : b.tokens = t :: rest) :
    comma first t.kind fault activity start b = (some t, b) := by
  rw [comma, bind_eq (peek_eq whole place)]
  dsimp only
  rw [if_pos (.inr rfl)]
  rfl

/-- A comma in front of a part is passed. -/
theorem comma_next {closing : TokenKind} {fault : Fault} {activity : Activity} {start m m' : Mark}
    (other : closing ≠ .comma) (whole : b.broken = none) (place : b.tokens = ⟨.comma, m, m'⟩ :: t :: rest) :
    comma false closing fault activity start b = (some t, { b with tokens := t :: rest }) := by
  rw [comma, bind_eq (peek_eq whole place)]
  dsimp only
  rw [if_neg (by simpa using other.symm), if_pos rfl, bind_eq (pass_eq place)]
  exact peek_eq whole rfl

/-- The tokens of a value start with its content. -/
theorem exists_content {v : Json} (kinds : tokens.map Token.kind = tokenKinds v) :
    ∃ t rest, tokens = t :: rest ∧ isContent t.kind := by
  have front : ∃ kind others, tokenKinds v = kind :: others ∧ isContent kind := by
    cases v with
    | null | bool | number | string => exact ⟨_, _, rfl, rfl⟩
    | array items => cases items <;> exact ⟨_, _, rfl, rfl⟩
    | object members => cases members <;> exact ⟨_, _, rfl, rfl⟩
  obtain ⟨kind, others, same, content⟩ := front
  rw [same, List.map_eq_cons_iff] at kinds
  obtain ⟨t, rest, rfl, rfl, -⟩ := kinds
  exact ⟨t, rest, rfl, content⟩

theorem content_scalar {inBlock inTable : Bool} {style : Style} {text : String} {start stop : Mark} :
    content inBlock inTable start none ⟨.scalar style text, start, stop⟩ (fuel + 1) =
      (do pass; return .scalar start none style text) := rfl

theorem content_list {inBlock inTable : Bool} {start stop : Mark} :
    content inBlock inTable start none ⟨.flowListStart, start, stop⟩ (fuel + 1) =
      (do pass; return .list start none (← flowItems start true fuel)) := rfl

theorem content_table {inBlock inTable : Bool} {start stop : Mark} :
    content inBlock inTable start none ⟨.flowTableStart, start, stop⟩ (fuel + 1) =
      (do pass; return .table start none (← flowMembers start true fuel)) := rfl

/-- A scalar is one token. -/
theorem takes_scalar {inBlock inTable : Bool} {style : Style} {text : String} {start stop : Mark} :
    Takes (node inBlock inTable (fuel + 2)) [⟨.scalar style text, start, stop⟩]
      (· = .scalar start none style text) := by
  intro b rest whole place
  refine ⟨_, ?_, rfl⟩
  rw [node_eq whole place rfl, content_scalar, bind_eq (pass_eq place)]
  rfl

/-! ## Lists -/

section Lists

variable {item : Json} {items : List Json} {start m m' : Mark} {inBlock inTable : Bool} {P : Node → Prop}

/-- A list that goes on takes its item and then the others. -/
theorem flowItems_eq {first : Bool} {b' : Builder}
    (next : comma first .flowListEnd .noFlowItem .flowList start b = (some t, b'))
    (content : isContent t.kind) :
    flowItems start first (fuel + 1) b =
      (do
        let item ← node false false fuel
        return item :: (← flowItems start false fuel)) b' := by
  rw [flowItems, bind_eq next]
  obtain ⟨kind, start, stop⟩ := t
  cases kind <;> first | rfl | cases content

/-- An item and those after it are taken. -/
theorem takes_item (head : Takes (node false false fuel) tokens (Shows item))
    (tail : Takes (flowItems start false fuel) others (ShowsItems items)) :
    Takes (do
      let item ← node false false fuel
      return item :: (← flowItems start false fuel)) (tokens ++ others) (ShowsItems (item :: items)) := by
  intro b rest whole place
  rw [List.append_assoc] at place
  obtain ⟨node, taken, shows⟩ := head b (others ++ rest) whole place
  obtain ⟨nodes, takenAll, showsAll⟩ := tail { b with tokens := others ++ rest } rest whole rfl
  refine ⟨node :: nodes, ?_, node, nodes, rfl, shows, showsAll⟩
  rw [bind_eq taken, bind_eq takenAll]
  rfl

/-- The tokens of a first item and of those after it are taken together. -/
theorem takes_firstItem (kinds : tokens.map Token.kind = tokenKinds item)
    (head : Takes (node false false fuel) tokens (Shows item))
    (tail : Takes (flowItems start false fuel) others (ShowsItems items)) :
    Takes (flowItems start true (fuel + 1)) (tokens ++ others) (ShowsItems (item :: items)) := by
  intro b rest whole place
  obtain ⟨t, tokens', rfl, content⟩ := exists_content kinds
  rw [flowItems_eq (comma_first whole place) content]
  exact takes_item head tail b rest whole place

theorem takes_nextItem (kinds : tokens.map Token.kind = tokenKinds item)
    (head : Takes (node false false fuel) tokens (Shows item))
    (tail : Takes (flowItems start false fuel) others (ShowsItems items)) :
    Takes (flowItems start false (fuel + 1)) (⟨.comma, m, m'⟩ :: (tokens ++ others))
      (ShowsItems (item :: items)) := by
  intro b rest whole place
  obtain ⟨t, tokens', rfl, content⟩ := exists_content kinds
  rw [flowItems_eq (comma_next (by decide) whole place) content]
  exact takes_item head tail { b with tokens := _ } rest whole rfl

theorem takes_lastItem {first : Bool} :
    Takes (flowItems start first (fuel + 1)) [⟨.flowListEnd, m, m'⟩] (ShowsItems []) := by
  intro b rest whole place
  refine ⟨[], ?_, rfl⟩
  rw [flowItems, bind_eq (comma_end (t := ⟨.flowListEnd, m, m'⟩) whole place)]
  dsimp only
  rw [bind_eq (pass_eq place)]
  rfl

/-- The tokens of a list are taken from its opening bracket to its closing one. -/
theorem takes_list (inside : Takes (flowItems m true fuel) tokens (ShowsItems items)) :
    Takes (node inBlock inTable (fuel + 2)) (⟨.flowListStart, m, m'⟩ :: tokens) (Shows (.array items)) := by
  intro b rest whole place
  obtain ⟨nodes, taken, shows⟩ := inside { b with tokens := tokens ++ rest } rest whole rfl
  refine ⟨.list m none nodes, ?_, m, nodes, rfl, shows⟩
  rw [List.cons_append] at place
  rw [node_eq whole place rfl, content_list, bind_eq (pass_eq place)]
  exact bind_eq taken

end Lists

/-! ## Tables -/

section Tables

variable {name : String} {value : Json} {members : List (String × Json)}
variable {start m m' k k' n n' v v' : Mark} {inBlock inTable : Bool}

theorem endsFlowNode_eq_false {closing kind : TokenKind} (content : isContent kind)
    (closes : isContent closing = false) : endsFlowNode closing kind = false := by
  rw [endsFlowNode, decide_eq_false_iff_not]
  rintro (rfl | rfl)
  · cases content
  · rw [content] at closes
    cases closes

/-- A value follows its colon. -/
theorem takes_value {P : Node → Prop} (kinds : tokens.map Token.kind = tokenKinds value)
    (taken : Takes (node false false fuel) tokens P) :
    Takes (flowValue .flowTableEnd (fuel + 1)) (⟨.value, v, v'⟩ :: tokens) P := by
  intro b rest whole place
  obtain ⟨t, tokens', rfl, content⟩ := exists_content kinds
  have goesOn : endsFlowNode .flowTableEnd t.kind = false := endsFlowNode_eq_false content rfl
  have peek := peek_eq (b := { b with tokens := t :: tokens' ++ rest }) whole rfl
  rw [List.cons_append] at place
  rw [flowValue, bind_eq (peek_eq whole place)]
  dsimp only
  rw [bind_eq (pass_eq place), nodeUnless]
  obtain ⟨node, taken, has⟩ := taken { b with tokens := t :: tokens' ++ rest } rest whole rfl
  refine ⟨node, ?_, has⟩
  rw [bind_eq peek]
  dsimp only
  rw [goesOn]
  exact taken

/-- A name is taken where a key may be left out. -/
def flowKey (fuel : Nat) : Build Node :=
  let ends (kind : TokenKind) : Bool := kind = .value ∨ endsFlowNode .flowTableEnd kind
  nodeUnless ends (·.start) (node false false fuel)

/-- A name in double quotes is taken as a key. -/
theorem takes_name (fuel : Nat) : Takes (flowKey (fuel + 2)) [⟨.scalar .double name, n, n'⟩]
    (· = .scalar n none .double name) := by
  intro b rest whole place
  rw [List.singleton_append] at place
  have scalar : Takes (node false false (fuel + 2)) [⟨.scalar .double name, n, n'⟩]
      (· = .scalar n none .double name) := takes_scalar
  obtain ⟨node, taken, has⟩ := scalar b rest whole place
  refine ⟨node, ?_, has⟩
  rw [flowKey, nodeUnless, bind_eq (peek_eq whole place)]
  exact taken

/-- A member with those after it, from its key on. -/
def membersFrom (start : Mark) (fuel : Nat) : Build (List (Node × Node)) := do
  pass
  let key ← flowKey fuel
  let value ← flowValue .flowTableEnd fuel
  return (key, value) :: (← flowMembers start false fuel)

/-- A table that goes on takes its member and then the others. -/
theorem flowMembers_eq {first : Bool} {b' : Builder}
    (next : comma first .flowTableEnd .noFlowMember .flowTable start b = (some ⟨.key, k, k'⟩, b')) :
    flowMembers start first (fuel + 1) b = membersFrom start fuel b' := by
  rw [flowMembers, bind_eq next]
  rfl

/-- A member and those after it are taken. -/
theorem takes_member (kinds : tokens.map Token.kind = tokenKinds value)
    (head : Takes (node false false (fuel + 1)) tokens (Shows value))
    (tail : Takes (flowMembers start false (fuel + 2)) others (ShowsMembers members)) :
    Takes (membersFrom start (fuel + 2))
      (⟨.key, k, k'⟩ :: ⟨.scalar .double name, n, n'⟩ :: ⟨.value, v, v'⟩ :: (tokens ++ others))
      (ShowsMembers ((name, value) :: members)) := by
  intro b rest whole place
  simp only [List.cons_append, List.append_assoc] at place
  obtain ⟨key, taken, rfl⟩ := takes_name fuel
    { b with tokens := ⟨.scalar .double name, n, n'⟩ :: ⟨.value, v, v'⟩ :: (tokens ++ (others ++ rest)) }
    (⟨.value, v, v'⟩ :: (tokens ++ (others ++ rest))) whole rfl
  obtain ⟨node, takenValue, shows⟩ := takes_value kinds head
    { b with tokens := ⟨.value, v, v'⟩ :: (tokens ++ (others ++ rest)) } (others ++ rest) whole rfl
  obtain ⟨nodes, takenAll, showsAll⟩ := tail { b with tokens := others ++ rest } rest whole rfl
  refine ⟨(.scalar n none .double name, node) :: nodes, ?_, n, node, nodes, rfl, shows, showsAll⟩
  rw [membersFrom, bind_eq (pass_eq place), bind_eq taken, bind_eq takenValue, bind_eq takenAll]
  rfl

/-- The first member stands without a comma. -/
theorem takes_firstMember
    (inside : Takes (membersFrom start fuel) (⟨.key, k, k'⟩ :: tokens) (ShowsMembers members)) :
    Takes (flowMembers start true (fuel + 1)) (⟨.key, k, k'⟩ :: tokens) (ShowsMembers members) := by
  intro b rest whole place
  rw [flowMembers_eq (comma_first whole place)]
  exact inside b rest whole place

theorem takes_nextMember
    (inside : Takes (membersFrom start fuel) (⟨.key, k, k'⟩ :: tokens) (ShowsMembers members)) :
    Takes (flowMembers start false (fuel + 1)) (⟨.comma, m, m'⟩ :: ⟨.key, k, k'⟩ :: tokens)
      (ShowsMembers members) := by
  intro b rest whole place
  rw [flowMembers_eq (comma_next (by decide) whole place)]
  exact inside { b with tokens := _ } rest whole rfl

theorem takes_lastMember {first : Bool} :
    Takes (flowMembers start first (fuel + 1)) [⟨.flowTableEnd, m, m'⟩] (ShowsMembers []) := by
  intro b rest whole place
  refine ⟨[], ?_, rfl⟩
  rw [flowMembers, bind_eq (comma_end (t := ⟨.flowTableEnd, m, m'⟩) whole place)]
  dsimp only
  rw [bind_eq (pass_eq place)]
  rfl

/-- The tokens of a table are taken from its opening brace to its closing one. -/
theorem takes_table (inside : Takes (flowMembers m true fuel) tokens (ShowsMembers members)) :
    Takes (node inBlock inTable (fuel + 2)) (⟨.flowTableStart, m, m'⟩ :: tokens) (Shows (.object members)) := by
  intro b rest whole place
  obtain ⟨nodes, taken, shows⟩ := inside { b with tokens := tokens ++ rest } rest whole rfl
  refine ⟨.table m none nodes, ?_, m, nodes, rfl, shows⟩
  rw [List.cons_append] at place
  rw [node_eq whole place rfl, content_table, bind_eq (pass_eq place)]
  exact bind_eq taken

end Tables

/-! ## Whole values -/

theorem exists_tokens {kind : TokenKind} {kinds : List TokenKind}
    (all : tokens.map Token.kind = kind :: kinds) :
    ∃ m m' others, tokens = ⟨kind, m, m'⟩ :: others ∧ others.map Token.kind = kinds := by
  rw [List.map_eq_cons_iff] at all
  obtain ⟨⟨kind, m, m'⟩, others, rfl, rfl, rest⟩ := all
  exact ⟨m, m', others, rfl, rest⟩

/-- The tokens of a member, told apart: its name, its value and those behind it. -/
theorem exists_member {name : String} {value : Json} {members : List (String × Json)}
    (all : tokens.map Token.kind = nameKinds name ++ (tokenKinds value ++ memberKinds members)) :
    ∃ k k' n n' v v' front back,
      tokens = ⟨.key, k, k'⟩ :: ⟨.scalar .double name, n, n'⟩ :: ⟨.value, v, v'⟩ :: (front ++ back) ∧
        front.map Token.kind = tokenKinds value ∧ back.map Token.kind = memberKinds members := by
  obtain ⟨k, k', _, rfl, fromName⟩ := exists_tokens all
  obtain ⟨n, n', _, rfl, fromColon⟩ := exists_tokens fromName
  obtain ⟨v, v', _, rfl, inside⟩ := exists_tokens fromColon
  obtain ⟨front, back, rfl, frontKinds, backKinds⟩ :=
    List.map_eq_append_iff.mp (inside.trans (List.nil_append _))
  exact ⟨k, k', n, n', v, v', front, back, rfl, frontKinds, backKinds⟩

/-- The tokens of a value that is no container are one scalar. -/
theorem takes_one {j : Json} {style : Style} {text : String} {inBlock inTable : Bool}
    (kinds : tokens.map Token.kind = [.scalar style text]) (enough : 3 * tokens.length ≤ fuel)
    (shows : ∀ mark, Shows j (.scalar mark none style text)) :
    Takes (node inBlock inTable fuel) tokens (Shows j) := by
  obtain ⟨m, m', others, rfl, last⟩ := exists_tokens kinds
  obtain rfl := List.map_eq_nil_iff.mp last
  obtain ⟨fuel, rfl⟩ := Nat.exists_eq_add_of_le' enough
  intro b rest whole place
  have scalar : Takes (node inBlock inTable (fuel + 3)) [⟨.scalar style text, m, m'⟩]
      (· = .scalar m none style text) := takes_scalar
  obtain ⟨_, taken, rfl⟩ := scalar b rest whole place
  exact ⟨_, taken, shows m⟩

mutual

/-- From the tokens of a value comes a node that shows the value. -/
theorem takes_node : ∀ (j : Json) (inBlock : Bool) {tokens : List Token} {fuel : Nat},
    tokens.map Token.kind = tokenKinds j → 3 * tokens.length ≤ fuel →
    Takes (node inBlock false fuel) tokens (Shows j)
  | .null, _, _, _, kinds, enough => takes_one kinds enough fun mark => ⟨mark, rfl⟩
  | .bool b, _, _, _, kinds, enough => takes_one kinds enough fun mark => ⟨mark, rfl⟩
  | .number n, _, _, _, kinds, enough => takes_one kinds enough fun mark => ⟨mark, rfl⟩
  | .string s, _, _, _, kinds, enough => takes_one kinds enough fun mark => ⟨mark, rfl⟩
  | .array [], _, _, _, kinds, enough => by
    obtain ⟨m, m', _, rfl, inside⟩ := exists_tokens kinds
    obtain ⟨n, n', others, rfl, none⟩ := exists_tokens inside
    obtain rfl := List.map_eq_nil_iff.mp none
    obtain ⟨fuel, rfl⟩ := Nat.exists_eq_add_of_le' (Nat.le_trans (show 3 ≤ 3 * 2 by decide) enough)
    exact takes_list takes_lastItem
  | .array (item :: items), _, _, fuel, kinds, enough => by
    obtain ⟨m, m', _, rfl, inside⟩ := exists_tokens kinds
    obtain ⟨front, back, rfl, frontKinds, backKinds⟩ := List.map_eq_append_iff.mp inside
    rw [List.length_cons, List.length_append] at enough
    obtain ⟨fuel, rfl⟩ := Nat.exists_eq_add_of_le' (show 3 ≤ fuel by omega)
    exact takes_list (takes_firstItem frontKinds (takes_node item false frontKinds (by omega))
      (takes_items items backKinds (by omega)))
  | .object [], _, _, _, kinds, enough => by
    obtain ⟨m, m', _, rfl, inside⟩ := exists_tokens kinds
    obtain ⟨n, n', others, rfl, none⟩ := exists_tokens inside
    obtain rfl := List.map_eq_nil_iff.mp none
    obtain ⟨fuel, rfl⟩ := Nat.exists_eq_add_of_le' (Nat.le_trans (show 3 ≤ 3 * 2 by decide) enough)
    exact takes_table takes_lastMember
  | .object ((name, value) :: members), _, _, fuel, kinds, enough => by
    obtain ⟨m, m', _, rfl, fromKey⟩ := exists_tokens kinds
    obtain ⟨k, k', n, n', v, v', front, back, rfl, frontKinds, backKinds⟩ := exists_member fromKey
    simp only [List.length_cons, List.length_append] at enough
    obtain ⟨fuel, rfl⟩ := Nat.exists_eq_add_of_le' (show 5 ≤ fuel by omega)
    exact takes_table (takes_firstMember (takes_member frontKinds (takes_node value false frontKinds (by omega))
      (takes_members members backKinds (by omega))))

/-- From the tokens of items come nodes that show the items. -/
theorem takes_items : ∀ (items : List Json) {start : Mark} {tokens : List Token} {fuel : Nat},
    tokens.map Token.kind = itemKinds items → 3 * tokens.length ≤ fuel →
    Takes (flowItems start false fuel) tokens (ShowsItems items)
  | [], _, _, _, kinds, enough => by
    obtain ⟨m, m', others, rfl, none⟩ := exists_tokens kinds
    obtain rfl := List.map_eq_nil_iff.mp none
    obtain ⟨fuel, rfl⟩ := Nat.exists_eq_add_of_le' (Nat.le_trans (show 1 ≤ 3 * 1 by decide) enough)
    exact takes_lastItem
  | item :: items, _, _, fuel, kinds, enough => by
    obtain ⟨m, m', _, rfl, inside⟩ := exists_tokens kinds
    obtain ⟨front, back, rfl, frontKinds, backKinds⟩ := List.map_eq_append_iff.mp inside
    rw [List.length_cons, List.length_append] at enough
    obtain ⟨fuel, rfl⟩ := Nat.exists_eq_add_of_le' (show 1 ≤ fuel by omega)
    exact takes_nextItem frontKinds (takes_node item false frontKinds (by omega))
      (takes_items items backKinds (by omega))

/-- From the tokens of members come nodes that show the members. -/
theorem takes_members : ∀ (members : List (String × Json)) {start : Mark} {tokens : List Token} {fuel : Nat},
    tokens.map Token.kind = memberKinds members → 3 * tokens.length ≤ fuel →
    Takes (flowMembers start false fuel) tokens (ShowsMembers members)
  | [], _, _, _, kinds, enough => by
    obtain ⟨m, m', others, rfl, none⟩ := exists_tokens kinds
    obtain rfl := List.map_eq_nil_iff.mp none
    obtain ⟨fuel, rfl⟩ := Nat.exists_eq_add_of_le' (Nat.le_trans (show 1 ≤ 3 * 1 by decide) enough)
    exact takes_lastMember
  | (name, value) :: members, _, _, fuel, kinds, enough => by
    obtain ⟨m, m', _, rfl, fromKey⟩ := exists_tokens kinds
    obtain ⟨k, k', n, n', v, v', front, back, rfl, frontKinds, backKinds⟩ := exists_member fromKey
    simp only [List.length_cons, List.length_append] at enough
    obtain ⟨fuel, rfl⟩ := Nat.exists_eq_add_of_le' (show 3 ≤ fuel by omega)
    exact takes_nextMember (takes_member frontKinds (takes_node value false frontKinds (by omega))
      (takes_members members backKinds (by omega)))

end

/-! ## Documents -/

/-- A document that starts with its content has no directives. -/
theorem directives_eq (whole : b.broken = none) (place : b.tokens = t :: rest) (content : isContent t.kind) :
    directives false fuel b = ((), b) := by
  cases fuel with
  | zero => rfl
  | succ fuel =>
    rw [directives, bind_eq (peek_eq whole place)]
    obtain ⟨kind, start, stop⟩ := t
    cases kind <;> first | rfl | cases content

/-- A value is the root of a document that does not say where it begins. -/
theorem root_eq {j : Json} (whole : b.broken = none) (place : b.tokens = tokens ++ rest)
    (kinds : tokens.map Token.kind = tokenKinds j) (enough : 3 * tokens.length ≤ fuel) :
    ∃ node, Shows j node ∧
      root fuel b = (node, { b with tokens := rest, handles := b.handles ++ commonHandles }) := by
  obtain ⟨t, others, rfl, content⟩ := exists_content kinds
  obtain ⟨node, taken, shows⟩ := takes_node j true kinds enough
    { b with handles := b.handles ++ commonHandles } rest whole place
  refine ⟨node, shows, ?_⟩
  rw [List.cons_append] at place
  have none : directives false fuel b = ((), b) := directives_eq whole place content
  rw [root, bind_eq (peek_eq whole place)]
  obtain ⟨kind, start, stop⟩ := t
  cases kind <;> first
    | cases content; done
    | dsimp only; rw [bind_eq none]; exact taken

/-- The tokens of a text with one value give a whole document with a node that shows the value. -/
theorem document_eq {j : Json} (ending : Option Problem)
    (kinds : tokens.map Token.kind = .textStart :: (tokenKinds j ++ [.textEnd])) :
    ∃ root b, document (3 * tokens.length + 8) { tokens, ending } = (root, b) ∧
      Shows j root ∧ b.broken = none ∧ goesOn b.tokens = false := by
  obtain ⟨m, m', _, rfl, inside⟩ := exists_tokens kinds
  obtain ⟨front, back, rfl, frontKinds, backKinds⟩ := List.map_eq_append_iff.mp inside
  obtain ⟨n, n', _, rfl, none⟩ := exists_tokens backKinds
  obtain rfl := List.map_eq_nil_iff.mp none
  generalize fuels : 3 * (⟨.textStart, m, m'⟩ :: (front ++ [⟨.textEnd, n, n'⟩]) : List Token).length + 8 = fuel
  have enough : 3 * front.length ≤ fuel := by
    rw [List.length_cons, List.length_append] at fuels
    omega
  obtain ⟨node, shows, taken⟩ := root_eq (b := { tokens := front ++ [⟨.textEnd, n, n'⟩], ending }) rfl rfl
    frontKinds enough
  refine ⟨node, { tokens := [⟨.textEnd, n, n'⟩], ending, handles := commonHandles }, ?_, shows, rfl, rfl⟩
  rw [document, bind_eq (peek_eq rfl rfl)]
  dsimp only
  rw [bind_eq (pass_eq rfl), bind_eq taken]
  rfl

/-- A portable text of which each character may stand in a text is a whole document with a node that shows its
value. -/
theorem Document.ofText_spelling {s : Json.TextSpelling} (portable : s.isPortable)
    (integral : s.root.written.isIntegral) (allowed : s.chars.all isAllowed) :
    Shows s.root.written (Document.ofText s.chars).root ∧ (Document.ofText s.chars).broken = none ∧
      (Document.ofText s.chars).followed = false := by
  obtain ⟨tokens, all, kinds⟩ := Token.ofText_spelling portable integral allowed
  obtain ⟨root, b, built, shows, whole, single⟩ := document_eq none kinds
  have built' : (document (3 * tokens.length + 8)).run { tokens, ending := none } = (root, b) := built
  rw [Document.ofText, all]
  dsimp only
  rw [built']
  exact ⟨shows, whole, single⟩

end Tenancy.Yaml
