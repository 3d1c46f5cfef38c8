import Tenancy.Json.Patch
import Tenancy.Proofs.Json.RoundTrip

/-! # Patches read back

A patch travels as text. Its pointers are read back from theirs, each operation from its document, and the
whole patch from its bytes, as long as the values in it can be written without loss.
-/

namespace Tenancy.Json

variable {op : Operation} {patch : Patch} {name : String} {value : Json} {path source : Pointer}

/-! ## Pointers -/

namespace Pointer

private theorem readTokens_ordinary {c : Char} (tilde : c ≠ '~') (slash : c ≠ '/') (token rest : List Char) :
    readTokens token (c :: rest) = readTokens (c :: token) rest := by
  rw [readTokens, if_neg tilde, if_neg slash]
  · exact fun rest same => absurd same tilde
  · exact fun rest same => absurd same tilde

private theorem readTokens_slash (token rest : List Char) : readTokens token ('/' :: rest) =
    (readTokens [] rest).map (String.ofList token.reverse :: ·) := by
  simp [readTokens]

private theorem readTokens_renderChar (c : Char) (token rest : List Char) :
    readTokens token (renderChar c ++ rest) = readTokens (c :: token) rest := by
  rw [renderChar]
  split_ifs with tilde slash
  · subst tilde
    rfl
  · subst slash
    rfl
  · exact readTokens_ordinary tilde slash token rest

/-- The characters of a token are read back, last first. -/
private theorem readTokens_render (cs token rest : List Char) :
    readTokens token (cs.flatMap renderChar ++ rest) = readTokens (cs.reverse ++ token) rest := by
  induction cs generalizing token with
  | nil => rfl
  | cons c cs ih =>
    rw [List.flatMap_cons, List.append_assoc, readTokens_renderChar, ih, List.reverse_cons,
      List.append_assoc, List.singleton_append]

private theorem readTokens_tokens (first : String) (tokens : List String) :
    readTokens [] (first.toList.flatMap renderChar ++
      tokens.flatMap fun token => '/' :: token.toList.flatMap renderChar) = .ok (first :: tokens) := by
  induction tokens generalizing first with
  | nil =>
    rw [readTokens_render, List.flatMap_nil, readTokens, List.append_nil, List.reverse_reverse,
      String.ofList_toList]
  | cons second tokens ih =>
    rw [readTokens_render, List.flatMap_cons, List.cons_append, readTokens_slash, ih, List.append_nil,
      List.reverse_reverse, String.ofList_toList]
    rfl

/-- A pointer is read back from its text. -/
theorem read_render (p : Pointer) : read p.render = .ok p := by
  obtain ⟨tokens⟩ := p
  cases tokens with
  | nil => rfl
  | cons first tokens =>
    rw [read, render, String.toList_ofList, List.flatMap_cons, List.cons_append]
    simp only [readTokens_tokens]
    rfl

end Pointer

/-! ## Operations -/

namespace Operation

def value? : Operation → Option Json
  | .add _ value | .replace _ value | .test _ value => some value
  | _ => none

theorem decodeValue_document (v : Json) : decodeValue v .document = .ok v := by
  cases v <;> rfl

/-- An operation is decoded from its name and the fields that go with it. -/
theorem decode_of_parts (name : String) (normal : List (String × Json))
    {members : List (String × Json)} (known : name ∈ names)
    (named : lookup "op" members = some (.string name))
    (fields : decodeValue (.object (erase "op" members))
      (.record (.declared (name.capitalize ++ "Operation")) (.ofList (fields name))) =
      .ok (.object normal)) :
    decode (.object members) = .ok (ofFields name normal) := by
  rw [decode, decodeName, named]
  simp only [decodeName.known, if_pos known]
  simp only [bind, Except.bind, pure, Except.pure, Schema.decode, fields]

/-- The members of an operation at one place decode as they were written. -/
theorem decode_place (kind : String) (path : Pointer) :
    decodeValue (.object [("path", .string path.render)])
      (.record (.declared kind) (.ofList [.required "path" .pointer])) =
      .ok (.object [("path", .string path.render)]) := by
  simp [decodeValue, decodeMembers, Fields.ofList, Fields.find?, Field.required, Field.takesNull,
    Schema.accept, Pointer.read_render, Schema.checkLiteral, Layout.complete, Fields.assemble, lookup,
    bind, Except.bind, pure, Except.pure]

/-- Those of an operation between two places do as well. -/
theorem decode_places (kind : String) (source path : Pointer) :
    decodeValue (.object [("from", .string source.render), ("path", .string path.render)])
      (.record (.declared kind) (.ofList [.required "from" .pointer, .required "path" .pointer])) =
      .ok (.object [("from", .string source.render), ("path", .string path.render)]) := by
  simp [decodeValue, decodeMembers, Fields.ofList, Fields.find?, Field.required, Field.takesNull,
    Schema.accept, Pointer.read_render, Schema.checkLiteral, Layout.complete, Layout.refusesRepeats,
    Fields.assemble, lookup, bind, Except.bind, pure, Except.pure]

/-- So do those of an operation that brings a value. -/
theorem decode_value (kind : String) (path : Pointer) (value : Json) :
    decodeValue (.object [("path", .string path.render), ("value", value)])
      (.record (.declared kind)
        (.ofList [.required "path" .pointer, ⟨"value", .refuse, .fill .null, .document⟩])) =
      .ok (.object [("path", .string path.render), ("value", value)]) := by
  simp [decodeValue, decodeMembers, Fields.ofList, Fields.find?, Field.required, Field.takesNull,
    Schema.accept, Pointer.read_render, Schema.checkLiteral, Layout.complete, Layout.refusesRepeats,
    Fields.assemble, lookup, decodeValue_document, bind, Except.bind, pure, Except.pure]
  cases value <;> rfl

/-- The members of a written operation that says a place only, in order. -/
private theorem sorted_place : (object [("op", .string name), ("path", .string path.render)]).sorted =
    .object [("op", .string name), ("path", .string path.render)] := by
  have order : "op" < "path" := by decide
  refine sorted_eq_self _ (isOrdered_object.mpr ⟨?_, ?_⟩)
  · exact increasing_cons.mpr ⟨List.forall_mem_singleton.mpr order, List.pairwise_singleton ..⟩
  · exact List.forall_mem_cons.mpr ⟨rfl, List.forall_mem_singleton.mpr rfl⟩

private theorem sorted_value (ordered : value.isOrdered) :
    (object [("op", .string name), ("path", .string path.render), ("value", value)]).sorted =
      .object [("op", .string name), ("path", .string path.render), ("value", value)] := by
  have first : "op" < "path" ∧ "op" < "value" := by decide
  have second : "path" < "value" := by decide
  refine sorted_eq_self _ (isOrdered_object.mpr ⟨?_, ?_⟩)
  · refine increasing_cons.mpr ⟨?_, increasing_cons.mpr ⟨List.forall_mem_singleton.mpr second,
      List.pairwise_singleton ..⟩⟩
    exact List.forall_mem_cons.mpr ⟨first.1, List.forall_mem_singleton.mpr first.2⟩
  · exact List.forall_mem_cons.mpr ⟨rfl, List.forall_mem_cons.mpr ⟨rfl,
      List.forall_mem_singleton.mpr ordered⟩⟩

/-- Of an operation with two places the first comes before the name. -/
private theorem sorted_places : (object [("op", .string name), ("from", .string source.render),
    ("path", .string path.render)]).sorted =
      .object [("from", .string source.render), ("op", .string name), ("path", .string path.render)] := by
  have order : ¬ "from" = "op" ∧ "from" < "op" ∧ ¬ "path" = "from" ∧ ¬ "path" < "from" ∧
      ¬ "path" = "op" ∧ ¬ "path" < "op" := by decide
  simp [sorted, sortedMembers, ofMembers, insert, order]

private theorem decode_valued (kind : name ∈ ["add", "replace", "test"]) (ordered : value.isOrdered) :
    decode (object [("op", .string name), ("path", .string path.render), ("value", value)]).sorted =
      .ok (ofFields name [("path", .string path.render), ("value", value)]) := by
  have known : name ∈ names := (by decide : ∀ name ∈ ["add", "replace", "test"], name ∈ names) name kind
  rw [sorted_value ordered]
  refine decode_of_parts name _ known rfl ?_
  rw [fields, if_pos kind]
  exact decode_value _ path value

private theorem decode_placed (kind : name ∈ ["move", "copy"]) :
    decode (object [("op", .string name), ("from", .string source.render), ("path", .string path.render)]).sorted =
      .ok (ofFields name [("from", .string source.render), ("path", .string path.render)]) := by
  have known : name ∈ names := (by decide : ∀ name ∈ ["move", "copy"], name ∈ names) name kind
  have other : name ∉ ["add", "replace", "test"] :=
    (by decide : ∀ name ∈ ["move", "copy"], name ∉ ["add", "replace", "test"]) name kind
  rw [sorted_places]
  refine decode_of_parts name _ known rfl ?_
  rw [fields, if_neg other, if_pos kind]
  exact decode_places _ source path

/-- An operation is decoded from its document, whichever of the three shapes it has. -/
theorem decode_toJson (ordered : ∀ value, op.value? = some value → value.isOrdered) :
    decode op.toJson.sorted = .ok op := by
  cases op with
  | add path value | replace path value | test path value =>
    refine (decode_valued (by decide) (ordered value rfl)).trans ?_
    simp [ofFields, lookup, text?, Pointer.read_render]
  | move source path | copy source path =>
    refine (decode_placed (by decide)).trans ?_
    simp [ofFields, lookup, text?, Pointer.read_render]
  | remove path =>
    rw [toJson, sorted_place]
    refine (decode_of_parts "remove" [("path", .string path.render)] (by decide) rfl ?_).trans ?_
    · exact decode_place _ path
    · simp [ofFields, lookup, text?, Pointer.read_render]

/-- An operation is written with whole numbers when its value has no others. -/
theorem isIntegral_toJson (integral : ∀ value, op.value? = some value → value.isIntegral) :
    op.toJson.isIntegral := by
  cases op with
  | add path value | replace path value | test path value =>
    exact isIntegral_object.mpr (List.forall_mem_cons.mpr ⟨rfl, List.forall_mem_cons.mpr ⟨rfl,
      List.forall_mem_singleton.mpr (integral value rfl)⟩⟩)
  | remove path =>
    exact isIntegral_object.mpr (List.forall_mem_cons.mpr ⟨rfl, List.forall_mem_singleton.mpr rfl⟩)
  | move source path | copy source path =>
    exact isIntegral_object.mpr (List.forall_mem_cons.mpr ⟨rfl, List.forall_mem_cons.mpr ⟨rfl,
      List.forall_mem_singleton.mpr rfl⟩⟩)

/-- The document of an operation has no member twice, so that it is as deep when it is in order. -/
theorem depth_sorted_toJson (ordered : ∀ value, op.value? = some value → value.isOrdered) :
    op.toJson.sorted.depth = op.toJson.depth := by
  cases op with
  | add path value | replace path value | test path value => rw [toJson, sorted_value (ordered value rfl)]
  | remove path => rw [toJson, sorted_place]
  | move source path | copy source path =>
    rw [toJson, sorted_places]
    rfl

end Operation

/-! ## Whole patches -/

namespace Patch

def ofText? (text : List UInt8) : Option Patch := do
  let document ← (Json.read text).toOption
  (decode document).toOption

private theorem mapM_decode (ordered : ∀ op ∈ patch, ∀ value, op.value? = some value → value.isOrdered) :
    ((patch.map Operation.toJson).map sorted).mapM Operation.decode = .ok patch := by
  induction patch with
  | nil => rfl
  | cons op patch ih =>
    rw [List.forall_mem_cons] at ordered
    rw [List.map_cons, List.map_cons, List.mapM_cons, Operation.decode_toJson ordered.1, ih ordered.2]
    rfl

private theorem isIntegral_toJson
    (integral : ∀ op ∈ patch, ∀ value, op.value? = some value → value.isIntegral) : patch.toJson.isIntegral := by
  refine isIntegral_array.mpr fun item present => ?_
  obtain ⟨op, among, rfl⟩ := List.mem_map.mp present
  exact Operation.isIntegral_toJson (integral op among)

private theorem depth_sorted_toJson
    (ordered : ∀ op ∈ patch, ∀ value, op.value? = some value → value.isOrdered) :
    patch.toJson.sorted.depth = patch.toJson.depth := by
  rw [toJson, sorted_array, depth, depth]
  congr 1
  induction patch with
  | nil => rfl
  | cons op patch ih =>
    rw [List.forall_mem_cons] at ordered
    rw [List.map_cons, List.map_cons, depthItems, depthItems, Operation.depth_sorted_toJson ordered.1,
      ih ordered.2]

/-- The patch that a text holds, for a reader that lets so many containers be open at once. -/
def ofTextAtMost? (limit : Nat) (text : List UInt8) : Option Patch := do
  let (document, rest) ← (readDocument (readFuel text) (limit + 1) text).toOption
  (readEnd rest).toOption
  (decode document).toOption

theorem ofText?_eq (text : List UInt8) : ofText? text = ofTextAtMost? 127 text := by
  have limit : 127 + 1 = depthLimit := rfl
  rw [ofText?, ofTextAtMost?, read, limit]
  cases readDocument (readFuel text) depthLimit text with
  | error e => rfl
  | ok found =>
    simp only [Except.toOption, bind, Except.bind, Option.bind]
    cases readEnd found.2 <;> rfl

/-- A patch is read back from its text by every reader that lets as many containers be open as it has, and
by no other. -/
theorem ofTextAtMost?_encode (limit : Nat)
    (plain : ∀ op ∈ patch, ∀ value, op.value? = some value → value.isIntegral ∧ value.isOrdered) :
    ofTextAtMost? limit patch.toJson.encode = if patch.toJson.depth ≤ limit then some patch else none := by
  have integral := isIntegral_toJson fun op among value carried => (plain op among value carried).1
  have ordered := fun op among value carried => (plain op among value carried).2
  have decoded : decode patch.toJson.sorted = .ok patch := by
    rw [toJson, sorted_array]
    exact mapM_decode ordered
  have enough : patch.toJson.encode.length ≤ readFuel patch.toJson.encode := by
    rw [readFuel]
    omega
  have found := toOption_readDocument_sorted integral (depth_sorted_toJson ordered) (Nat.succ_pos limit) enough
    (show endsNumber [] from rfl)
  rw [List.append_nil] at found
  rw [ofTextAtMost?, found]
  simp only [Nat.lt_succ_iff]
  split_ifs
  · simp only [Option.bind_eq_bind, Option.bind_some, decoded]
    rfl
  · rfl

/-- A patch that is not too deep is read back from its text. -/
theorem ofText?_encode
    (plain : ∀ op ∈ patch, ∀ value, op.value? = some value → value.isIntegral ∧ value.isOrdered)
    (shallow : patch.toJson.depth ≤ 127) : ofText? patch.toJson.encode = some patch := by
  rw [ofText?_eq, ofTextAtMost?_encode 127 plain, if_pos shallow]

end Patch

end Tenancy.Json
