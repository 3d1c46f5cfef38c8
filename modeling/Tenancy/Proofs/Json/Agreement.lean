import Tenancy.Proofs.Json.Agreement.Containers
import Tenancy.Proofs.Json.Agreement.Records

/-! # Reading typed texts agrees with decoding

On the text of a document in order, the typed reader gives what `decodeWithin` tells from the document, by
whichever schema.
-/

namespace Tenancy.Json

variable {fuel depth : Nat} {schema : Schema} {next rest : Input} {items : List Json}
  {members : List (String × Json)} {layout : Layout} {fields : Fields}

/-- No other schema takes a list. -/
theorem toOption_readTyped_noList (typed : schema ≠ .document) (plain : ∀ names, schema ≠ .choice names)
    (noList : ∀ item, schema ≠ .list item)
    (noPlaces : ∀ name fields, schema ≠ .record (.declared name) fields) :
    (readTyped (fuel + 1) schema depth (ascii '[' :: next)).toOption = none := by
  rw [readTyped, skipSpace_cons _ (by decide)]
  · simp only [if_true, decide_eq_true_eq]
    cases schema with
    | list item => exact absurd rfl (noList item)
    | record layout fields =>
      cases layout with
      | declared name => exact absurd rfl (noPlaces name fields)
      | lenient name => split_ifs <;> simp
      | gathered name surplus => rfl
    | _ => rfl
  · exact typed
  · exact plain

/-- No other schema takes an object. -/
theorem toOption_readTyped_noTable (typed : schema ≠ .document)
    (plain : ∀ names, schema ≠ .choice names) (noTable : ∀ item, schema ≠ .table item)
    (noRecord : ∀ layout fields, schema ≠ .record layout fields) :
    (readTyped (fuel + 1) schema depth (ascii '\x7b' :: next)).toOption = none := by
  have brace : ¬ ascii '\x7b' = ascii '[' := by decide
  rw [readTyped, skipSpace_cons _ (by decide)]
  · simp only [if_neg brace, if_true]
    cases schema with
    | table item => exact absurd rfl (noTable item)
    | record layout fields => exact absurd rfl (noRecord layout fields)
    | _ => rfl
  · exact typed
  · exact plain

private theorem agrees_array (integral : ∀ item ∈ items, item.isIntegral)
    (ordered : ∀ item ∈ items, item.isOrdered) (each : ∀ item ∈ items, Agrees item) :
    Agrees (.array items) := by
  intro schema depth fuel rest room enough ends
  have bytes : (array items).encode ++ rest = ascii '[' :: (listBytes items ++ rest) := by
    rw [encode_array, List.cons_append]
  have length : (array items).encode.length = (listBytes items).length + 1 := by
    rw [encode_array, List.length_cons]
  obtain ⟨fuel, rfl⟩ := Nat.exists_eq_succ_of_ne_zero (by omega : fuel ≠ 0)
  cases schema with
  | document =>
    rw [readTyped, toOption_readDocument (isIntegral_array.mpr integral) (isOrdered_array.mpr ordered)
      room (by omega) ends, decodeWithin]
    split_ifs <;> rfl
  | list item =>
    rw [Schema.width] at enough
    rw [bytes, toOption_readTyped_list, decodeWithin]
    split_ifs with deep
    · rfl
    · rw [toOption_readListOf_listBytes integral each (by omega) (by omega)]
      cases itemsWithin items (depth - 1) item <;> rfl
  | record layout fields =>
    cases layout with
    | declared name =>
      rw [Schema.width] at enough
      rw [bytes, toOption_readTyped_places, decodeWithin]
      split_ifs with deep
      · rfl
      · rw [placed_readPlaces_listBytes (by omega) integral each (by omega) (by omega)]
        cases placesWithin items (depth - 1) fields <;> rfl
    | _ =>
      rw [bytes, toOption_readTyped_noList (by simp) (by simp) (by simp) (by simp)]
      rfl
  | choice names =>
    rw [bytes, readTyped, toOption_readChoice_other (by decide) (by decide) (by decide)]
    rfl
  | _ =>
    rw [bytes, toOption_readTyped_noList (by simp) (by simp) (by simp) (by simp)]
    rfl

/-- A record is read by the names of its members, which need not be in order. -/
theorem toOption_readTyped_members (integral : ∀ m ∈ members, m.2.isIntegral)
    (ordered : ∀ m ∈ members, m.2.isOrdered) (each : ∀ m ∈ members, Agrees m.2)
    (distinct : (members.map Prod.fst).Nodup)
    (enough : 2 * (object members).encode.length + fields.width ≤ fuel) :
    (readTyped fuel (.record layout fields) depth ((object members).encode ++ rest)).toOption =
      (decodeWithin (object members) depth (.record layout fields)).map (·, rest) := by
  have length : (object members).encode.length = (tableBytes members).length + 1 := by
    rw [encode_object, List.length_cons]
  obtain ⟨fuel, rfl⟩ := Nat.exists_eq_succ_of_ne_zero (by omega : fuel ≠ 0)
  rw [encode_object, List.cons_append, toOption_readTyped_record, decodeWithin]
  split_ifs with deep
  · rfl
  · rw [settled_readFields_tableBytes integral ordered each (by omega) distinct (by omega)]
    cases membersWithin members (depth - 1) layout fields with
    | none => rfl
    | some held =>
      simp only [Option.map_some, Option.bind_some, Option.bind_eq_bind]
      cases layout.complete fields held <;> rfl

private theorem agrees_object (integral : ∀ m ∈ members, m.2.isIntegral)
    (ordered : ∀ m ∈ members, m.2.isOrdered) (increasing : Increasing members)
    (each : ∀ m ∈ members, Agrees m.2) : Agrees (.object members) := by
  intro schema depth fuel rest room enough ends
  have bytes : (object members).encode ++ rest = ascii '\x7b' :: (tableBytes members ++ rest) := by
    rw [encode_object, List.cons_append]
  have length : (object members).encode.length = (tableBytes members).length + 1 := by
    rw [encode_object, List.length_cons]
  obtain ⟨fuel, rfl⟩ := Nat.exists_eq_succ_of_ne_zero (by omega : fuel ≠ 0)
  cases schema with
  | document =>
    rw [readTyped, toOption_readDocument (isIntegral_object.mpr integral)
      (isOrdered_object.mpr ⟨increasing, ordered⟩) room (by omega) ends, decodeWithin]
    split_ifs <;> rfl
  | table item =>
    rw [Schema.width] at enough
    rw [bytes, toOption_readTyped_table, decodeWithin]
    split_ifs with deep
    · rfl
    · rw [toOption_readTableOf_tableBytes each (by omega) (by omega)]
      cases tableWithin members (depth - 1) item <;> rfl
  | choice names =>
    rw [readTyped, toOption_readChoice_object integral, decodeWithin]
    split_ifs <;> rfl
  | record layout fields =>
    have wide : fields.width ≤ (Schema.record layout fields).width := width_le_width
    exact toOption_readTyped_members integral ordered each increasing.nodup (by omega)
  | _ =>
    rw [bytes, toOption_readTyped_noTable (by simp) (by simp) (by simp) (by simp)]
    rfl

/-- On a document in order with integers of 64 bits, the typed reader and decoding agree. -/
theorem agrees (j : Json) (integral : j.isIntegral) (ordered : j.isOrdered) : Agrees j := by
  induction j using parts_induction with
  | null | bool b | number n | string s => exact agrees_scalar rfl integral ordered
  | array items ih =>
    rw [isIntegral_array] at integral
    rw [isOrdered_array] at ordered
    exact agrees_array integral ordered fun item present =>
      ih item present (integral item present) (ordered item present)
  | object members ih =>
    rw [isIntegral_object] at integral
    rw [isOrdered_object] at ordered
    exact agrees_object integral ordered.2 ordered.1 fun m present =>
      ih m present (integral m present) (ordered.2 m present)

/-- A whole text ends with the value that it holds. -/
private theorem Schema.toOption_read {text : Input} {decoded : Option Json}
    (whole : (readTyped (typedFuel text) schema depthLimit (text ++ [])).toOption =
      decoded.map (·, [])) : (schema.read text).toOption = decoded := by
  rw [List.append_nil] at whole
  rw [Schema.read, toOption_bind, whole]
  cases decoded <;> rfl

/-- A whole text. It must be long enough to pay for the places of the widest record. -/
theorem Schema.read_encode {j : Json} (integral : j.isIntegral) (ordered : j.isOrdered)
    (wide : schema.width ≤ j.encode.length + 3) :
    (schema.read j.encode).toOption = decodeWithin j depthLimit schema := by
  apply Schema.toOption_read
  exact agrees j integral ordered schema depthLimit (typedFuel j.encode) [] (by decide)
    (by rw [typedFuel]; omega) rfl

/-- A whole text of a record whose members need not be in order. -/
theorem Schema.read_encode_members (integral : ∀ m ∈ members, m.2.isIntegral)
    (ordered : ∀ m ∈ members, m.2.isOrdered) (distinct : (members.map Prod.fst).Nodup)
    (wide : fields.width ≤ (object members).encode.length + 3) :
    ((Schema.record layout fields).read (object members).encode).toOption =
      decodeWithin (object members) depthLimit (.record layout fields) := by
  have each : ∀ m ∈ members, Agrees m.2 := fun m present =>
    agrees m.2 (integral m present) (ordered m present)
  apply Schema.toOption_read
  apply toOption_readTyped_members integral ordered each distinct
  rw [typedFuel]
  omega

end Tenancy.Json
