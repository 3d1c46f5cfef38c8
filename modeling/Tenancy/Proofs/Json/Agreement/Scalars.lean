import Tenancy.Proofs.Json.RoundTrip
import Tenancy.Proofs.Json.Skipping
import Tenancy.Proofs.Json.Typing
import Tenancy.Proofs.Json.Within

/-! # Scalars, in agreement

What it means that the typed reader agrees with decoding on a value: wherever the text of the value
stands, the reader makes of it what `decodeWithin` tells from the value. What follows the text does not
count, so that a value can be exchanged within a larger text without the rest being read differently.
-/

namespace Tenancy.Json

variable {fuel depth : Nat} {schema : Schema} {input rest : Input} {value : Json}
  {members : List (String × Json)} {names : List String}

/-! ## Nulls -/

/-- Null is recognized in a written value exactly when the value is null. -/
theorem readNull?_encode (integral : value.isIntegral) (ends : endsNumber rest) :
    readNull? (value.encode ++ rest) =
      .ok (if value.isNull then some (.null, rest) else none) := by
  by_cases scalar : value.isScalar
  · obtain ⟨b, tail, text⟩ := exists_scalarText scalar integral
    have read := text.readScalar_eq rest ends
    rw [text.encode_eq, List.cons_append, readNull?, skipSpace_cons _ (opensValue_solid text.opens)]
    by_cases null : b = ascii 'n'
    · obtain rfl := text.null null
      rw [readScalar, if_pos null] at read
      obtain ⟨after, word, same⟩ := bind_eq_ok.mp read
      cases same
      simp only [if_pos null, word]
      rfl
    · have other : value.isNull = false := by
        cases value with
        | null =>
          have bytes : b :: tail = ascii 'n' :: asciis "ull" := text.encode_eq.symm.trans (by decide)
          exact absurd (List.cons.inj bytes).1 null
        | _ => rfl
      simp only [if_neg null, other]
      rfl
  · cases value with
    | array items => rw [encode_array]; rfl
    | object members => rw [encode_object]; rfl
    | _ => exact absurd rfl scalar

/-! ## Choices -/

private theorem toOption_refuse {α : Type} (expected : String) (input : Input) :
    (readChoice.refuse expected input : Attempt α).toOption = none := by
  cases input with
  | nil => rfl
  | cons b rest =>
    rw [readChoice.refuse]
    split_ifs
    · rfl
    · rfl
    · rw [toOption_bind]
      cases (readScalar b rest).toOption <;> rfl

/-- A written name reads as a choice exactly when it is a known one. -/
theorem toOption_readChoice_string (s : String) (rest : Input) :
    (readChoice names depth ((string s).encode ++ rest)).toOption =
      if s ∈ names then some (.string s, rest) else none := by
  have bytes : (string s).encode ++ rest = ascii '"' :: (textBytes s ++ ascii '"' :: rest) := by
    rw [encode, renderChars, encodeChars_renderText, List.cons_append, List.append_assoc]
    rfl
  rw [bytes, readChoice, skipSpace_cons _ (by decide)]
  simp only [if_true, readText_textBytes, toOption_bind, toOption_ok, Option.bind_some]
  split_ifs <;> rfl

theorem toOption_readChoice_other {b : UInt8} {tail : Input} (opens : opensValue b)
    (noQuote : b ≠ ascii '"') (noBrace : b ≠ ascii '\x7b') :
    (readChoice names depth (b :: tail)).toOption = none := by
  rw [readChoice, skipSpace_cons _ (opensValue_solid opens)]
  simp only [if_neg noQuote, if_neg noBrace, toOption_stopAt]

/-- A written object reads as a choice as it decodes to one. -/
theorem toOption_readChoice_object (integral : ∀ m ∈ members, m.2.isIntegral) (rest : Input) :
    (readChoice names depth ((object members).encode ++ rest)).toOption =
      if depth ≤ 1 then none else (decodeChoice names members).toOption.map (·, rest) := by
  have noQuote : ¬ ascii '\x7b' = ascii '"' := by decide
  rw [encode_object, List.cons_append, readChoice, skipSpace_cons _ (by decide)]
  simp only [if_neg noQuote, if_true]
  split_ifs with deep
  · rfl
  · cases members with
    | nil =>
      rw [tableBytes, List.singleton_append, skipSpace_cons _ (by decide)]
      have noName : ¬ ascii '\x7d' = ascii '"' := by decide
      simp only [if_neg noName, toOption_bind, toOption_refuse]
      rfl
    | cons m members =>
      obtain ⟨name, value⟩ := m
      obtain ⟨first, others⟩ := List.forall_mem_cons.mp integral
      rw [tableBytes, List.cons_append, skipSpace_cons _ (by decide), memberBytes, List.append_assoc,
        List.cons_append]
      simp only [if_true, readText_textBytes, toOption_bind, toOption_ok, Option.bind_some,
        List.cons_append, List.append_assoc, readColon_colon, toOption_within,
        readNull?_encode first (endsNumber_membersBytes rest)]
      by_cases known : name ∈ names
      · by_cases null : value.isNull
        · -- what follows a null must be the end of the object
          simp only [known, null, if_true, toOption_ok, Option.bind_some, toOption_pure]
          cases members with
          | nil => simp only [decodeChoice, known, null, if_true]; rfl
          | cons m members =>
            obtain ⟨key, other⟩ := m
            rw [membersBytes_cons]
            rfl
        · cases members <;> simp [known, null, decodeChoice, toOption_refuse]
      · cases members <;> simp [known, decodeChoice]

/-! ## Scalars -/

/-- The reader makes of the value's text what decoding makes of the value, wherever the text stands. -/
def Agrees (j : Json) : Prop :=
  ∀ schema depth fuel rest, 0 < depth → 2 * j.encode.length + schema.width ≤ fuel → endsNumber rest →
    (readTyped fuel schema depth (j.encode ++ rest)).toOption =
      (decodeWithin j depth schema).map (·, rest)

/-- A schema that reads a scalar and then accepts it or not. -/
theorem toOption_readTyped_scalar {b : UInt8} {tail : Input} (text : ScalarText value b tail)
    (ends : endsNumber rest) (typed : schema ≠ .document) (plain : ∀ names, schema ≠ .choice names) :
    (readTyped (fuel + 1) schema depth (value.encode ++ rest)).toOption =
      (schema.accept value).toOption.map (·, rest) := by
  have noBracket := text.noBracket
  simp only [isBracket, Bool.or_eq_false_iff, beq_eq_false_iff_ne] at noBracket
  rw [text.encode_eq, List.cons_append, readTyped, skipSpace_cons _ (opensValue_solid text.opens)]
  · simp only [if_neg noBracket.1, if_neg noBracket.2, text.readScalar_eq rest ends, toOption_bind,
      toOption_ok, Option.bind_some]
    cases schema.accept value <;> rfl
  · exact typed
  · exact plain

/-- Reading a written scalar and decoding the scalar agree. -/
theorem agrees_scalar {j : Json} (scalar : j.isScalar) (integral : j.isIntegral)
    (ordered : j.isOrdered) : Agrees j := by
  intro schema depth fuel rest room enough ends
  have long := length_encode_pos integral
  obtain ⟨fuel, rfl⟩ := Nat.exists_eq_succ_of_ne_zero (by omega : fuel ≠ 0)
  obtain ⟨b, tail, text⟩ := exists_scalarText scalar integral
  by_cases typed : schema = .document
  · subst typed
    rw [readTyped, toOption_readDocument integral ordered room (by omega) ends,
      decodeWithin_scalar scalar (by simp), if_pos (by rw [depth_of_scalar scalar]; exact room)]
    cases j <;> rfl
  by_cases plain : ∀ names, schema ≠ .choice names
  · rw [toOption_readTyped_scalar text ends typed plain, decodeWithin_scalar scalar plain]
  obtain ⟨names, rfl⟩ : ∃ names, schema = .choice names := by simpa using plain
  rw [readTyped]
  by_cases quote : b = ascii '"'
  · obtain ⟨s, rfl⟩ := text.quote quote
    rw [toOption_readChoice_string, decodeWithin]
    split_ifs <;> rfl
  · have noBracket := text.noBracket
    simp only [isBracket, Bool.or_eq_false_iff, beq_eq_false_iff_ne] at noBracket
    rw [text.encode_eq, List.cons_append, toOption_readChoice_other text.opens quote noBracket.2]
    cases j with
    | string s =>
      exact absurd (List.cons.inj ((encodeChars_renderText s).symm.trans text.encode_eq)).1.symm quote
    | array items => exact (Bool.false_ne_true scalar).elim
    | object members => exact (Bool.false_ne_true scalar).elim
    | _ => rfl

end Tenancy.Json
