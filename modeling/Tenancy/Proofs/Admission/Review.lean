import Tenancy.Proofs.Admission.Defaults
import Tenancy.Proofs.Admission.Validation

/-! # The review of a tenant

A review admits exactly the documents that name a tenant: an object whose specification has a display
name, and an isolation mode if it has an isolation at all. The document with defaults is written and
read again on the way to the second stage, which loses nothing, so that the second stage decides on
the very document that would be stored.
-/

namespace Tenancy.Admission

open Json (lookup)

variable {document : Json} {verb : Verb} {raw : List UInt8} {e : Json.ReadError}

/-- The documents that are admitted. An isolation that is there must be a mode, even if it is null. -/
def Admissible (document : Json) : Prop :=
  ∃ members spec, document = .object members ∧ lookup "spec" members = some (.object spec) ∧
    (∃ name, lookup "displayName" spec = some (.string name) ∧ name ≠ "") ∧
    (lookup "isolation" spec = none ∨
      ∃ mode ∈ ["namespace", "cluster", "network"], lookup "isolation" spec = some (.string mode))

/-! ## The first stage on a text -/

theorem defaulting_of_error (other : verb ≠ .delete) (broken : Json.read raw = .error e) :
    defaulting verb raw = .malformed (unreadable raw e) := by
  rw [defaulting, if_neg other, broken]

/-- Every text that is read is allowed. -/
theorem isAllowed_defaulting (found : Json.read raw = .ok document) :
    (defaulting verb raw).isAllowed := by
  simp only [defaulting, found]
  split_ifs <;> rfl

/-- The patch of the first stage is the one that the specification tells, unless nothing is to do. -/
theorem patch_defaulting (other : verb ≠ .delete) (found : Json.read raw = .ok document) :
    (defaulting verb raw).patch? =
      if (defaultPatch document).isEmpty then none else some (defaultPatch document) := by
  have ordered := (Json.wellRead_of_read found).1
  simp only [defaulting, if_neg other, found]
  split_ifs with unchanged empty empty
  · rfl
  · exact absurd (defaultPatch_of_nothing_applied (List.isEmpty_iff.mp unchanged))
      (mt List.isEmpty_iff.mpr empty)
  · simp only [Decision.amend, diff_applyDefaults ordered, if_pos empty, Decision.patch?]
  · simp only [Decision.amend, diff_applyDefaults ordered, if_neg empty, Decision.patch?]

/-- A decision with the patch that the specification tells gives the document its defaults. -/
theorem amended_of_patch {decision : Decision} (ordered : document.isOrdered)
    (patch : decision.patch? =
      if (defaultPatch document).isEmpty then none else some (defaultPatch document)) :
    amended? decision document = some (applyDefaults document).1 := by
  have carried := carryOut_defaultPatch ordered
  rw [amended?, amended, patch]
  split_ifs with empty
  · rw [List.isEmpty_iff.mp empty] at carried
    exact carried
  · exact carried

/-! ## The document as it is stored -/

/-- The document as it is stored: a deletion leaves it alone, everything else gives it defaults. -/
def stored (verb : Verb) (document : Json) : Json :=
  if verb = .delete then document else (applyDefaults document).1

theorem isIntegral_stored (verb : Verb) (integral : document.isIntegral) :
    (stored verb document).isIntegral := by
  rw [stored]
  split_ifs
  · exact integral
  · exact isIntegral_applyDefaults integral

theorem isOrdered_stored (verb : Verb) (ordered : document.isOrdered) :
    (stored verb document).isOrdered := by
  rw [stored]
  split_ifs
  · exact ordered
  · exact isOrdered_applyDefaults ordered

/-- Storing keeps a document shallow enough to be read again. -/
theorem depth_stored (verb : Verb) (shallow : document.depth < Json.depthLimit) :
    (stored verb document).depth < Json.depthLimit := by
  rw [stored]
  split_ifs
  · exact shallow
  · have bound : (applyDefaults document).1.depth ≤ 125 + 2 :=
      depth_applyDefaults (Nat.le_of_lt_succ shallow)
    exact Nat.lt_succ_of_le bound

theorem object_stored (verb : Verb) (isObject : ∃ members, document = .object members) :
    ∃ members, stored verb document = .object members := by
  obtain ⟨members, rfl⟩ := isObject
  rw [stored]
  split_ifs
  · exact ⟨members, rfl⟩
  · exact ⟨_, applyDefaults_object⟩

theorem amended_stored (read : Json.read raw = .ok document) :
    amended? (defaulting verb raw) document = some (stored verb document) := by
  rw [stored]
  split_ifs with deletes
  · rw [defaulting, if_pos deletes]
    rfl
  · exact amended_of_patch (Json.wellRead_of_read read).1 (patch_defaulting deletes read)

/-- The review of a text that is read. -/
theorem review_eq_stored (verb : Verb) (read : Json.read raw = .ok document) : review verb raw =
    ⟨defaulting verb raw, some (validation verb (stored verb document).encode),
      some (stored verb document)⟩ := by
  have amends : amended (defaulting verb raw) document = .ok (stored verb document) :=
    Json.toOption_eq_some.mp (amended_stored read)
  simp only [review, isAllowed_defaulting read, Bool.not_true, Bool.false_eq_true, if_false, read,
    Json.toOption_ok, amends]

/-! ## Both stages -/

theorem review_of_error (other : verb ≠ .delete) (broken : Json.read raw = .error e) :
    review verb raw = ⟨.malformed (unreadable raw e), none, none⟩ := by
  rw [review, defaulting_of_error other broken]
  rfl

/-- The whole outcome of a review whose text reads: the first decision, the verdict on the defaulted document
and the object to store. -/
theorem review_of_read (other : verb ≠ .delete) (found : Json.read raw = .ok document)
    (integral : document.isIntegral) :
    review verb raw = ⟨defaulting verb raw, some (verdict (applyDefaults document).1),
      some (applyDefaults document).1⟩ := by
  obtain ⟨ordered, shallow⟩ := Json.wellRead_of_read found
  rw [review_eq_stored verb found, validation_encode other (isIntegral_stored verb integral)
    (isOrdered_stored verb ordered) (depth_stored verb shallow), stored, if_neg other]

theorem isAllowed_review_delete : (review .delete raw).isAllowed := by
  simp only [review, defaulting, if_true, Decision.pass, Decision.isAllowed, Bool.not_true,
    Bool.false_eq_true, if_false]
  split
  · rfl
  · rfl

private theorem lookup_isolation_fillSpec {spec : List (String × Json)} :
    lookup "isolation" (fillSpec spec) =
      some ((lookup "isolation" spec).getD (.string "namespace")) := by
  rw [lookup_fillSpec]
  cases lookup "isolation" spec <;> rfl

private theorem lookup_displayName_fillSpec {spec : List (String × Json)} :
    lookup "displayName" (fillSpec spec) = lookup "displayName" spec := by
  rw [lookup_fillSpec]
  exact Option.or_none

private theorem exists_mode_iff {value? : Option Json} :
    (∃ mode : IsolationMode, value?.getD (.string "namespace") = .string mode.name) ↔
      value? = none ∨ ∃ mode ∈ ["namespace", "cluster", "network"], value? = some (.string mode) := by
  cases value? with
  | none => exact ⟨fun _ => .inl rfl, fun _ => ⟨.namespaced, rfl⟩⟩
  | some value =>
    simp only [Option.getD_some, reduceCtorEq, false_or, Option.some.injEq]
    constructor
    · rintro ⟨mode, rfl⟩
      exact ⟨mode.name, by cases mode <;> decide, rfl⟩
    · rintro ⟨name, known, rfl⟩
      simp only [List.mem_cons, List.not_mem_nil, or_false] at known
      rcases known with rfl | rfl | rfl
      exacts [⟨.namespaced, rfl⟩, ⟨.cluster, rfl⟩, ⟨.network, rfl⟩]

/-- With its defaults, a document passes the second stage when it is admissible. -/
theorem isAllowed_verdict_applyDefaults :
    (verdict (applyDefaults document).1).isAllowed ↔ Admissible document := by
  simp only [isAllowed_verdict, checkTenant_eq_ok_iff]
  cases document with
  | object members =>
    rw [applyDefaults_object]
    constructor
    · rintro ⟨mode, spec, specFound, ⟨name, named, filled⟩, isolated⟩
      rw [Json.get?, Json.lookup_insert_self, Option.some.injEq, Json.object.injEq] at specFound
      subst specFound
      rw [specOrEmpty] at named isolated
      split at named
      · next before held =>
        rw [lookup_displayName_fillSpec] at named
        simp only [held] at isolated
        rw [lookup_isolation_fillSpec, Option.some.injEq] at isolated
        exact ⟨members, before, rfl, held, ⟨name, named, filled⟩, exists_mode_iff.mp ⟨mode, isolated⟩⟩
      · rw [lookup_displayName_fillSpec] at named
        cases named
    · rintro ⟨_, spec, same, held, ⟨name, named, filled⟩, isolated⟩
      cases same
      obtain ⟨mode, isolated⟩ := exists_mode_iff.mpr isolated
      refine ⟨mode, fillSpec spec, ?_, ⟨name, ?_, filled⟩, ?_⟩
      · simp only [specOrEmpty, held]
        exact Json.lookup_insert_self
      · rw [lookup_displayName_fillSpec, named]
      · rw [lookup_isolation_fillSpec, isolated]
  | _ =>
    constructor
    · rintro ⟨mode, spec, specFound, -⟩
      cases specFound
    · rintro ⟨members, spec, same, -⟩
      cases same

/-- A review admits a deletion, and of the rest exactly the texts of admissible documents. A text that
is no document ends in the first stage; every other is decided by the second, on the document with
its defaults as it stands. -/
theorem review_exact (verb : Verb) (raw : List UInt8)
    (integral : verb ≠ .delete → ∀ document, Json.read raw = .ok document → document.isIntegral) :
    ((review verb raw).isAllowed ↔
      verb = .delete ∨ ∃ document, Json.read raw = .ok document ∧ Admissible document) ∧
    (verb ≠ .delete → ∀ e, Json.read raw = .error e →
      (review verb raw).final.1 = .defaulting ∧ (review verb raw).final.2.code = 400 ∧
        (review verb raw).validation = none ∧ (review verb raw).object = none) ∧
    (verb ≠ .delete → ∀ document, Json.read raw = .ok document →
      (review verb raw).final.1 = .validation ∧
        (review verb raw).object = some (applyDefaults document).1 ∧
        (review verb raw).validation = some (verdict (applyDefaults document).1)) := by
  refine ⟨?_, ?_, ?_⟩
  · by_cases deletes : verb = .delete
    · subst deletes
      exact ⟨fun _ => .inl rfl, fun _ => isAllowed_review_delete⟩
    · simp only [deletes, false_or]
      cases found : Json.read raw with
      | error e =>
        rw [review_of_error deletes found]
        exact ⟨fun allowed => (Bool.false_ne_true allowed).elim, fun ⟨_, same, _⟩ => (nomatch same)⟩
      | ok document =>
        rw [review_of_read deletes found (integral deletes document found), Report.isAllowed,
          isAllowed_defaulting found, Bool.true_and, Option.any_some,
          isAllowed_verdict_applyDefaults]
        exact ⟨fun admissible => ⟨document, rfl, admissible⟩, fun ⟨_, same, admissible⟩ => by
          cases same
          exact admissible⟩
  · intro other e broken
    rw [review_of_error other broken]
    exact ⟨rfl, rfl, rfl, rfl⟩
  · intro other document found
    rw [review_of_read other found (integral other document found)]
    exact ⟨rfl, rfl, rfl⟩

def bareTenant : Json := .object [("spec", .object [("displayName", .string "Acme")])]

theorem review_bareTenant : (review .create bareTenant.encode).isAllowed ∧
    (review .create bareTenant.encode).object = some (applyDefaults bareTenant).1 := by
  have read : Json.read bareTenant.encode = .ok bareTenant :=
    Json.read_encode (by decide) (by decide) (by decide)
  have exact := review_exact .create bareTenant.encode fun _ document found => by
    rw [read] at found
    cases found
    decide
  exact ⟨exact.1.mpr (.inr ⟨bareTenant, read, _, _, rfl, rfl, ⟨"Acme", rfl, by decide⟩, .inl rfl⟩),
    (exact.2.2 (by decide) bareTenant read).2.1⟩

end Tenancy.Admission
