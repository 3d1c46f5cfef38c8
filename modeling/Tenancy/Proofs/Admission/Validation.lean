import Tenancy.Admission.Validation
import Tenancy.Proofs.Json.Reading
import Tenancy.Proofs.Json.RoundTrip

/-! # What the second stage decides

A document is validated by three rules on its specification. The text of a document is decided by
reading it back, so that what counts is the document alone.
-/

namespace Tenancy.Admission

open Json (lookup)

variable {document : Json} {mode : IsolationMode} {verb : Verb} {raw : List UInt8}

theorem ofName?_eq_some_iff {s : String} : IsolationMode.ofName? s = some mode ↔ s = mode.name := by
  constructor
  · intro found
    have same := List.find?_some found
    exact (of_decide_eq_true same).symm
  · rintro rfl
    exact IsolationMode.ofName?_name mode

/-- The three rules, for the mode that a document is admitted with. -/
theorem checkTenant_eq_ok_iff : checkTenant document = .ok mode ↔
    ∃ spec, document.get? "spec" = some (.object spec) ∧
      (∃ name, lookup "displayName" spec = some (.string name) ∧ name ≠ "") ∧
      lookup "isolation" spec = some (.string mode.name) := by
  constructor
  · intro found
    simp only [checkTenant, bind, Except.bind] at found
    split at found
    · next spec held =>
      split at found
      · next name named =>
        split_ifs at found with empty
        refine ⟨spec, held, ⟨name, named, fun same => empty (by rw [same]; rfl)⟩, ?_⟩
        split at found
        · next isolation isolated =>
          split at found
          · next same =>
            cases found
            rw [isolated, ofName?_eq_some_iff.mp same]
          · cases found
        · cases found
      · cases found
    · cases found
  · rintro ⟨spec, specFound, ⟨name, named, filled⟩, isolation⟩
    have nonempty : name.isEmpty = false := by
      rw [Bool.eq_false_iff, ne_eq, String.isEmpty_iff]
      exact filled
    simp [checkTenant, specFound, named, nonempty, isolation, IsolationMode.ofName?_name, bind,
      Except.bind]

def verdict (document : Json) : Decision :=
  match checkTenant document with
  | .ok _ => .pass "tenant validated"
  | .error violation => .refuse violation.message

/-- A verdict allows exactly the documents that pass the check. -/
theorem isAllowed_verdict : (verdict document).isAllowed ↔ ∃ mode, checkTenant document = .ok mode := by
  rw [verdict]
  split
  · exact ⟨fun _ => ⟨_, ‹_›⟩, fun _ => rfl⟩
  · next violation found =>
    rw [found]
    exact ⟨fun allowed => (Bool.false_ne_true allowed).elim, fun ⟨_, same⟩ => (nomatch same)⟩

theorem read_ne_nil (found : Json.read raw = .ok document) : raw ≠ [] := by
  rintro rfl
  rw [Json.read, Json.readFuel, Json.readDocument] at found
  cases found

theorem validation_of_read (other : verb ≠ .delete) (found : Json.read raw = .ok document) :
    validation verb raw = verdict document := by
  rw [validation, if_neg other, if_neg (mt List.isEmpty_iff.mp (read_ne_nil found)), found]
  rfl

/-- A document that was written for validation is decided as it is. -/
theorem validation_encode (other : verb ≠ .delete) (integral : document.isIntegral)
    (ordered : document.isOrdered) (shallow : document.depth < Json.depthLimit) :
    validation verb document.encode = verdict document :=
  validation_of_read other (Json.read_encode integral ordered shallow)

end Tenancy.Admission
