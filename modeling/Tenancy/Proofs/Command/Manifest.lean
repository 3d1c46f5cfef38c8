import Tenancy.Command.Run
import Tenancy.Proofs.Admission.Review
import Tenancy.Proofs.Json.RoundTrip
import Tenancy.Proofs.Json.Spelled
import Tenancy.Proofs.Yaml.Reading

/-! # Manifests in JSON

A manifest is read as YAML. Where it is a JSON text that says the same in YAML, the report about it is the one
that the webhooks would come to for these very bytes. Not every JSON text is of this kind.
-/

namespace Tenancy

open Text (Utf8.encode)

variable {files : Files} {file text : String} {document : Json} {verb : Admission.Verb} {raw other : List UInt8}

namespace Admission

/-- A review depends on nothing but the document that the text holds. -/
theorem review_congr (read : Json.read raw = .ok document) (reread : Json.read other = .ok document) :
    review verb raw = review verb other := by
  have same : defaulting verb raw = defaulting verb other := by simp only [defaulting, read, reread]
  rw [review_eq_stored verb read, review_eq_stored verb reread, same]

end Admission

namespace Json

/-- The spelling is the one of the text, and the text holds this document. -/
structure TextSpelling.Spells (s : TextSpelling) (text : String) (document : Json) : Prop where
  chars : s.chars = text.toList
  value : s.root.written.sorted = document
  shallow : s.root.written.depth < depthLimit

/-- Every text that reads as a document spells it out in some way. -/
theorem TextSpelling.exists_spells (read : read (Utf8.encode text) = .ok document) :
    ∃ s : TextSpelling, s.Spells text document :=
  let ⟨s, chars, value, shallow⟩ := exists_spelling read
  ⟨s, chars, value, shallow⟩

end Json

namespace Json

/-- The blanks among some characters. -/
def Blanks.among (chars : List Char) : Blanks :=
  ⟨chars.filter isGapChar, fun _ among => (List.mem_filter.mp among).2⟩

/-- The characters of a string as they are, without those that have to be escaped. -/
def plainPieces (s : String) : List Piece :=
  s.toList.filterMap fun c =>
    if ordinary : c ≠ '"' ∧ c ≠ '\\' ∧ 0x20 ≤ c.toNat then some (.plain c ordinary) else none

end Json

namespace Command

/-- How a run ends that shows a report: well exactly if the report is allowed. -/
def EndsWith (report : Admission.Report) (ending : Ending) : Prop :=
  ∃ errors, ending = .exit (if report.isAllowed then 0 else 1) (report.toJson.pretty ++ "\n") errors ∧
    (report.isAllowed → errors = "")

/-- Trying a document ends with the outcome of reviewing its text. -/
theorem endsWith_tryDocument : EndsWith (Admission.review verb document.encode) (tryDocument verb document) := by
  rw [EndsWith, tryDocument]
  generalize Admission.review verb document.encode = report
  cases allowed : report.isAllowed with
  | true => exact ⟨"", rfl, fun _ => rfl⟩
  | false => exact ⟨_, rfl, fun none => by cases none⟩

/-- A manifest that reads as YAML is tried as the document it shows. -/
theorem tryManifest_eq (found : files.read file = .ok text)
    (read : Json.Schema.document.readYaml text.toList = .ok document) :
    tryManifest files file verb = tryDocument verb document := by
  rw [tryManifest, readManifest, found]
  simp only [Except.mapError, bind, Except.bind, read]

/-- A manifest with a character that YAML does not allow ends in a failure. -/
theorem tryManifest_of_control (found : files.read file = .ok text)
    (control : text.toList.all Yaml.isAllowed = false) :
    ∃ reason, tryManifest files file verb = .failure reason := by
  obtain ⟨why, broken⟩ := Yaml.readYaml_of_control control
  rw [tryManifest, readManifest, found]
  simp only [Except.mapError, bind, Except.bind, broken]
  exact ⟨_, rfl⟩

/-- Every text of a JSON document has a spelling. If its numbers are integers of 64 bits and the spelling is
portable, and if each of its characters may stand in a YAML text, then the manifest is reported on as the webhooks
would report on its bytes. A text with another character is not reported on. -/
theorem tryManifest_portable (found : files.read file = .ok text)
    (read : Json.read (Utf8.encode text) = .ok document) :
    (∃ s : Json.TextSpelling, s.Spells text document) ∧
      (∀ s : Json.TextSpelling, s.Spells text document → s.root.written.isIntegral → s.isPortable →
        text.toList.all Yaml.isAllowed → ∀ verb,
          EndsWith (Admission.review verb (Utf8.encode text)) (tryManifest files file verb)) ∧
      (text.toList.all Yaml.isAllowed = false → ∀ verb, ∃ reason,
        tryManifest files file verb = .failure reason) := by
  refine ⟨Json.TextSpelling.exists_spells read, fun s spells integral portable allowed verb => ?_,
    fun control verb => tryManifest_of_control found control⟩
  obtain ⟨chars, rfl, shallow⟩ := spells
  rw [← chars] at allowed
  have manifest : Json.Schema.document.readYaml text.toList = .ok s.root.written.sorted := by
    rw [← chars]
    exact Yaml.readYaml_spelling portable integral allowed (Nat.le_of_lt shallow)
  have reread : Json.read s.root.written.sorted.encode = .ok s.root.written.sorted := by
    obtain ⟨ordered, shallow⟩ := Json.wellRead_of_read read
    exact Json.read_encode (Json.isIntegral_sorted _ integral) ordered shallow
  rw [tryManifest_eq found manifest, Admission.review_congr read reread]
  exact endsWith_tryDocument

/-- A spelling of the document that names a tenant, over several lines, with a tab in front of the specification,
a character by its number, and the name given twice. -/
def spacedTenant : Json.TextSpelling :=
  let name : Json.Label := ⟨.among [], Json.plainPieces "displayName", .among [' ']⟩
  let acme : List Json.Piece := .numbered ['0', '0', '4', '1'] 'A' rfl (by decide) :: Json.plainPieces "cme"
  ⟨.among ['\n'],
    .object ⟨.among ['\n', '\t'], Json.plainPieces "spec", .among []⟩ (.among [' '])
      (.object name (.among [' ']) (.scalar (.string (Json.plainPieces "null")))
        (.member (.among []) name (.among [' ']) (.scalar (.string acme)) (.close (.among [' ']))))
      (.close (.among ['\n'])),
    .among ['\n']⟩

theorem tryManifest_portable_spaced :
    let text := String.ofList spacedTenant.chars
    let files : Files := ⟨[("tenant.json", text)]⟩
    Json.read (Utf8.encode text) = .ok (.object [("spec", .object [("displayName", .string "Acme")])]) ∧
      EndsWith (Admission.review .create (Utf8.encode text)) (tryManifest files "tenant.json" .create) := by
  intro text files
  have read : Json.read (Utf8.encode text) =
      .ok (.object [("spec", .object [("displayName", .string "Acme")])]) := by
    decide +kernel
  have found : files.read "tenant.json" = .ok text := by decide +kernel
  have spells : spacedTenant.Spells text (.object [("spec", .object [("displayName", .string "Acme")])]) :=
    ⟨(String.toList_ofList ..).symm, by decide +kernel, by decide⟩
  exact ⟨read, (tryManifest_portable found read).2.1 spacedTenant spells (by decide) (by decide +kernel)
    (by decide +kernel) .create⟩

/-- A manifest whose name is one character, written as the two halves of a surrogate pair. -/
def pairedManifest : String := "\x7b\"spec\":\x7b\"displayName\":\"\\ud83d\\ude00\"\x7d\x7d"

/-- The webhooks would allow this manifest, but it cannot be tried. -/
theorem tryManifest_pairedManifest :
    Json.read (Utf8.encode pairedManifest) =
        .ok (.object [("spec", .object [("displayName", .string (String.singleton (Char.ofNat 0x1F600)))])]) ∧
      (Admission.review .create (Utf8.encode pairedManifest)).isAllowed ∧
      ¬ EndsWith (Admission.review .create (Utf8.encode pairedManifest))
        (tryManifest ⟨[("tenant.json", pairedManifest)]⟩ "tenant.json" .create) := by
  have allowed : (Admission.review .create (Utf8.encode pairedManifest)).isAllowed := by decide +kernel
  have refused : tryManifest ⟨[("tenant.json", pairedManifest)]⟩ "tenant.json" .create = .failure
      ("Failed to parse \"tenant.json\": found invalid Unicode character escape code at line 1 column 27, "
        ++ "while parsing a quoted scalar at line 1 column 24") := by decide +kernel
  refine ⟨by decide +kernel, allowed, fun ⟨errors, same, _⟩ => ?_⟩
  rw [refused, if_pos allowed] at same
  cases same

end Command

end Tenancy
