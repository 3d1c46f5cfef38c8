import Mathlib.Data.List.TakeWhile
import Mathlib.Data.String.Basic
import Tenancy.Proofs.Sequence
import Tenancy.Settings.Flag

/-! # Arguments

An argument is the name of a flag, the name with a value, letters or a plain text (`argumentShape`), and each
of them is met in one way. Reading looks at the value of a flag when the next flag is met, but for what is
read it could as well be looked at right away (`readSettled_of_met`).
-/

namespace Tenancy

variable {flags : List Flag} {commands : List String} {r s : Reading} {flag : Flag} {name value : String}
  {given : Values}

/-! ## Values that are taken -/

theorem Values.get?_append {earlier later : Values} :
    (earlier ++ later).get? name = (earlier.get? name).or (later.get? name) := by
  rw [get?, get?, get?, List.find?_append]
  cases earlier.find? fun v => v.1 = name <;> rfl

def Flag.fault? (flag : Flag) (value : String) : Option UsageError := flag.form?.bind (·.fault? value)

namespace Reading

/-- A flag takes a value once, and only a value without fault. -/
theorem take_eq_ok : r.take flag value = .ok s ↔
    r.given.get? flag.name = none ∧ flag.fault? value = none ∧
      s = { r with given := r.given ++ [(flag.name, value)] } := by
  rw [take, Flag.fault?]
  cases known : r.given.get? flag.name with
  | some before => simp
  | none =>
    cases flag.form?.bind (·.fault? value) with
    | some e => simp
    | none => simp [eq_comm]

theorem settle_eq_ok_opened (settled : r.settle = .ok s) : s.opened = none := by
  obtain ⟨given, opened⟩ := r
  match opened with
  | none =>
    cases settled
    rfl
  | some ⟨flag, none⟩ => cases settled
  | some ⟨flag, some value⟩ =>
    obtain ⟨-, -, rfl⟩ := take_eq_ok.mp settled
    rfl

theorem settle_of_opened (nothing : r.opened = none) : r.settle = .ok r := by
  obtain ⟨given, opened⟩ := r
  cases nothing
  rfl

/-- Settling a second time changes nothing. -/
theorem settle_bind_eq_ok {α : Type} {next : Reading → Except UsageError α} {a : α} : (r.settle >>= next) = .ok a ↔
    ∃ before, r.settle = .ok before ∧ (before.settle >>= next) = .ok a := by
  rw [bind_eq_ok]
  refine exists_congr fun before => and_congr_right fun settled => ?_
  rw [settle_of_opened (settle_eq_ok_opened settled)]
  rfl

/-- Meeting a flag settles the value before it. -/
theorem meet_eq_ok {attached : Option String} : r.meet flag attached = .ok s ↔
    ∃ before, r.settle = .ok before ∧ before.meet flag attached = .ok s := by
  obtain ⟨name, letter, envName, role⟩ := flag
  cases attached with
  | none => cases role <;> exact settle_bind_eq_ok
  | some value =>
    cases role with
    | value form => exact settle_bind_eq_ok
    | switch => simp [meet]
    | help => simp [meet]
    | version => simp [meet]

end Reading

/-! ## Shapes of arguments -/

/-- Whether an argument can be the value of the flag before it: it does not look like a flag. -/
def isPlain (argument : String) : Bool :=
  match argument.toList with
  | '-' :: _ :: _ => false
  | _ => true

theorem isPlain_iff {argument : String} :
    isPlain argument = true ↔ ∀ c rest, argument.toList ≠ '-' :: c :: rest := by
  constructor
  · intro plain c rest same
    rw [isPlain, same] at plain
    cases plain
  · intro other
    rw [isPlain]
    split
    · rename_i same
      exact absurd same (other _ _)
    · rfl

/-- What an argument looks like. -/
inductive ArgumentShape (argument : String) : Prop where
  /-- The name of a flag. -/
  | bare (name : String) (whole : '=' ∉ name.toList) (same : argument = "--" ++ name)
  /-- The name of a flag with a value. -/
  | joined (name value : String) (whole : '=' ∉ name.toList) (same : argument = "--" ++ name ++ "=" ++ value)
  /-- Letters of flags. -/
  | letters (c : Char) (rest : List Char) (short : c ≠ '-') (same : argument.toList = '-' :: c :: rest)
  | plain (plain : isPlain argument)

theorem toList_bare : ("--" ++ name).toList = '-' :: '-' :: name.toList := String.toList_append

theorem toList_joined : ("--" ++ name ++ "=" ++ value).toList = '-' :: '-' :: (name.toList ++ '=' :: value.toList) := by
  rw [String.toList_append, String.toList_append, toList_bare, List.append_assoc]
  rfl

/-- Every argument has one of these shapes. -/
theorem argumentShape (argument : String) : ArgumentShape argument := by
  match found : argument.toList with
  | [] => exact .plain (isPlain_iff.mpr fun c rest same => nomatch found.symm.trans same)
  | [d] => exact .plain (isPlain_iff.mpr fun c rest same => nomatch found.symm.trans same)
  | c :: d :: text =>
    by_cases dash : c = '-'
    · by_cases second : d = '-'
      · subst dash second
        by_cases equals : '=' ∈ text
        · obtain ⟨before, after, split, whole⟩ := List.eq_append_cons_of_mem equals
          refine .joined (String.ofList before) (String.ofList after) (by rwa [String.toList_ofList]) ?_
          rw [String.ext_iff, found, toList_joined, String.toList_ofList, String.toList_ofList, split]
        · refine .bare (String.ofList text) (by rwa [String.toList_ofList]) ?_
          rw [String.ext_iff, found, toList_bare, String.toList_ofList]
      · exact .letters d text second (by rw [found, dash])
    · refine .plain (isPlain_iff.mpr fun _ _ same => ?_)
      exact dash (List.cons.inj (found.symm.trans same)).1

/-! ## Flags that are met -/

/-- Flags and commands can be told apart on a command line: the names of flags are different, none is empty
or has an equals sign in it, letters do no more than ask for information, and commands look like values. -/
structure Distinguished (flags : List Flag) (commands : List String) : Prop where
  names : (flags.map (·.name)).Nodup
  whole : ∀ flag ∈ flags, flag.name ≠ "" ∧ '=' ∉ flag.name.toList
  letters : ∀ flag ∈ flags, flag.letter ≠ none → flag.role = .help ∨ flag.role = .version
  commands : ∀ command ∈ commands, isPlain command

/-- In a list without repeated keys a key leads to its item. -/
theorem find?_key {α κ : Type} [DecidableEq κ] {key : α → κ} {items : List α} {item : α}
    (distinct : (items.map key).Nodup) (among : item ∈ items) :
    (items.find? fun other => key other = key item) = some item := by
  induction items with
  | nil => cases among
  | cons first rest ih =>
    obtain ⟨fresh, distinct⟩ := List.nodup_cons.mp distinct
    rcases List.mem_cons.mp among with rfl | among
    · exact List.find?_cons_of_pos (decide_eq_true rfl)
    · have other : key first ≠ key item := fun same => fresh (same ▸ List.mem_map_of_mem among)
      rw [List.find?_cons_of_neg (by simpa using other)]
      exact ih distinct among

namespace Reading

def meetNamed (r : Reading) (flags : List Flag) (name : String) (attached : Option String) :
    Except UsageError Reading :=
  match flags.find? fun f => f.name = name with
  | some flag => r.meet flag attached
  | none => .error .unknownArgument

theorem meetArgument_bare (whole : '=' ∉ name.toList) :
    r.meetArgument flags ("--" ++ name) = r.meetNamed flags name none := by
  have taken : name.toList.takeWhile (· ≠ '=') = name.toList := by
    rw [List.takeWhile_eq_self_iff]
    intro c among
    exact decide_eq_true fun equals => whole (equals ▸ among)
  simp only [meetArgument, toList_bare, meetName, taken, List.drop_length, String.ofList_toList]
  rfl

theorem meetArgument_joined (whole : '=' ∉ name.toList) :
    r.meetArgument flags ("--" ++ name ++ "=" ++ value) = r.meetNamed flags name (some value) := by
  have taken : (name.toList ++ '=' :: value.toList).takeWhile (· ≠ '=') = name.toList := by
    rw [List.takeWhile_append_of_pos]
    · exact List.append_nil _
    · intro c among
      exact decide_eq_true fun equals => whole (equals ▸ among)
  simp only [meetArgument, toList_joined, meetName, taken, List.drop_left, String.ofList_toList]
  rfl

/-- Asking for help or for the version leads to no reading. -/
theorem meet_asking {attached : Option String} (asks : flag.role = .help ∨ flag.role = .version) :
    r.meet flag attached ≠ .ok s := by
  intro met
  obtain ⟨name, letter, envName, role⟩ := flag
  cases attached with
  | some value => rcases asks with same | same <;> cases same <;> cases met
  | none =>
    rcases asks with same | same
    · cases same
      obtain ⟨-, -, asked⟩ := bind_eq_ok.mp met
      cases asked
    · cases same
      obtain ⟨-, -, asked⟩ := bind_eq_ok.mp met
      cases asked

/-- A flag that is met by its name is one of the flags. -/
theorem exists_met {attached : Option String} (met : r.meetNamed flags name attached = .ok s) :
    ∃ flag ∈ flags, flag.name = name ∧ r.meet flag attached = .ok s := by
  rw [meetNamed] at met
  split at met
  · rename_i flag found
    exact ⟨flag, List.mem_of_find?_eq_some found, by simpa using List.find?_some found, met⟩
  · cases met

/-- Letters behind a single dash only ask for help or for the version, so that nothing is read. -/
theorem meetArgument_letters {argument : String} {c : Char} {rest : List Char} (distinct : Distinguished flags commands)
    (short : c ≠ '-') (same : argument.toList = '-' :: c :: rest) : r.meetArgument flags argument ≠ .ok s := by
  have letters : r.meetArgument flags argument = r.meetLetters flags (c :: rest) := by
    rw [meetArgument, same]
    split
    · rename_i again
      exact absurd (List.cons.inj (List.cons.inj again).2).1 short
    · rename_i again
      cases again
      rfl
    · rename_i other
      exact absurd rfl (other c rest)
  rw [letters, meetLetters]
  cases found : flags.find? fun f => f.letter = some c with
  | none => exact fun met => nomatch met
  | some flag =>
    have letter : flag.letter = some c := by simpa using List.find?_some found
    have asks : flag.role = .help ∨ flag.role = .version :=
      distinct.letters flag (List.mem_of_find?_eq_some found) (by rw [letter]; exact Option.some_ne_none c)
    intro met
    obtain ⟨first, asked, -⟩ : ∃ first, r.meet flag none = .ok first ∧ first.meetLetters flags rest = .ok s := by
      rcases asks with role | role <;> simp only [role] at met <;> exact bind_eq_ok.mp met
    exact meet_asking asks asked

/-- A plain argument is taken by the flag that waits for a value, and by nothing else. -/
theorem meetArgument_plain {argument : String} (plain : isPlain argument) :
    r.meetArgument flags argument =
      match r.opened with
      | some ⟨flag, none⟩ => .ok { r with opened := some ⟨flag, some argument⟩ }
      | _ => .error .unknownArgument := by
  have other := isPlain_iff.mp plain
  rw [meetArgument]
  split
  · rename_i same
    exact absurd same (other _ _)
  · rename_i same
    exact absurd same (other _ _)
  · rfl

theorem opened_of_wantsValue (noValue : r.wantsValue = false) (flag : Flag) : r.opened ≠ some ⟨flag, none⟩ := by
  intro opened
  rw [wantsValue, opened] at noValue
  cases noValue

theorem meetArgument_eq_ok {argument : String} (distinct : Distinguished flags commands)
    (noValue : r.wantsValue = false) : r.meetArgument flags argument = .ok s ↔
      ∃ before, r.settle = .ok before ∧ before.meetArgument flags argument = .ok s := by
  cases argumentShape argument with
  | bare name whole same =>
    simp only [same, meetArgument_bare whole, meetNamed]
    cases flags.find? fun f => f.name = name with
    | none => simp
    | some flag => exact meet_eq_ok
  | joined name value whole same =>
    simp only [same, meetArgument_joined whole, meetNamed]
    cases flags.find? fun f => f.name = name with
    | none => simp
    | some flag => exact meet_eq_ok
  | letters c rest short same =>
    refine iff_of_false (meetArgument_letters distinct short same) ?_
    rintro ⟨before, -, met⟩
    exact meetArgument_letters distinct short same met
  | plain plain =>
    simp only [meetArgument_plain plain]
    refine iff_of_false ?_ ?_
    · intro met
      split at met
      · rename_i opened
        exact opened_of_wantsValue noValue _ opened
      · cases met
    · rintro ⟨before, settled, met⟩
      rw [settle_eq_ok_opened settled] at met
      cases met

end Reading

/-! ## Reading and settling -/

/-- Reads arguments and looks at the value that is still open then. -/
def readSettled (flags : List Flag) (commands : List String) (r : Reading) (arguments : List String) :
    Except UsageError (Values × Option Subcommand) := do
  let (last, named) ← readArguments flags commands r arguments
  return ((← last.settle).given, named)

variable {arguments rest : List String} {argument : String} {outcome : Values × Option Subcommand}

theorem isPlain_bare : isPlain ("--" ++ name) = false := by
  rw [isPlain, toList_bare]
  rfl

theorem isPlain_joined : isPlain ("--" ++ name ++ "=" ++ value) = false := by
  rw [isPlain, toList_joined]
  rfl

/-- What looks like a flag is no command. -/
theorem Distinguished.not_command (distinct : Distinguished flags commands) (flagged : isPlain argument = false) :
    argument ∉ commands := by
  intro command
  rw [distinct.commands argument command] at flagged
  cases flagged

theorem readSettled_nil : readSettled flags commands r [] = r.settle >>= fun last => .ok (last.given, none) := rfl

/-- A command ends the reading, unless a flag waits for its value. -/
theorem readSettled_command (command : argument ∈ commands) (noValue : r.wantsValue = false) :
    readSettled flags commands r (argument :: rest) =
      r.settle >>= fun last => .ok (last.given, some (argument, rest)) := by
  rw [readSettled, readArguments, if_pos ⟨command, by simp [noValue]⟩]
  rfl

/-- So does a pair of dashes at the end. -/
theorem readSettled_end (distinct : Distinguished flags commands) :
    readSettled flags commands r ["--"] = r.settle >>= fun last => .ok (last.given, none) := by
  have noCommand : "--" ∉ commands := distinct.not_command rfl
  rw [readSettled, readArguments, if_neg fun command => noCommand command.1, if_pos rfl]
  rfl

/-- No argument is read behind a pair of dashes. -/
theorem readSettled_beyond_end (distinct : Distinguished flags commands) :
    readSettled flags commands r ("--" :: argument :: rest) ≠ .ok outcome := by
  have noCommand : "--" ∉ commands := distinct.not_command rfl
  rw [readSettled, readArguments, if_neg fun command => noCommand command.1, if_pos rfl]
  exact fun read => nomatch read

/-- Any other argument is met and the reading goes on. -/
theorem readSettled_next (noCommand : ¬(argument ∈ commands ∧ r.wantsValue = false)) (more : argument ≠ "--") :
    readSettled flags commands r (argument :: rest) =
      r.meetArgument flags argument >>= fun next => readSettled flags commands next rest := by
  rw [readSettled, readArguments, if_neg (by simpa using noCommand), if_neg more]
  cases r.meetArgument flags argument <;> rfl

/-- For what is read, a value that has been met could as well be looked at right away. -/
theorem readSettled_of_met (distinct : Distinguished flags commands) (noValue : r.wantsValue = false) :
    readSettled flags commands r arguments = .ok outcome ↔
      ∃ before, r.settle = .ok before ∧ readSettled flags commands before arguments = .ok outcome := by
  have settledWants {before : Reading} (settled : r.settle = .ok before) : before.wantsValue = false := by
    rw [Reading.wantsValue, Reading.settle_eq_ok_opened settled]
  cases arguments with
  | nil =>
    simp only [readSettled_nil]
    exact Reading.settle_bind_eq_ok
  | cons argument rest =>
    by_cases command : argument ∈ commands
    · rw [readSettled_command command noValue, Reading.settle_bind_eq_ok]
      refine exists_congr fun before => and_congr_right fun settled => ?_
      rw [readSettled_command command (settledWants settled)]
    · by_cases dashes : argument = "--"
      · subst dashes
        cases rest with
        | nil =>
          simp only [readSettled_end distinct]
          exact Reading.settle_bind_eq_ok
        | cons argument rest =>
          refine iff_of_false (readSettled_beyond_end distinct) ?_
          rintro ⟨before, -, read⟩
          exact readSettled_beyond_end distinct read
      · have noCommand (r : Reading) : ¬(argument ∈ commands ∧ r.wantsValue = false) := fun both => command both.1
        simp only [readSettled_next (noCommand _) dashes, bind_eq_ok, Reading.meetArgument_eq_ok distinct noValue]
        constructor
        · rintro ⟨next, ⟨before, settled, met⟩, read⟩
          exact ⟨before, settled, next, met, read⟩
        · rintro ⟨before, settled, next, met, read⟩
          exact ⟨next, ⟨before, settled, met⟩, read⟩

end Tenancy
