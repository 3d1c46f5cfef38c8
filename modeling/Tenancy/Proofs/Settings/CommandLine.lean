import Mathlib.Data.List.Perm.Basic
import Tenancy.Proofs.Settings.Arguments

/-! # Command lines

A command line is one use of a flag after another, up to its end or to a command. Only command lines can be
read (`exists_commandLine`), and they are read when no flag is used twice and no value is at fault
(`readSettled_commandLine`): the order of the uses does not matter for what a flag is found to have
(`readSettled_perm`).
-/

namespace Tenancy

variable {flags : List Flag} {commands : List String} {flag : Flag} {name : String} {given : Values}
  {arguments rest : List String} {outcome : Values × Option Subcommand}

/-! ## Uses of flags -/

theorem Flag.exists_role (takesValue : flag.form?.isSome) : ∃ form, flag.role = .value form := by
  rw [form?] at takesValue
  split at takesValue
  · rename_i form role
    exact ⟨form, role⟩
  · cases takesValue

/-- A flag with a value, as it is used on a command line: with the value in the same argument or in the next
one. A switch has no value on the command line. -/
structure FlagUse where
  flag : Flag
  value : String
  joined : Bool
  deriving DecidableEq, Repr

namespace FlagUse

def spelling (use : FlagUse) : List String :=
  match use.flag.form? with
  | some _ =>
    if use.joined then ["--" ++ use.flag.name ++ "=" ++ use.value] else ["--" ++ use.flag.name, use.value]
  | none => ["--" ++ use.flag.name]

/-- A use that can be read as such: the flag takes a value or is a switch, and a value in an argument of its
own does not look like a flag. -/
def IsRead (flags : List Flag) (use : FlagUse) : Prop :=
  use.flag ∈ flags ∧
    ((use.flag.form?.isSome ∧ (use.joined ∨ isPlain use.value)) ∨
      (use.flag.role = .switch ∧ use.value = "true" ∧ use.joined = false))

instance (flags : List Flag) (use : FlagUse) : Decidable (use.IsRead flags) :=
  inferInstanceAs (Decidable (_ ∧ _))

def pair (use : FlagUse) : String × String := (use.flag.name, use.value)

theorem spelling_length_pos (use : FlagUse) : 0 < use.spelling.length := by
  rw [spelling]
  split
  · split <;> exact Nat.zero_lt_succ _
  · exact Nat.zero_lt_succ _

end FlagUse

/-- The name of a flag is met as the flag. -/
theorem readSettled_bare {r : Reading} (distinct : Distinguished flags commands) (listed : flag ∈ flags) :
    readSettled flags commands r (("--" ++ flag.name) :: rest) =
      r.meet flag none >>= fun next => readSettled flags commands next rest := by
  obtain ⟨nonempty, whole⟩ := distinct.whole flag listed
  have noEnd : "--" ++ flag.name ≠ "--" := by
    intro same
    rw [String.ext_iff, toList_bare] at same
    exact nonempty (String.toList_eq_nil_iff.mp (List.cons.inj (List.cons.inj same).2).2)
  rw [readSettled_next (fun both => distinct.not_command isPlain_bare both.1) noEnd, Reading.meetArgument_bare whole,
    Reading.meetNamed, find?_key distinct.names listed]

/-- The name of a flag with a value is met as the flag with the value. -/
theorem readSettled_joined {r : Reading} {value : String} (distinct : Distinguished flags commands)
    (listed : flag ∈ flags) :
    readSettled flags commands r (("--" ++ flag.name ++ "=" ++ value) :: rest) =
      r.meet flag (some value) >>= fun next => readSettled flags commands next rest := by
  have noEnd : "--" ++ flag.name ++ "=" ++ value ≠ "--" := by
    intro same
    rw [String.ext_iff, toList_joined] at same
    exact List.append_ne_nil_of_right_ne_nil _ (List.cons_ne_nil _ _) (List.cons.inj (List.cons.inj same).2).2
  rw [readSettled_next (fun both => distinct.not_command isPlain_joined both.1) noEnd,
    Reading.meetArgument_joined (distinct.whole flag listed).2, Reading.meetNamed, find?_key distinct.names listed]

/-- A flag that needs its value takes the next argument, even if it is the name of a command. -/
theorem readSettled_value {value : String} (plain : isPlain value) :
    readSettled flags commands ⟨given, some ⟨flag, none⟩⟩ (value :: rest) =
      readSettled flags commands ⟨given, some ⟨flag, some value⟩⟩ rest := by
  have noEnd : value ≠ "--" := by
    rintro rfl
    cases plain
  have noCommand : ¬(value ∈ commands ∧ (⟨given, some ⟨flag, none⟩⟩ : Reading).wantsValue = false) :=
    fun both => nomatch both.2
  rw [readSettled_next noCommand noEnd, Reading.meetArgument_plain plain]
  rfl

/-- A use of a flag is read by itself. -/
theorem readSettled_use (distinct : Distinguished flags commands) {use : FlagUse} (isRead : use.IsRead flags) :
    readSettled flags commands ⟨given, none⟩ (use.spelling ++ rest) = .ok outcome ↔
      given.get? use.flag.name = none ∧ use.flag.fault? use.value = none ∧
        readSettled flags commands ⟨given ++ [use.pair], none⟩ rest = .ok outcome := by
  obtain ⟨flag, value, joined⟩ := use
  obtain ⟨listed, kind⟩ := isRead
  have taken : (∃ next, (⟨given, none⟩ : Reading).take flag value = .ok next ∧
      readSettled flags commands next rest = .ok outcome) ↔
      given.get? flag.name = none ∧ flag.fault? value = none ∧
        readSettled flags commands ⟨given ++ [(flag.name, value)], none⟩ rest = .ok outcome := by
    simp only [Reading.take_eq_ok, and_assoc, exists_and_left, exists_eq_left]
  rcases kind with ⟨takesValue, separate⟩ | ⟨switch, rfl, rfl⟩
  · obtain ⟨form, role⟩ : ∃ form, flag.role = .value form := Flag.exists_role takesValue
    have formed : flag.form? = some form := by rw [Flag.form?, role]
    cases joined with
    | true =>
      have met : (⟨given, none⟩ : Reading).meet flag (some value) = (⟨given, none⟩ : Reading).take flag value := by
        simp only [Reading.meet, role]
        rfl
      simp only [FlagUse.spelling, formed, if_true]
      rw [List.singleton_append, readSettled_joined distinct listed, met, bind_eq_ok, taken]
      rfl
    | false =>
      have plain : isPlain value := by simpa using separate
      have met : (⟨given, none⟩ : Reading).meet flag none = .ok ⟨given, some ⟨flag, none⟩⟩ := by
        simp only [Reading.meet, role]
        rfl
      simp only [FlagUse.spelling, formed, Bool.false_eq_true, if_false]
      rw [List.cons_append, readSettled_bare distinct listed, met]
      change readSettled flags commands ⟨given, some ⟨flag, none⟩⟩ (value :: rest) = .ok outcome ↔ _
      rw [readSettled_value plain, readSettled_of_met distinct rfl]
      exact taken
  · have switch : flag.role = .switch := switch
    have formed : flag.form? = none := by rw [Flag.form?, switch]
    have met : (⟨given, none⟩ : Reading).meet flag none = (⟨given, none⟩ : Reading).take flag "true" := by
      simp only [Reading.meet, switch]
      rfl
    simp only [FlagUse.spelling, formed]
    rw [List.singleton_append, readSettled_bare distinct listed, met, bind_eq_ok, taken]
    rfl

/-- A flag that still needs its value is given it by the next argument. -/
theorem exists_value (distinct : Distinguished flags commands)
    (read : readSettled flags commands ⟨given, some ⟨flag, none⟩⟩ arguments = .ok outcome) :
    ∃ value rest, arguments = value :: rest ∧ isPlain value := by
  have unsettled (before : Reading) : (⟨given, some ⟨flag, none⟩⟩ : Reading).settle ≠ .ok before :=
    fun settled => nomatch settled
  cases arguments with
  | nil => cases read
  | cons argument rest =>
    have noCommand : ¬(argument ∈ commands ∧ (⟨given, some ⟨flag, none⟩⟩ : Reading).wantsValue = false) :=
      fun both => nomatch both.2
    by_cases dashes : argument = "--"
    · subst dashes
      cases rest with
      | nil =>
        rw [readSettled_end distinct] at read
        cases read
      | cons argument rest => exact absurd read (readSettled_beyond_end distinct)
    · rw [readSettled_next noCommand dashes, bind_eq_ok] at read
      obtain ⟨next, met, -⟩ := read
      cases argumentShape argument with
      | bare name whole same =>
        rw [same, Reading.meetArgument_bare whole] at met
        obtain ⟨flag, -, -, met⟩ := Reading.exists_met met
        obtain ⟨before, settled, -⟩ := Reading.meet_eq_ok.mp met
        exact absurd settled (unsettled before)
      | joined name value whole same =>
        rw [same, Reading.meetArgument_joined whole] at met
        obtain ⟨flag, -, -, met⟩ := Reading.exists_met met
        obtain ⟨before, settled, -⟩ := Reading.meet_eq_ok.mp met
        exact absurd settled (unsettled before)
      | letters c rest short same => exact absurd met (Reading.meetArgument_letters distinct short same)
      | plain plain => exact ⟨argument, rest, rfl, plain⟩

/-- A flag that is met without a value is used, as a switch or with the next argument. -/
theorem exists_use_of_bare {next : Reading} (distinct : Distinguished flags commands) (listed : flag ∈ flags)
    (met : (⟨given, none⟩ : Reading).meet flag none = .ok next)
    (read : readSettled flags commands next rest = .ok outcome) :
    ∃ use : FlagUse, ∃ further, use.IsRead flags ∧ use.spelling ++ further = ("--" ++ flag.name) :: rest := by
  cases role : flag.role with
  | value form =>
    have formed : flag.form? = some form := by rw [Flag.form?, role]
    simp only [Reading.meet, role] at met
    cases met
    obtain ⟨value, further, rfl, plain⟩ := exists_value distinct read
    refine ⟨⟨flag, value, false⟩, further, ⟨listed, .inl ⟨by rw [formed]; rfl, .inr plain⟩⟩, ?_⟩
    simp only [FlagUse.spelling, formed]
    rfl
  | switch =>
    have formed : flag.form? = none := by rw [Flag.form?, role]
    refine ⟨⟨flag, "true", false⟩, rest, ⟨listed, .inr ⟨role, rfl, rfl⟩⟩, ?_⟩
    simp only [FlagUse.spelling, formed]
    rfl
  | help => exact absurd met (Reading.meet_asking (.inl role))
  | version => exact absurd met (Reading.meet_asking (.inr role))

/-- A flag that is met with a value is used with the value. -/
theorem exists_use_of_joined {r next : Reading} {value : String} (listed : flag ∈ flags)
    (met : r.meet flag (some value) = .ok next) :
    ∃ use : FlagUse, use.IsRead flags ∧ use.spelling = ["--" ++ flag.name ++ "=" ++ value] := by
  cases role : flag.role with
  | value form =>
    have formed : flag.form? = some form := by rw [Flag.form?, role]
    refine ⟨⟨flag, value, true⟩, ⟨listed, .inl ⟨by rw [formed]; rfl, .inl rfl⟩⟩, ?_⟩
    simp only [FlagUse.spelling, formed]
    rfl
  | switch =>
    simp only [Reading.meet, role] at met
    cases met
  | help => exact absurd met (Reading.meet_asking (.inl role))
  | version => exact absurd met (Reading.meet_asking (.inr role))

inductive LineEnd (commands : List String) where
  | nothing
  /-- Two dashes, after which there can be no flag. -/
  | dashes
  | command (name : String) (arguments : List String) (known : name ∈ commands)

namespace LineEnd

def spelling : LineEnd commands → List String
  | nothing => []
  | dashes => ["--"]
  | command name arguments _ => name :: arguments

def named : LineEnd commands → Option Subcommand
  | command name arguments _ => some (name, arguments)
  | _ => none

end LineEnd

/-- What ends a line adds no value to those given. -/
theorem readSettled_lineEnd (distinct : Distinguished flags commands) (ending : LineEnd commands) :
    readSettled flags commands ⟨given, none⟩ ending.spelling = .ok (given, ending.named) := by
  cases ending with
  | nothing => exact readSettled_nil
  | dashes => exact readSettled_end distinct
  | command name arguments known => exact readSettled_command known rfl

/-- What can be read is at its end or starts with the use of a flag. -/
theorem exists_use (distinct : Distinguished flags commands)
    (read : readSettled flags commands ⟨given, none⟩ arguments = .ok outcome) :
    (∃ ending : LineEnd commands, ending.spelling = arguments) ∨
      ∃ use : FlagUse, ∃ rest, use.IsRead flags ∧ use.spelling ++ rest = arguments := by
  cases arguments with
  | nil => exact .inl ⟨.nothing, rfl⟩
  | cons argument rest =>
    by_cases command : argument ∈ commands
    · exact .inl ⟨.command argument rest command, rfl⟩
    by_cases dashes : argument = "--"
    · subst dashes
      cases rest with
      | nil => exact .inl ⟨.dashes, rfl⟩
      | cons argument rest => exact absurd read (readSettled_beyond_end distinct)
    rw [readSettled_next (fun both => command both.1) dashes, bind_eq_ok] at read
    obtain ⟨next, met, read⟩ := read
    refine .inr ?_
    cases argumentShape argument with
    | bare name whole same =>
      rw [same, Reading.meetArgument_bare whole] at met
      obtain ⟨flag, listed, rfl, reached⟩ := Reading.exists_met met
      rw [same]
      exact exists_use_of_bare distinct listed reached read
    | joined name value whole same =>
      rw [same, Reading.meetArgument_joined whole] at met
      obtain ⟨flag, listed, rfl, reached⟩ := Reading.exists_met met
      obtain ⟨use, isRead, spelled⟩ := exists_use_of_joined listed reached
      exact ⟨use, rest, isRead, by rw [same, spelled]; rfl⟩
    | letters c rest short same => exact absurd met (Reading.meetArgument_letters distinct short same)
    | plain plain =>
      rw [Reading.meetArgument_plain plain] at met
      cases met

/-! ## Command lines -/

/-- A command line: uses of flags and an end. -/
structure CommandLine (flags : List Flag) (commands : List String) where
  uses : List FlagUse
  ending : LineEnd commands
  isRead : ∀ use ∈ uses, use.IsRead flags

namespace CommandLine

def spelling (line : CommandLine flags commands) : List String :=
  line.uses.flatMap FlagUse.spelling ++ line.ending.spelling

/-- Whether the values of a command line are accepted: none is given twice and none is at fault. -/
structure IsAccepted (line : CommandLine flags commands) : Prop where
  once : (line.uses.map (·.flag.name)).Nodup
  faultless : ∀ use ∈ line.uses, use.flag.fault? use.value = none

end CommandLine

/-- Only command lines can be read. -/
theorem exists_commandLine (distinct : Distinguished flags commands) {given : Values} {arguments : List String}
    (read : readSettled flags commands ⟨given, none⟩ arguments = .ok outcome) :
    ∃ line : CommandLine flags commands, line.spelling = arguments := by
  obtain ⟨ending, rfl⟩ | ⟨use, rest, isRead, rfl⟩ := exists_use distinct read
  · exact ⟨⟨[], ending, fun use among => nomatch among⟩, rfl⟩
  · obtain ⟨-, -, read⟩ := (readSettled_use distinct isRead).mp read
    have shorter : rest.length < (use.spelling ++ rest).length := by
      rw [List.length_append]
      exact Nat.lt_add_of_pos_left use.spelling_length_pos
    obtain ⟨⟨uses, ending, areRead⟩, rfl⟩ := exists_commandLine distinct read
    refine ⟨⟨use :: uses, ending, List.forall_mem_cons.mpr ⟨isRead, areRead⟩⟩, ?_⟩
    rw [CommandLine.spelling, List.flatMap_cons, List.append_assoc]
    rfl
termination_by arguments.length

/-- A command line is read when its values are accepted, next to those that were there before. -/
theorem readSettled_uses (distinct : Distinguished flags commands) {uses : List FlagUse} (ending : LineEnd commands)
    (isRead : ∀ use ∈ uses, use.IsRead flags) :
    readSettled flags commands ⟨given, none⟩ (uses.flatMap FlagUse.spelling ++ ending.spelling) = .ok outcome ↔
      (uses.map (·.flag.name)).Nodup ∧
        (∀ use ∈ uses, given.get? use.flag.name = none ∧ use.flag.fault? use.value = none) ∧
        outcome = (given ++ uses.map FlagUse.pair, ending.named) := by
  induction uses generalizing given with
  | nil =>
    change readSettled flags commands ⟨given, none⟩ ending.spelling = .ok outcome ↔ _
    simp [readSettled_lineEnd distinct, eq_comm]
  | cons use uses ih =>
    obtain ⟨first, isRead⟩ := List.forall_mem_cons.mp isRead
    have pushed (name : String) : (given ++ [use.pair]).get? name = none ↔
        given.get? name = none ∧ use.flag.name ≠ name := by
      rw [Values.get?_append, Option.or_eq_none_iff]
      refine and_congr_right fun _ => ?_
      simp [Values.get?, FlagUse.pair]
    rw [List.flatMap_cons, List.append_assoc, readSettled_use distinct first, ih isRead]
    simp only [pushed, List.map_cons, List.nodup_cons, List.forall_mem_cons, List.append_assoc, List.singleton_append,
      List.mem_map, not_exists, not_and]
    constructor
    · rintro ⟨fresh, right, distinct, accepted, same⟩
      exact ⟨⟨fun other among named => (accepted other among).1.2 named.symm, distinct⟩,
        ⟨⟨fresh, right⟩, fun other among => ⟨(accepted other among).1.1, (accepted other among).2⟩⟩, same⟩
    · rintro ⟨⟨other, distinct⟩, ⟨⟨fresh, right⟩, accepted⟩, same⟩
      refine ⟨fresh, right, distinct, fun next among => ?_, same⟩
      obtain ⟨new, faultless⟩ := accepted next among
      exact ⟨⟨new, fun named => other next among named.symm⟩, faultless⟩

/-- A command line is read exactly when its values are accepted. -/
theorem readSettled_commandLine (distinct : Distinguished flags commands) (line : CommandLine flags commands) :
    readSettled flags commands {} line.spelling = .ok outcome ↔
      line.IsAccepted ∧ outcome = (line.uses.map FlagUse.pair, line.ending.named) := by
  have start : readSettled flags commands {} line.spelling = .ok outcome ↔ _ :=
    readSettled_uses distinct line.ending line.isRead
  rw [start]
  constructor
  · rintro ⟨once, accepted, same⟩
    exact ⟨⟨once, fun use among => (accepted use among).2⟩, same⟩
  · rintro ⟨⟨once, faultless⟩, same⟩
    exact ⟨once, fun use among => ⟨rfl, faultless use among⟩, same⟩

/-! ## The order of uses -/

/-- In a list without repeated keys the order does not matter for what a key leads to. -/
theorem find?_perm {α κ : Type} [DecidableEq κ] {key : α → κ} {items others : List α} (same : items.Perm others)
    (distinct : (items.map key).Nodup) (k : κ) :
    (items.find? fun item => key item = k) = others.find? fun item => key item = k := by
  by_cases known : ∃ item ∈ items, key item = k
  · obtain ⟨item, among, rfl⟩ := known
    rw [find?_key distinct among, find?_key ((same.map key).nodup_iff.mp distinct) (same.mem_iff.mp among)]
  · have missing {list : List α} (same : list.Perm items) : (list.find? fun item => key item = k) = none := by
      rw [List.find?_eq_none]
      intro item among named
      exact known ⟨item, same.mem_iff.mp among, of_decide_eq_true named⟩
    rw [missing (List.Perm.refl items), missing same.symm]

theorem get?_map_pair {uses : List FlagUse} :
    Values.get? (uses.map FlagUse.pair) name = (uses.find? fun use => use.flag.name = name).map (·.value) := by
  rw [Values.get?, List.find?_map, Option.map_map]
  rfl

/-- Whether a line is accepted does not depend on the order of its flags. -/
theorem CommandLine.IsAccepted.of_perm {line other : CommandLine flags commands} (accepted : line.IsAccepted)
    (same : line.uses.Perm other.uses) : other.IsAccepted where
  once := (same.map _).nodup_iff.mp accepted.once
  faultless use among := accepted.faultless use (same.mem_iff.mpr among)

/-- With its uses in another order a command line is read to the same values of flags. -/
theorem readSettled_perm {line other : CommandLine flags commands} (distinct : Distinguished flags commands)
    (same : line.uses.Perm other.uses) (ending : line.ending = other.ending) {named : Option Subcommand}
    (read : readSettled flags commands {} line.spelling = .ok (given, named)) :
    ∃ values : Values, readSettled flags commands {} other.spelling = .ok (values, named) ∧
      ∀ name, values.get? name = given.get? name := by
  obtain ⟨accepted, found⟩ := (readSettled_commandLine distinct line).mp read
  cases found
  refine ⟨other.uses.map FlagUse.pair, (readSettled_commandLine distinct other).mpr ⟨accepted.of_perm same, ?_⟩, ?_⟩
  · rw [ending]
  · intro name
    rw [get?_map_pair, get?_map_pair, find?_perm same accepted.once]

end Tenancy
