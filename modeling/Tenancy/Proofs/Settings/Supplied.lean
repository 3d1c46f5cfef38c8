import Tenancy.Command.Basic
import Tenancy.Proofs.Settings.CommandLine

/-! # Where settings come from

Every setting is taken from its flag, else from its variable, else from its default, and from nothing besides
(`Settings.IsSupplied`). The two files for encryption come together or not at all, wherever each of them
comes from. That holds for settings that are read by themselves as for those of the whole program
(`settings_supplied`).
-/

namespace Tenancy

variable {flags others : List Flag} {commands : List String} {flag : Flag} {name : String} {given values : Values}
  {env : Environment}

/-! ## The environment -/

/-- What the environment says about a flag, unless the flag was given. -/
def ambient? (env : Environment) (given : Values) (flag : Flag) : Option String :=
  if (given.get? flag.name).isSome then none else flag.envName.bind env.get?

theorem fromEnvironment_skip (found : ambient? env given flag = none) :
    fromEnvironment env given (flag :: flags) = fromEnvironment env given flags := by
  rw [ambient?] at found
  simp only [fromEnvironment, found]

theorem fromEnvironment_refuse {text : String} {e : UsageError} (found : ambient? env given flag = some text)
    (wrong : flag.fault? text = some e) : fromEnvironment env given (flag :: flags) = .error e := by
  rw [ambient?] at found
  rw [Flag.fault?] at wrong
  simp only [fromEnvironment, found, wrong]

theorem fromEnvironment_take {text : String} (found : ambient? env given flag = some text)
    (right : flag.fault? text = none) :
    fromEnvironment env given (flag :: flags) = ((flag.name, text) :: ·) <$> fromEnvironment env given flags := by
  rw [ambient?] at found
  rw [Flag.fault?] at right
  simp only [fromEnvironment, found, right]
  cases fromEnvironment env given flags <;> rfl

/-- The environment is read exactly when no text in it is at fault, and gives the texts there are. -/
theorem fromEnvironment_eq_ok {ambient : Values} : fromEnvironment env given flags = .ok ambient ↔
    (∀ flag ∈ flags, ∀ text, ambient? env given flag = some text → flag.fault? text = none) ∧
      ambient = flags.filterMap fun flag => (ambient? env given flag).map (flag.name, ·) := by
  induction flags generalizing ambient with
  | nil => simp [fromEnvironment, eq_comm]
  | cons flag flags ih =>
    rw [List.forall_mem_cons]
    cases found : ambient? env given flag with
    | none =>
      rw [fromEnvironment_skip found]
      simp [ih, found]
    | some text =>
      cases wrong : flag.fault? text with
      | some e =>
        rw [fromEnvironment_refuse found wrong]
        simp [wrong]
      | none =>
        rw [fromEnvironment_take found wrong, map_eq_ok]
        simp [ih, found, wrong, eq_comm, and_assoc]

/-- Each flag has at most one value from the environment, which is found by the name of the flag. -/
theorem get?_filterMap {value? : Flag → Option String} (distinct : (flags.map (·.name)).Nodup) (among : flag ∈ flags) :
    Values.get? (flags.filterMap fun flag => (value? flag).map (flag.name, ·)) flag.name = value? flag := by
  induction flags with
  | nil => cases among
  | cons first rest ih =>
    obtain ⟨fresh, distinct⟩ := List.nodup_cons.mp distinct
    rcases List.mem_cons.mp among with rfl | among
    · cases found : value? flag with
      | some value => simp [found, Values.get?]
      | none =>
        rw [List.filterMap_cons_none (by rw [found]; rfl), Values.get?, Option.map_eq_none_iff, List.find?_eq_none]
        intro pair present named
        obtain ⟨other, further, has⟩ := List.mem_filterMap.mp present
        obtain ⟨value, -, rfl⟩ := Option.map_eq_some_iff.mp has
        exact fresh (List.mem_map.mpr ⟨other, further, of_decide_eq_true named⟩)
    · have other : first.name ≠ flag.name := fun same => fresh (List.mem_map.mpr ⟨flag, among, same.symm⟩)
      rw [← ih distinct among]
      cases found : value? first with
      | some value => simp [found, Values.get?, other]
      | none => simp [found]

/-- The environment is only asked which flags were given. -/
theorem fromEnvironment_congr (same : ∀ name, values.get? name = given.get? name) :
    fromEnvironment env values flags = fromEnvironment env given flags := by
  induction flags with
  | nil => rfl
  | cons flag flags ih => rw [fromEnvironment, fromEnvironment, same, ih]

/-! ## What is supplied -/

/-- The text that the uses of flags or else the environment supply. -/
def supplied? (uses : List FlagUse) (env : Environment) (name envName : String) : Option String :=
  ((uses.find? fun use => use.flag.name = name).map (·.value)).or (env.get? envName)

/-- Whether choices are what is supplied for each flag that has a variable, and in the form of the flag. -/
def Choices.AreSupplied (flags : List Flag) (uses : List FlagUse) (env : Environment) (c : Choices) : Prop :=
  ∀ flag ∈ flags, ∀ envName, flag.envName = some envName →
    c.get? flag.name = supplied? uses env flag.name envName ∧
      ∀ text, supplied? uses env flag.name envName = some text → flag.fault? text = none

/-- The choices that a command line and an environment are read to are those that they supply. -/
theorem choices_areSupplied {ambient : Values} (distinct : Distinguished (flags ++ others) commands)
    {line : CommandLine (flags ++ others) commands} (accepted : line.IsAccepted)
    (read : fromEnvironment env (line.uses.map FlagUse.pair) flags = .ok ambient) :
    Choices.AreSupplied flags line.uses env ⟨line.uses.map FlagUse.pair, ambient⟩ := by
  intro flag among envName named
  obtain ⟨faultless, rfl⟩ := fromEnvironment_eq_ok.mp read
  have names : (flags.map (·.name)).Nodup := (distinct.names.sublist ((List.sublist_append_left _ _).map _))
  rw [supplied?, Choices.get?, get?_filterMap names among, get?_map_pair]
  have ambient := faultless flag among
  rw [ambient?, get?_map_pair, named] at ambient
  rw [ambient?, get?_map_pair, named]
  cases used : line.uses.find? fun use => use.flag.name = flag.name with
  | none =>
    rw [used] at ambient
    exact ⟨rfl, ambient⟩
  | some use =>
    refine ⟨rfl, fun text same => ?_⟩
    cases same
    -- the use is of this very flag, as no other has the name
    have present : use ∈ line.uses := List.mem_of_find?_eq_some used
    have same : use.flag.name = flag.name := by simpa using List.find?_some used
    have listed : use.flag ∈ flags ++ others := (line.isRead use present).1
    have flagged := find?_key distinct.names listed
    rw [same, find?_key distinct.names (List.mem_append_left _ among)] at flagged
    rw [Option.some.inj flagged]
    exact accepted.faultless use present

/-- What the environment adds is supplied. -/
theorem supplied?_of_ambient? {uses : List FlagUse} {text : String}
    (found : ambient? env (uses.map FlagUse.pair) flag = some text) :
    ∃ envName, flag.envName = some envName ∧ supplied? uses env flag.name envName = some text := by
  rw [ambient?, get?_map_pair] at found
  split at found
  · cases found
  · rename_i unused
    obtain ⟨envName, named, found⟩ := Option.bind_eq_some_iff.mp found
    refine ⟨envName, named, ?_⟩
    rw [supplied?, Option.not_isSome_iff_eq_none.mp unused, Option.none_or, found]

/-! ## Settings -/

/-- Whether a setting is what a supplied text is read as, or its default when no text is supplied. -/
def IsChosen {α : Type} (read? : String → Option α) (default : α) (supplied : Option String) (setting : α) : Prop :=
  match supplied with
  | some text => read? text = some setting
  | none => setting = default

/-- Reading a supplied text, or else the default, chooses as promised if the text is readable. -/
theorem isChosen_getD {α : Type} {read? : String → Option α} {default : α} {supplied : Option String}
    (readable : ∀ text, supplied = some text → (read? text).isSome) :
    IsChosen read? default supplied ((supplied.bind read?).getD default) := by
  cases supplied with
  | none => rfl
  | some text =>
    obtain ⟨setting, read⟩ := Option.isSome_iff_exists.mp (readable text rfl)
    simp [IsChosen, read]

def truth? (text : String) : Option Bool := [("true", true), ("false", false)].lookup text

/-- Settings that are what uses of flags and an environment supply: each comes from its own flag, else its own
variable, else its default. -/
structure Settings.IsSupplied (uses : List FlagUse) (env : Environment) (s : Settings) : Prop where
  address : IsChosen Http.Address.read? ⟨.v4 0 0 0 0, 9443⟩
    (supplied? uses env "webhook-addr" "GENESIS_WEBHOOK_ADDR") s.address
  certificate : s.certificate = supplied? uses env "tls-cert" "GENESIS_TLS_CERT"
  key : s.key = supplied? uses env "tls-key" "GENESIS_TLS_KEY"
  resyncSeconds : IsChosen (ValueForm.number? false (2 ^ 64 - 1)) 300
    (supplied? uses env "resync-secs" "GENESIS_RESYNC_SECS") s.resyncSeconds
  concurrency : IsChosen (ValueForm.number? true (2 ^ 16 - 1)) 4
    (supplied? uses env "concurrency" "GENESIS_CONCURRENCY") s.concurrency
  installsDefinition : IsChosen truth? true
    (supplied? uses env "install-crds" "GENESIS_INSTALL_CRDS") s.installsDefinition
  /-- There is encryption exactly with both files, and they are the ones supplied. -/
  tls : ∃ files, s.tls = .ok files ∧ ∀ certificate key, files = some ⟨certificate, key⟩ ↔
    supplied? uses env "tls-cert" "GENESIS_TLS_CERT" = some certificate ∧
      supplied? uses env "tls-key" "GENESIS_TLS_KEY" = some key
  interval : s.resyncInterval = max s.resyncSeconds 1 ∧ 0 < s.resyncInterval

/-- Encryption fails exactly with one of the two files. -/
theorem Settings.tls_error_iff (s : Settings) :
    (∃ e, s.tls = .error e) ↔ s.certificate.isSome ≠ s.key.isSome := by
  rw [tls]
  cases s.certificate <;> cases s.key <;> simp

/-- Paired paths are no error, and give the two files or none. -/
theorem Settings.tls_of_paired (s : Settings) (paired : s.certificate.isSome = s.key.isSome) :
    ∃ files, s.tls = .ok files ∧ ∀ certificate key, files = some ⟨certificate, key⟩ ↔
      s.certificate = some certificate ∧ s.key = some key := by
  rw [tls]
  revert paired
  cases s.certificate <;> cases s.key
  · exact fun _ => ⟨none, rfl, by simp⟩
  · exact fun paired => nomatch paired
  · exact fun paired => nomatch paired
  · exact fun _ => ⟨_, rfl, by simp⟩

/-- The choices make settings exactly when the two paths come together. -/
theorem Settings.ofChoices?_eq_ok {c : Choices} {s : Settings} : ofChoices? c = .ok s ↔
    (c.get? certificateFlag.name).isSome = (c.get? keyFlag.name).isSome ∧ ofChoices c = s := by
  rw [ofChoices?]
  split
  · rename_i paired
    simp [paired]
  · rename_i unpaired
    simp [unpaired]

section

open Settings

variable {uses : List FlagUse} {c : Choices}

/-- The files for encryption are chosen together exactly when they are supplied together. -/
theorem Choices.AreSupplied.paired_iff (supplied : c.AreSupplied flags uses env)
    (listed : Settings.flags ⊆ flags) :
    (c.get? certificateFlag.name).isSome = (c.get? keyFlag.name).isSome ↔
      (supplied? uses env "tls-cert" "GENESIS_TLS_CERT").isSome =
        (supplied? uses env "tls-key" "GENESIS_TLS_KEY").isSome := by
  obtain ⟨certificate, -⟩ := supplied certificateFlag (listed (by simp [Settings.flags])) _ rfl
  obtain ⟨key, -⟩ := supplied keyFlag (listed (by simp [Settings.flags])) _ rfl
  rw [certificate, key]
  exact Iff.rfl

theorem isChosen_install {supplied : Option String}
    (worded : ∀ text, supplied = some text → installFlag.fault? text = none) :
    IsChosen truth? true supplied (supplied ≠ some "false") := by
  cases supplied with
  | none => rfl
  | some text =>
    have words : text = "true" ∨ text = "false" := by
      rw [or_iff_not_imp_left]
      simpa [Flag.fault?, Flag.form?, ValueForm.fault?, installFlag] using worded text rfl
    rcases words with rfl | rfl <;> rfl

/-- Settings made of choices that are supplied are supplied. -/
theorem Settings.isSupplied_of_choices {s : Settings} (supplied : c.AreSupplied flags uses env)
    (listed : Settings.flags ⊆ flags) (made : ofChoices? c = .ok s) : s.IsSupplied uses env := by
  obtain ⟨paired, rfl⟩ := ofChoices?_eq_ok.mp made
  obtain ⟨address, addressed⟩ := supplied addressFlag (listed (by simp [Settings.flags])) _ rfl
  obtain ⟨certificate, -⟩ := supplied certificateFlag (listed (by simp [Settings.flags])) _ rfl
  obtain ⟨key, -⟩ := supplied keyFlag (listed (by simp [Settings.flags])) _ rfl
  obtain ⟨seconds, timed⟩ := supplied resyncFlag (listed (by simp [Settings.flags])) _ rfl
  obtain ⟨width, counted⟩ := supplied concurrencyFlag (listed (by simp [Settings.flags])) _ rfl
  obtain ⟨install, worded⟩ := supplied installFlag (listed (by simp [Settings.flags])) _ rfl
  refine ⟨?_, certificate, key, ?_, ?_, ?_, ?_, ?_⟩
  · rw [ofChoices, address]
    refine isChosen_getD fun text same => Option.isSome_iff_ne_none.mpr ?_
    simpa [Flag.fault?, Flag.form?, ValueForm.fault?, addressFlag] using addressed text same
  · rw [ofChoices, seconds]
    refine isChosen_getD fun text same => Option.isSome_iff_ne_none.mpr ?_
    simpa [Flag.fault?, Flag.form?, ValueForm.fault?, resyncFlag, longest] using timed text same
  · rw [ofChoices, width]
    refine isChosen_getD fun text same => Option.isSome_iff_ne_none.mpr ?_
    simpa [Flag.fault?, Flag.form?, ValueForm.fault?, concurrencyFlag, widest] using counted text same
  · simp only [ofChoices, install]
    exact isChosen_install worded
  · obtain ⟨files, encrypts, are⟩ := tls_of_paired (ofChoices c) paired
    refine ⟨files, encrypts, fun _ _ => (are _ _).trans ?_⟩
    simp only [ofChoices, certificate, key]
    exact Iff.rfl
  · exact ⟨rfl, Nat.lt_of_lt_of_le Nat.zero_lt_one (Nat.le_max_right _ _)⟩

end

/-! ## Programs that read settings -/

variable {arguments : List String} {named : Option Subcommand} {c : Choices}

/-- Reading to the end finds what reading and settling find, and what the environment adds to it. -/
theorem exists_finish : (∃ reading, readArguments (flags ++ others) commands {} arguments = .ok (reading, named) ∧
      reading.finish flags env = .ok c) ↔
    readSettled (flags ++ others) commands {} arguments = .ok (c.given, named) ∧
      fromEnvironment env c.given flags = .ok c.ambient := by
  obtain ⟨given, ambient⟩ := c
  constructor
  · rintro ⟨reading, read, finished⟩
    obtain ⟨last, settled, finished⟩ := bind_eq_ok.mp finished
    obtain ⟨found, asked, same⟩ := bind_eq_ok.mp finished
    cases same
    exact ⟨bind_eq_ok.mpr ⟨_, read, bind_eq_ok.mpr ⟨last, settled, rfl⟩⟩, asked⟩
  · rintro ⟨read, asked⟩
    obtain ⟨⟨reading, found⟩, read, finished⟩ := bind_eq_ok.mp read
    obtain ⟨last, settled, same⟩ := bind_eq_ok.mp finished
    cases same
    exact ⟨reading, read, bind_eq_ok.mpr ⟨last, settled, bind_eq_ok.mpr ⟨ambient, asked, rfl⟩⟩⟩

/-- What is read of a command line is accepted and supplied. -/
theorem areSupplied_of_finish {line : CommandLine (flags ++ others) commands} {reading : Reading}
    (distinct : Distinguished (flags ++ others) commands)
    (read : readArguments (flags ++ others) commands {} line.spelling = .ok (reading, named))
    (finished : reading.finish flags env = .ok c) : line.IsAccepted ∧ c.AreSupplied flags line.uses env := by
  obtain ⟨settled, asked⟩ := exists_finish.mp ⟨reading, read, finished⟩
  obtain ⟨given, ambient⟩ := c
  obtain ⟨accepted, same⟩ := (readSettled_commandLine distinct line).mp settled
  cases same
  exact ⟨accepted, choices_areSupplied distinct accepted asked⟩

/-- What is accepted and has the right form is read. -/
theorem exists_finish_of_accepted {line : CommandLine (flags ++ others) commands}
    (distinct : Distinguished (flags ++ others) commands) (accepted : line.IsAccepted)
    (faultless : ∀ flag ∈ flags, ∀ envName, flag.envName = some envName →
      ∀ text, supplied? line.uses env flag.name envName = some text → flag.fault? text = none) :
    ∃ reading c, readArguments (flags ++ others) commands {} line.spelling = .ok (reading, line.ending.named) ∧
      reading.finish flags env = .ok c := by
  obtain ⟨ambient, asked⟩ : ∃ ambient, fromEnvironment env (line.uses.map FlagUse.pair) flags = .ok ambient := by
    refine ⟨_, fromEnvironment_eq_ok.mpr ⟨fun flag among text found => ?_, rfl⟩⟩
    obtain ⟨envName, named, supplied⟩ := supplied?_of_ambient? found
    exact faultless flag among envName named text supplied
  have settled := (readSettled_commandLine distinct line).mpr ⟨accepted, rfl⟩
  obtain ⟨reading, read, finished⟩ := (exists_finish (c := ⟨_, ambient⟩)).mpr ⟨settled, asked⟩
  exact ⟨reading, _, read, finished⟩

/-- With its uses in another order a command line is read to choices that cannot be told apart. -/
theorem exists_finish_perm {line other : CommandLine (flags ++ others) commands} {reading : Reading}
    (distinct : Distinguished (flags ++ others) commands) (same : line.uses.Perm other.uses)
    (ending : line.ending = other.ending)
    (read : readArguments (flags ++ others) commands {} line.spelling = .ok (reading, named))
    (finished : reading.finish flags env = .ok c) :
    ∃ reading d, readArguments (flags ++ others) commands {} other.spelling = .ok (reading, named) ∧
      reading.finish flags env = .ok d ∧ d.get? = c.get? ∧
        ∀ inner : Choices, (inner.over d).get? = (inner.over c).get? := by
  obtain ⟨settled, asked⟩ := exists_finish.mp ⟨reading, read, finished⟩
  obtain ⟨values, resettled, agree⟩ := readSettled_perm distinct same ending settled
  rw [← fromEnvironment_congr agree] at asked
  obtain ⟨reading, read, finished⟩ :=
    (exists_finish (c := ⟨values, c.ambient⟩)).mpr ⟨resettled, asked⟩
  refine ⟨reading, _, read, finished, funext fun name => ?_, fun inner => funext fun name => ?_⟩
  · rw [Choices.get?, Choices.get?, agree]
  · simp only [Choices.get?, Choices.over, Values.get?_append, agree]

theorem Settings.ofChoices?_congr {d : Choices} (same : d.get? = c.get?) : ofChoices? d = ofChoices? c := by
  rw [ofChoices?, ofChoices?, ofChoices, ofChoices, same]

theorem Telemetry.ofChoices_congr {d : Choices} (same : d.get? = c.get?) : ofChoices d = ofChoices c := by
  rw [ofChoices, ofChoices, same]

/-- What is promised of a program that reads settings from a command line and an environment. -/
structure ReadsSettings (flags : List Flag) (commands : List String) {α : Type}
    (read : List String → Environment → Except UsageError α) (settings : α → Settings) : Prop where
  /-- Nothing but command lines can be read. -/
  isLine : ∀ arguments env result, read arguments env = .ok result →
    ∃ line : CommandLine flags commands, line.spelling = arguments
  /-- Settings are what the command line and the environment supply. -/
  isSupplied : ∀ (line : CommandLine flags commands) env result, read line.spelling env = .ok result →
    (settings result).IsSupplied line.uses env
  /-- A command line without a command is read exactly when no flag is used twice, every text that is supplied has the
  form of its flag, and the two files for encryption are supplied together. -/
  accepts : ∀ (line : CommandLine flags commands) env, line.ending.named = none →
    ((∃ result, read line.spelling env = .ok result) ↔ line.IsAccepted ∧
      (∀ flag ∈ flags, ∀ envName, flag.envName = some envName →
        ∀ text, supplied? line.uses env flag.name envName = some text → flag.fault? text = none) ∧
      (supplied? line.uses env "tls-cert" "GENESIS_TLS_CERT").isSome =
        (supplied? line.uses env "tls-key" "GENESIS_TLS_KEY").isSome)
  /-- Nothing is read with exactly one of the two files for encryption. -/
  paired : ∀ (line : CommandLine flags commands) env,
    (supplied? line.uses env "tls-cert" "GENESIS_TLS_CERT").isSome ≠
      (supplied? line.uses env "tls-key" "GENESIS_TLS_KEY").isSome →
    ∀ result, read line.spelling env ≠ .ok result
  /-- The order of the uses of flags does not matter. -/
  unordered : ∀ line other : CommandLine flags commands, line.uses.Perm other.uses → line.ending = other.ending →
    ∀ env result, read line.spelling env = .ok result ↔ read other.spelling env = .ok result

/-- A program that makes its settings of what it has read keeps the promises. -/
theorem readsSettings_of_choices {α : Type} {read : List String → Environment → Except UsageError α}
    {settings : α → Settings} (distinct : Distinguished (flags ++ others) commands) (listed : Settings.flags ⊆ flags)
    (asking : ∀ flag ∈ others, flag.envName = none)
    (made : ∀ arguments env result, read arguments env = .ok result → ∃ reading named c,
      readArguments (flags ++ others) commands {} arguments = .ok (reading, named) ∧
        reading.finish flags env = .ok c ∧ Settings.ofChoices? c = .ok (settings result))
    (makes : ∀ arguments env reading c s,
      readArguments (flags ++ others) commands {} arguments = .ok (reading, none) →
        reading.finish flags env = .ok c → Settings.ofChoices? c = .ok s → ∃ result, read arguments env = .ok result)
    (again : ∀ line other : CommandLine (flags ++ others) commands, line.uses.Perm other.uses →
      line.ending = other.ending →
      ∀ env result, read line.spelling env = .ok result → read other.spelling env = .ok result) :
    ReadsSettings (flags ++ others) commands read settings := by
  -- from a result back to the accepted line and to the choices that it and the environment make
  have inverted (line : CommandLine (flags ++ others) commands) (env : Environment) (result : α)
      (done : read line.spelling env = .ok result) : ∃ c : Choices, line.IsAccepted ∧
        c.AreSupplied flags line.uses env ∧ Settings.ofChoices? c = .ok (settings result) := by
    obtain ⟨reading, named, c, first, finished, chosen⟩ := made _ _ _ done
    obtain ⟨accepted, supplied⟩ := areSupplied_of_finish distinct first finished
    exact ⟨c, accepted, supplied, chosen⟩
  have paired (line : CommandLine (flags ++ others) commands) (env : Environment) (result : α)
      (done : read line.spelling env = .ok result) :
      (supplied? line.uses env "tls-cert" "GENESIS_TLS_CERT").isSome =
        (supplied? line.uses env "tls-key" "GENESIS_TLS_KEY").isSome := by
    obtain ⟨c, -, supplied, chosen⟩ := inverted line env result done
    exact (supplied.paired_iff listed).mp (Settings.ofChoices?_eq_ok.mp chosen).1
  refine ⟨?_, ?_, ?_, ?_, ?_⟩
  · intro arguments env result done
    obtain ⟨reading, named, c, first, finished, -⟩ := made _ _ _ done
    exact exists_commandLine distinct (exists_finish.mp ⟨reading, first, finished⟩).1
  · intro line env result done
    obtain ⟨c, -, supplied, chosen⟩ := inverted line env result done
    exact Settings.isSupplied_of_choices supplied listed chosen
  · intro line env unnamed
    constructor
    · rintro ⟨result, done⟩
      obtain ⟨c, accepted, supplied, chosen⟩ := inverted line env result done
      refine ⟨accepted, fun flag among envName named => ?_, paired line env result done⟩
      rcases List.mem_append.mp among with among | among
      · exact (supplied flag among envName named).2
      · rw [asking flag among] at named
        cases named
    · rintro ⟨accepted, faultless, together⟩
      obtain ⟨reading, c, first, finished⟩ := exists_finish_of_accepted distinct accepted
        fun flag among => faultless flag (List.mem_append_left _ among)
      obtain ⟨-, supplied⟩ := areSupplied_of_finish distinct first finished
      rw [unnamed] at first
      exact makes _ _ reading c _ first finished
        (Settings.ofChoices?_eq_ok.mpr ⟨(supplied.paired_iff listed).mpr together, rfl⟩)
  · intro line env unpaired result done
    exact unpaired (paired line env result done)
  · intro line other same ending env result
    exact ⟨again line other same ending env result, again other line same.symm ending.symm env result⟩

theorem distinguished_readSettings : Distinguished (Settings.flags ++ Telemetry.flags ++ [.help]) [] where
  names := by decide +kernel
  whole := by decide +kernel
  letters := by decide +kernel
  commands := by decide +kernel

theorem distinguished_read : Distinguished
    ([Command.definitionFlag] ++ Telemetry.flags ++ Settings.flags ++ [.help, .version])
    (Command.names ++ ["help"]) where
  names := by decide +kernel
  whole := by decide +kernel
  letters := by decide +kernel
  commands := by decide +kernel

theorem readsSettings_readSettings :
    ReadsSettings (Settings.flags ++ Telemetry.flags ++ [.help]) [] readSettings (·.1) := by
  apply readsSettings_of_choices distinguished_readSettings (List.subset_append_left _ _) (by decide +kernel)
  · intro arguments env result done
    obtain ⟨⟨reading, named⟩, read, done⟩ := bind_eq_ok.mp done
    obtain ⟨c, finished, done⟩ := bind_eq_ok.mp done
    obtain ⟨settings, chosen, same⟩ := bind_eq_ok.mp done
    cases same
    exact ⟨reading, named, c, read, finished, chosen⟩
  · intro arguments env reading c s read finished chosen
    exact ⟨_, bind_eq_ok.mpr ⟨_, read, bind_eq_ok.mpr ⟨c, finished, bind_eq_ok.mpr ⟨s, chosen, rfl⟩⟩⟩⟩
  · intro line other same ending env result done
    obtain ⟨⟨reading, named⟩, read, done⟩ := bind_eq_ok.mp done
    obtain ⟨c, finished, done⟩ := bind_eq_ok.mp done
    obtain ⟨reread, d, read, finished, alike, -⟩ :=
      exists_finish_perm distinguished_readSettings same ending read finished
    refine bind_eq_ok.mpr ⟨_, read, bind_eq_ok.mpr ⟨d, finished, ?_⟩⟩
    rw [← done, Settings.ofChoices?_congr alike, Telemetry.ofChoices_congr alike]

/-- The program's own reader keeps what is promised. -/
theorem readsSettings_read :
    ReadsSettings ([Command.definitionFlag] ++ Telemetry.flags ++ Settings.flags ++ [.help, .version])
      (Command.names ++ ["help"]) Invocation.read (·.settings) := by
  apply readsSettings_of_choices distinguished_read (List.subset_append_right _ _) (by decide +kernel)
  · intro arguments env result done
    obtain ⟨⟨reading, named⟩, read, done⟩ := bind_eq_ok.mp done
    obtain ⟨inner, -, done⟩ := bind_eq_ok.mp done
    obtain ⟨c, finished, done⟩ := bind_eq_ok.mp done
    obtain ⟨settings, chosen, same⟩ := bind_eq_ok.mp done
    cases same
    exact ⟨reading, named, c, read, finished, chosen⟩
  · intro arguments env reading c s read finished chosen
    exact ⟨_, bind_eq_ok.mpr ⟨_, read,
      bind_eq_ok.mpr ⟨none, rfl, bind_eq_ok.mpr ⟨c, finished, bind_eq_ok.mpr ⟨s, chosen, rfl⟩⟩⟩⟩⟩
  · intro line other same ending env result done
    obtain ⟨⟨reading, named⟩, read, done⟩ := bind_eq_ok.mp done
    obtain ⟨inner, nested, done⟩ := bind_eq_ok.mp done
    obtain ⟨c, finished, done⟩ := bind_eq_ok.mp done
    obtain ⟨reread, d, read, finished, alike, alikeOver⟩ :=
      exists_finish_perm distinguished_read same ending read finished
    refine bind_eq_ok.mpr ⟨_, read, bind_eq_ok.mpr ⟨inner, nested, bind_eq_ok.mpr ⟨d, finished, ?_⟩⟩⟩
    rw [← done, Settings.ofChoices?_congr alike]
    cases inner with
    | none => simp only [alike, Telemetry.ofChoices_congr alike]
    | some chosen => simp only [alike, Telemetry.ofChoices_congr (alikeOver chosen.2)]

/-- Settings are consistent: each is what its flag, its variable or its default supplies, in any order, and the two
files for encryption are supplied together or nothing is read. Settings that were not read fail to encrypt exactly
with one of the two files. -/
theorem settings_supplied :
    ReadsSettings (Settings.flags ++ Telemetry.flags ++ [.help]) [] readSettings (·.1) ∧
    ReadsSettings ([Command.definitionFlag] ++ Telemetry.flags ++ Settings.flags ++ [.help, .version])
      (Command.names ++ ["help"]) Invocation.read (·.settings) ∧
    ∀ s : Settings, (∃ e, s.tls = .error e) ↔ s.certificate.isSome ≠ s.key.isSome :=
  ⟨readsSettings_readSettings, readsSettings_read, Settings.tls_error_iff⟩

/-- A line that gives the key and the interval with flags and leaves the rest to the environment. -/
def mixedLine : CommandLine ([Command.definitionFlag] ++ Telemetry.flags ++ Settings.flags ++ [.help, .version])
    (Command.names ++ ["help"]) where
  uses := [
    ⟨Settings.keyFlag, "/tls/key", true⟩,
    ⟨Settings.resyncFlag, "0", false⟩]
  ending := .command "controller" [] (by decide)
  isRead := by decide +kernel

/-- A line that gives the certificate alone. -/
def halfLine : CommandLine (Settings.flags ++ Telemetry.flags ++ [.help]) [] where
  uses := [⟨Settings.certificateFlag, "/tls/cert", false⟩]
  ending := .nothing
  isRead := by decide +kernel

/-- The environment that goes with `mixedLine`. -/
def mixedEnvironment : Environment :=
  [("GENESIS_TLS_CERT", "/tls/cert"), ("GENESIS_RESYNC_SECS", "60"), ("GENESIS_CONCURRENCY", "8")]

/-- With the key from a flag and the certificate from the environment there is encryption; a certificate alone is not
read. -/
theorem settings_supplied_mixed :
    mixedLine.spelling = ["--tls-key=/tls/key", "--resync-secs", "0", "controller"] ∧
    (∃ i, Invocation.read mixedLine.spelling mixedEnvironment = .ok i ∧
      i.settings = { certificate := some "/tls/cert", key := some "/tls/key", resyncSeconds := 0, concurrency := 8 } ∧
      i.settings.IsSupplied mixedLine.uses mixedEnvironment) ∧
    ∀ result, readSettings halfLine.spelling [] ≠ .ok result := by
  refine ⟨by decide +kernel, ⟨⟨.control,
    { certificate := some "/tls/cert", key := some "/tls/key", resyncSeconds := 0, concurrency := 8 }, {}⟩,
    by decide +kernel, rfl, ?_⟩, ?_⟩
  · exact settings_supplied.2.1.isSupplied mixedLine mixedEnvironment ⟨.control, _, {}⟩ (by decide +kernel)
  · exact settings_supplied.1.paired halfLine [] (by decide +kernel)

end Tenancy
