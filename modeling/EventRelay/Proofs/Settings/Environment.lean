import EventRelay.Proofs.Decimal.Digits
import EventRelay.Proofs.Settings.Validation
import EventRelay.Settings.Environment
import Mathlib

/-!
# Overrides from the environment

Settings that have been overridden are described field by field: six of them follow a variable each,
and the others stay. This description determines the result, so that overriding twice is overriding
once. It also keeps settings valid, for a variable that is taken is not blank; what can fail is the
number of the cluster port and nothing else.
-/

namespace EventRelay

open Decimal (Digit)

/-! ## Ports and their texts -/

namespace Port

/-- A text spells a port by digits whose number is a port, with or without a plus in front. -/
def Spells (text : String) (port : Nat) : Prop :=
  ∃ digits : List Digit, digits ≠ [] ∧ Decimal.value digits = port ∧ port < limit ∧
    (text.toList = digits.map Digit.char ∨ text.toList = '+' :: digits.map Digit.char)

/-- Characters are the ones without the plus in front, or these behind a plus. -/
theorem eq_unsigned_or (chars : List Char) :
    chars = unsigned chars ∨ chars = '+' :: unsigned chars := by
  unfold unsigned
  split
  · exact .inr rfl
  · exact .inl rfl

/-- No digit is a plus. -/
theorem unsigned_map_char {digits : List Digit} :
    unsigned (digits.map Digit.char) = digits.map Digit.char := by
  cases digits with
  | nil => rfl
  | cons first rest =>
    have digit : first.char ≠ '+' := by
      revert first
      decide
    rw [List.map_cons, unsigned]
    simpa using digit

/-- The port of a text is the one that the text spells. -/
theorem ofText?_eq_some_iff {text : String} {port : Nat} :
    ofText? text = some port ↔ Spells text port := by
  constructor
  · intro named
    simp only [ofText?] at named
    split at named
    · simp at named
    · rename_i filled
      obtain ⟨digits, read, fits⟩ := Option.bind_eq_some_iff.mp named
      split at fits
      · rename_i small
        obtain rfl := Option.some.inj fits
        have spelled := Decimal.map_char_of_digits? read
        refine ⟨digits, ?_, rfl, small, ?_⟩
        · rintro rfl
          rw [← spelled] at filled
          exact filled rfl
        · rw [spelled]
          exact eq_unsigned_or text.toList
      · simp at fits
  · rintro ⟨digits, filled, rfl, small, spelled⟩
    have chars : unsigned text.toList = digits.map Digit.char := by
      obtain plain | signed := spelled
      · rw [plain, unsigned_map_char]
      · rw [signed, unsigned]
    simp only [ofText?]
    rw [chars, if_neg (by simpa using filled), Decimal.digits?_map_char, Option.bind_some,
      if_pos small]

end Port

namespace Settings

/-! ## Variables -/

/-- A variable is set to a value that is not blank. -/
def Environment.Gives (environment : Environment) (name value : String) : Prop :=
  environment name = some value ∧ Text.isBlankText value = false

/-- A setting follows a variable: it is what the value of the variable is read as where the variable
gives one, and is as before where it gives none. -/
def Follows {α : Type} (environment : Environment) (name : String) (reads : String → α → Prop)
    (before after : α) : Prop :=
  (∀ value, environment.Gives name value → reads value after) ∧
    ((∀ value, ¬ environment.Gives name value) → after = before)

variable {settings after : Settings} {environment : Environment} {name : String}

theorem value?_eq_some_iff {value : String} :
    environment.value? name = some value ↔ environment.Gives name value := by
  unfold Environment.value? Environment.Gives
  cases environment name with
  | none => simp
  | some held =>
    simp only [Option.some.injEq]
    by_cases blank : Text.isBlankText held = true
    · rw [if_pos blank]
      constructor
      · intro taken
        simp at taken
      · rintro ⟨rfl, filled⟩
        exact absurd (blank.symm.trans filled) (by decide)
    · rw [if_neg blank, Option.some.injEq]
      constructor
      · rintro rfl
        exact ⟨rfl, Bool.eq_false_of_not_eq_true blank⟩
      · exact And.left

/-- Whether a setting follows a variable depends on the value that is taken from it. -/
theorem follows_iff {α : Type} {reads : String → α → Prop} {before after : α} :
    Follows environment name reads before after ↔
      match environment.value? name with
      | some value => reads value after
      | none => after = before := by
  cases taken : environment.value? name with
  | none =>
    have unset : ∀ value, ¬ environment.Gives name value := fun value given =>
      absurd (taken.symm.trans (value?_eq_some_iff.mpr given)) (by simp)
    exact ⟨fun follows => follows.2 unset, fun same => ⟨fun value given =>
      absurd given (unset value), fun _ => same⟩⟩
  | some value =>
    have given := value?_eq_some_iff.mp taken
    refine ⟨fun follows => follows.1 value given, fun read => ⟨fun other again => ?_, fun unset =>
      absurd given (unset value)⟩⟩
    obtain rfl : value = other := Option.some.inj (given.1.symm.trans again.1)
    exact read

/-- A setting that follows a variable still follows it when it is overridden again. -/
theorem Follows.again {α : Type} {reads : String → α → Prop} {before after : α}
    (follows : Follows environment name reads before after) :
    Follows environment name reads after after :=
  ⟨follows.1, fun _ => rfl⟩

/-- A setting that follows a variable keeps a property that every value of the variable brings. -/
theorem Follows.keeps {α : Type} {reads : String → α → Prop} {before after : α}
    (follows : Follows environment name reads before after) (property : α → Prop)
    (brings : ∀ value, environment.Gives name value → reads value after → property after)
    (held : property before) : property after := by
  by_cases given : ∃ value, environment.Gives name value
  · obtain ⟨value, given⟩ := given
    exact brings value given (follows.1 value given)
  · rw [follows.2 fun value taken => given ⟨value, taken⟩]
    exact held

/-- A text that follows a variable is the value taken from it, else the text before. -/
theorem follows_text_iff {before after : String} :
    Follows environment name (fun value after => after = value) before after ↔
      after = (environment.value? name).getD before := by
  rw [follows_iff]
  cases environment.value? name <;> rfl

/-- So is a text that may be absent. -/
theorem follows_optional_iff {before after : Option String} :
    Follows environment name (fun value after => after = some value) before after ↔
      after = (environment.value? name).or before := by
  rw [follows_iff]
  cases environment.value? name <;> rfl

/-- The port follows its variable wherever it can be chosen. -/
theorem follows_port_iff {before after : Nat} :
    Follows environment portVariable (fun value after => Port.Spells (Text.trim value) after)
        before after ↔
      overridePort environment before = .ok after := by
  rw [follows_iff, overridePort]
  cases environment.value? portVariable with
  | none => simp [eq_comm]
  | some value =>
    simp only [← Port.ofText?_eq_some_iff]
    cases Port.ofText? (Text.trim value) <;> simp

/-- No port can be chosen when its variable gives a text that spells none. -/
theorem overridePort_eq_error_iff {before : Nat} {problem : SettingsError} :
    overridePort environment before = .error problem ↔
      ∃ value, environment.Gives portVariable value ∧
        (∀ port, ¬ Port.Spells (Text.trim value) port) ∧
        problem = .environment portVariable value "not a port number" := by
  simp only [← value?_eq_some_iff, ← Port.ofText?_eq_some_iff, ← Option.eq_none_iff_forall_ne_some]
  rw [overridePort]
  cases taken : environment.value? portVariable with
  | none => simp
  | some value =>
    cases read : Port.ofText? (Text.trim value) with
    | none => simp [read, eq_comm]
    | some port => simp [read]

/-! ## Overridden settings -/

/-- Settings after an override: six fields follow their variables, and no other field is touched. -/
structure Overridden (settings : Settings) (environment : Environment) (after : Settings) :
    Prop where
  rootPrefix : Follows environment rootVariable (fun value after => after = some value)
    settings.storage.rootPrefix after.storage.rootPrefix
  directory : Follows environment directoryVariable (fun value after => after = value)
    settings.routing.directory after.routing.directory
  endpoint : Follows environment endpointVariable (fun value after => after = some value)
    settings.messaging.endpoint after.messaging.endpoint
  ingestTopic : Follows environment topicVariable (fun value after => after = value)
    settings.server.ingestTopic after.server.ingestTopic
  clusterHost : Follows environment hostVariable (fun value after => after = value)
    settings.storage.clusterHost after.storage.clusterHost
  clusterPort : Follows environment portVariable
    (fun value after => Port.Spells (Text.trim value) after)
    settings.storage.clusterPort after.storage.clusterPort
  others : after =
    { settings with
      routing := { settings.routing with directory := after.routing.directory }
      storage :=
        { settings.storage with
          rootPrefix := after.storage.rootPrefix
          clusterHost := after.storage.clusterHost
          clusterPort := after.storage.clusterPort }
      messaging := { settings.messaging with endpoint := after.messaging.endpoint }
      server := { settings.server with ingestTopic := after.server.ingestTopic } }

/-- The overrides give the settings that are described so, and no others. -/
theorem withOverrides_eq_ok_iff :
    settings.withOverrides environment = .ok after ↔ settings.Overridden environment after := by
  constructor
  · intro applied
    unfold withOverrides at applied
    cases chosen : overridePort environment settings.storage.clusterPort with
    | error problem => simp [chosen, bind, Except.bind] at applied
    | ok port =>
      rw [chosen] at applied
      obtain rfl := Except.ok.inj applied
      exact ⟨follows_optional_iff.mpr rfl, follows_text_iff.mpr rfl, follows_optional_iff.mpr rfl,
        follows_text_iff.mpr rfl, follows_text_iff.mpr rfl, follows_port_iff.mpr chosen, rfl⟩
  · intro overridden
    unfold withOverrides
    rw [follows_port_iff.mp overridden.clusterPort,
      ← follows_optional_iff.mp overridden.rootPrefix,
      ← follows_text_iff.mp overridden.directory, ← follows_optional_iff.mp overridden.endpoint,
      ← follows_text_iff.mp overridden.ingestTopic, ← follows_text_iff.mp overridden.clusterHost]
    exact congrArg Except.ok overridden.others.symm

/-- Only the port can make the overrides fail. -/
theorem withOverrides_eq_error_iff {problem : SettingsError} :
    settings.withOverrides environment = .error problem ↔
      overridePort environment settings.storage.clusterPort = .error problem := by
  unfold withOverrides
  cases overridePort environment settings.storage.clusterPort with
  | error cause => simp [bind, Except.bind]
  | ok port => simp [bind, Except.bind, pure, Except.pure]

/-- Overridden settings follow the same environment once more without a change. -/
theorem Overridden.again (overridden : settings.Overridden environment after) :
    after.Overridden environment after :=
  ⟨overridden.rootPrefix.again, overridden.directory.again, overridden.endpoint.again,
    overridden.ingestTopic.again, overridden.clusterHost.again, overridden.clusterPort.again, rfl⟩

/-- Overrides keep settings valid: what a variable gives is not blank, and a blank text or an empty
directory is all that the checks could refuse in the fields that follow one. -/
theorem Overridden.valid (overridden : settings.Overridden environment after)
    (valid : settings.Valid) : after.Valid where
  stageName := by
    rw [overridden.others]
    exact valid.stageName
  controlCode := by
    rw [overridden.others]
    exact valid.controlCode
  directory := by
    refine overridden.directory.keeps (· ≠ "") (fun value given same => ?_) valid.directory
    intro empty
    rw [← same, empty] at given
    exact absurd given.2 (by decide)
  writeTimeout := by
    rw [overridden.others]
    exact valid.writeTimeout
  clusterHost := by
    refine overridden.clusterHost.keeps (Text.isBlankText · = false) (fun value given same => ?_)
      valid.clusterHost
    rw [same]
    exact given.2
  sendTimeout := by
    rw [overridden.others]
    exact valid.sendTimeout
  connectTimeout := by
    rw [overridden.others]
    exact valid.connectTimeout
  ingestTopic := by
    refine overridden.ingestTopic.keeps (Text.isBlankText · = false) (fun value given same => ?_)
      valid.ingestTopic
    rw [same]
    exact given.2
  maxPayload := by
    rw [overridden.others]
    exact valid.maxPayload

/-- Valid settings pass their second check, so only the overrides themselves can fail. -/
theorem override_eq (valid : settings.Valid) :
    settings.override environment = settings.withOverrides environment := by
  unfold override
  cases applied : settings.withOverrides environment with
  | error problem => rfl
  | ok after =>
    have passes : after.validate = .ok () :=
      validate_eq_ok_iff.mpr ((withOverrides_eq_ok_iff.mp applied).valid valid)
    simp only [bind, Except.bind, passes]
    rfl

/-- Settings that a text spells have passed their checks. -/
theorem validate_of_parse {text : String} (parsed : Settings.parse text = .ok settings) :
    settings.validate = .ok () := by
  unfold Settings.parse at parsed
  split at parsed
  · simp [throw, throwThe, MonadExceptOf.throw] at parsed
  · rename_i given spelled
    cases checked : given.validate with
    | error problem => simp [checked, bind, Except.bind] at parsed
    | ok =>
      obtain rfl : given = settings := by
        simpa [checked, bind, Except.bind, pure, Except.pure] using parsed
      exact checked

/-- An override of settings that a text spells fails exactly when the variable for the port is not
blank and spells no port, and then it names this variable. Otherwise six fields follow their
variables, the others stay as they are, and the same override changes nothing any more. -/
theorem override_follows_environment {text : String}
    (parsed : Settings.parse text = .ok settings) (environment : Environment) :
    (∀ problem, settings.override environment = .error problem ↔
      ∃ value, environment.Gives portVariable value ∧
        (∀ port, ¬ Port.Spells (Text.trim value) port) ∧
        problem = .environment portVariable value "not a port number") ∧
    ((∀ value, environment.Gives portVariable value →
        ∃ port, Port.Spells (Text.trim value) port) →
      ∃ after, settings.override environment = .ok after ∧
        settings.Overridden environment after ∧ after.override environment = .ok after) := by
  have valid := validate_eq_ok_iff.mp (validate_of_parse parsed)
  have fails : ∀ problem, settings.override environment = .error problem ↔ _ := fun problem => by
    rw [override_eq valid, withOverrides_eq_error_iff, overridePort_eq_error_iff]
  refine ⟨fails, fun spelled => ?_⟩
  cases applied : settings.override environment with
  | error problem =>
    obtain ⟨value, given, unspelled, -⟩ := (fails problem).mp applied
    obtain ⟨port, spells⟩ := spelled value given
    exact absurd spells (unspelled port)
  | ok after =>
    rw [override_eq valid] at applied
    have overridden := withOverrides_eq_ok_iff.mp applied
    refine ⟨after, rfl, overridden, ?_⟩
    rw [override_eq (overridden.valid valid)]
    exact withOverrides_eq_ok_iff.mpr overridden.again

/-- A document that gives a port, a host and a root prefix. -/
def deployedText : String :=
  "[stage]\nname = \"enricher\"\n[storage]\nroot_prefix = \"lake\"\ncluster_port = 7000\n"

/-- The settings that it spells. -/
def deployedSettings : Settings :=
  { stage := { name := "enricher" }, storage := { rootPrefix := some "lake", clusterPort := 7000 } }

/-- An environment with a blank root prefix, a topic with blanks around it and the given port. -/
def deployment (port : String) : Environment :=
  fun name => [(rootVariable, "\t "), (topicVariable, " raw "), (portVariable, port)].lookup name

/-- A port is read without the blanks, the plus and the zeros in front of it, and a topic is taken
as it is; a number of more than 16 bits is no port. -/
theorem override_follows_environment_deployed :
    Settings.parse deployedText = .ok deployedSettings ∧
    deployedSettings.override (deployment "65536") =
      .error (.environment portVariable "65536" "not a port number") ∧
    ∃ after, deployedSettings.override (deployment " +07078\n") = .ok after ∧
      after.storage.clusterPort = 7078 ∧ after.storage.rootPrefix = some "lake" ∧
      after.server.ingestTopic = " raw " ∧ after.stage = deployedSettings.stage ∧
      after.override (deployment " +07078\n") = .ok after := by
  have parsed : Settings.parse deployedText = .ok deployedSettings := by decide +kernel
  obtain ⟨fails, -⟩ := override_follows_environment parsed (deployment "65536")
  have unspelled : ∀ port, ¬ Port.Spells (Text.trim "65536") port := by
    intro port spells
    have none : Port.ofText? (Text.trim "65536") = none := by decide
    exact absurd (none.symm.trans (Port.ofText?_eq_some_iff.mpr spells)) (by simp)
  have refused := (fails _).mpr ⟨"65536", ⟨rfl, by decide⟩, unspelled, rfl⟩
  obtain ⟨-, succeeds⟩ := override_follows_environment parsed (deployment " +07078\n")
  have named : Port.ofText? (Text.trim " +07078\n") = some 7078 := by decide
  obtain ⟨after, applied, overridden, again⟩ := succeeds fun value given => by
    obtain rfl : " +07078\n" = value := Option.some.inj given.1
    exact ⟨7078, Port.ofText?_eq_some_iff.mp named⟩
  have port := overridden.clusterPort.1 " +07078\n" ⟨rfl, by decide⟩
  have blank : ∀ value, ¬ (deployment " +07078\n").Gives rootVariable value := by
    intro value given
    obtain rfl : "\t " = value := Option.some.inj given.1
    exact absurd given.2 (by decide)
  refine ⟨parsed, refused, after, applied, ?_, overridden.rootPrefix.2 blank,
    overridden.ingestTopic.1 " raw " ⟨rfl, by decide⟩, ?_, again⟩
  · exact Option.some.inj ((Port.ofText?_eq_some_iff.mpr port).symm.trans named)
  · rw [overridden.others]

end Settings

end EventRelay
