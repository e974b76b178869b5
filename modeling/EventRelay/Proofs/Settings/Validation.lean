import EventRelay.Proofs.Chain.Reading
import EventRelay.Settings.Validation
import Mathlib

/-!
# Valid settings

The checks of settings run one after the other, and settings pass when every section does.
`validate_eq_ok_iff` says what the checks ask for all together, so later modules reason about fields
and not about the order of checks.

The name of a stage is checked on its own terms: it is to have no comma and no blank at its ends.
These are the names that chains can have, so a stage that is configured can be reached.
-/

namespace EventRelay.Settings

/-! ## What the checks ask for -/

/-- Settings that pass all checks, field by field. -/
structure Valid (settings : Settings) : Prop where
  stageName : Chain.IsStageName settings.stage.name
  controlCode : Text.isBlankText settings.routing.controlCode = false
  directory : settings.routing.directory ≠ ""
  writeTimeout : settings.storage.writeTimeout.nanoseconds ≠ 0
  clusterHost : Text.isBlankText settings.storage.clusterHost = false
  sendTimeout : settings.messaging.sendTimeout.nanoseconds ≠ 0
  connectTimeout : settings.messaging.connectTimeout.nanoseconds ≠ 0
  ingestTopic : Text.isBlankText settings.server.ingestTopic = false
  maxPayload : settings.server.maxPayload ≠ 0

/-- Two checks in a row pass when both of them pass. -/
@[simp] theorem andThen_eq_ok_iff {first : Except SettingsError Unit}
    {second : Unit → Except SettingsError Unit} :
    first >>= second = .ok () ↔ first = .ok () ∧ second () = .ok () := by
  cases first with
  | error problem => simp [bind, Except.bind]
  | ok => simp [bind, Except.bind]

/-- A check that refuses on a condition passes where the condition fails. -/
theorem refuse_eq_ok_iff {condition : Prop} [Decidable condition] {problem : SettingsError} :
    (if condition then .error problem else .ok () : Except SettingsError Unit) = .ok () ↔
      ¬ condition := by
  by_cases holds : condition
  · simp [holds]
  · simp [holds]

@[simp] theorem requireText_eq_ok_iff {group field value : String} :
    requireText group field value = .ok () ↔ Text.isBlankText value = false := by
  rw [requireText, refuse_eq_ok_iff, Bool.not_eq_true]

@[simp] theorem requirePositive_eq_ok_iff {group field : String} {value : Nat} :
    requirePositive group field value = .ok () ↔ value ≠ 0 := by
  rw [requirePositive, refuse_eq_ok_iff]

/-- The name of a stage passes when a stage of a chain can have it. -/
@[simp] theorem checkStage_eq_ok_iff {stage : StageSettings} :
    checkStage stage = .ok () ↔ Chain.IsStageName stage.name := by
  have steps : checkStage stage = .ok () ↔ requireText "stage" "name" stage.name = .ok () ∧
      ¬ (',' ∈ stage.name.toList ∨ Text.trim stage.name ≠ stage.name) := by
    rw [← refuse_eq_ok_iff]
    exact andThen_eq_ok_iff
  rw [steps, requireText_eq_ok_iff, not_or, not_ne_iff]
  constructor
  · rintro ⟨filled, clean, trimmed⟩
    exact ⟨filled, trimmed, clean⟩
  · rintro ⟨filled, trimmed, clean⟩
    exact ⟨filled, clean, trimmed⟩

@[simp] theorem checkRouting_eq_ok_iff {routing : RoutingSettings} :
    checkRouting routing = .ok () ↔
      Text.isBlankText routing.controlCode = false ∧ routing.directory ≠ "" := by
  have steps : checkRouting routing = .ok () ↔
      requireText "routing" "control_code" routing.controlCode = .ok () ∧
        ¬ routing.directory.isEmpty = true := by
    rw [← refuse_eq_ok_iff]
    exact andThen_eq_ok_iff
  rw [steps, requireText_eq_ok_iff, String.isEmpty_iff]

/-- Settings pass their checks when they are valid field by field. -/
theorem validate_eq_ok_iff {settings : Settings} : settings.validate = .ok () ↔ settings.Valid := by
  simp only [validate, checkStorage, checkMessaging, checkServer, andThen_eq_ok_iff,
    checkStage_eq_ok_iff, checkRouting_eq_ok_iff, requireText_eq_ok_iff, requirePositive_eq_ok_iff]
  constructor
  · rintro ⟨stageName, ⟨controlCode, directory⟩, ⟨writeTimeout, clusterHost⟩,
      ⟨sendTimeout, connectTimeout⟩, ingestTopic, maxPayload⟩
    exact ⟨stageName, controlCode, directory, writeTimeout, clusterHost, sendTimeout,
      connectTimeout, ingestTopic, maxPayload⟩
  · intro valid
    exact ⟨valid.stageName, ⟨valid.controlCode, valid.directory⟩,
      ⟨valid.writeTimeout, valid.clusterHost⟩, ⟨valid.sendTimeout, valid.connectTimeout⟩,
      valid.ingestTopic, valid.maxPayload⟩

/-! ## Names of stages -/

/-- The settings with another name for the stage. -/
def withStageName (settings : Settings) (name : String) : Settings :=
  { settings with stage := { settings.stage with name } }

/-- In settings that are valid but for the name of the stage, a name is accepted exactly when it
stands in a chain that is read from some text. An accepted name is read as the chain of this stage
alone, and so there is a chain in which the stage is not missing. -/
theorem stageName_accepted_iff {settings : Settings}
    (others : ∃ usual, (settings.withStageName usual).validate = .ok ()) (name : String) :
    ((settings.withStageName name).validate = .ok () ↔
      ∃ text chain, Chain.parse text = .ok chain ∧ chain.contains name = true) ∧
    ((settings.withStageName name).validate = .ok () →
      Chain.parse name = .ok ⟨[name]⟩ ∧
        ∃ text chain, Chain.parse text = .ok chain ∧ chain.successor name ≠ .missing) := by
  obtain ⟨usual, passed⟩ := others
  have valid := validate_eq_ok_iff.mp passed
  have accepted : (settings.withStageName name).validate = .ok () ↔ Chain.IsStageName name := by
    rw [validate_eq_ok_iff]
    exact ⟨Valid.stageName, fun usable => { valid with stageName := usable }⟩
  refine ⟨accepted.trans Chain.isStageName_iff, fun passes => ?_⟩
  have alone := (accepted.mp passes).parse_eq
  refine ⟨alone, name, _, alone, ?_⟩
  simp [Chain.successor, Chain.successorIn]

/-- A name with a blank inside and a letter outside ASCII is accepted: it can stand in a chain. -/
theorem stageName_accepted_iff_silver :
    (∃ usual, (({} : Settings).withStageName usual).validate = .ok ()) ∧
    (({} : Settings).withStageName "silver \u00e9tape").validate = .ok () ∧
    Chain.parse "silver \u00e9tape" = .ok ⟨["silver \u00e9tape"]⟩ := by
  have others : ∃ usual, (({} : Settings).withStageName usual).validate = .ok () :=
    ⟨"deltawriter", rfl⟩
  obtain ⟨accepted, named⟩ := stageName_accepted_iff others "silver \u00e9tape"
  have passes := accepted.mpr
    ⟨"bronze, silver \u00e9tape", ⟨["bronze", "silver \u00e9tape"]⟩, by decide, by decide⟩
  exact ⟨others, passes, (named passes).1⟩

end EventRelay.Settings
