import EventRelay.Message.Configured
import EventRelay.Settings.Basic
import EventRelay.Stage.Basic
import EventRelay.Store.Configured

/-!
# Stages from settings
-/

namespace EventRelay

namespace StorageSettings

/-- The store that the settings choose. -/
def store (storage : StorageSettings) : ConfiguredStore :=
  match storage.kind with
  | .disk => .disk (.ofBase (.ofText storage.path))
  | .memory => .memory .empty

/-- The writer that the settings describe. -/
def writer (storage : StorageSettings) : TableWriter ConfiguredStore :=
  { (TableWriter.ofStore storage.store).withRoot storage.root with
    timeout := storage.writeTimeout
    verify := storage.verifyWrites }

end StorageSettings

namespace MessagingSettings

/-- The producer that the settings describe. There is none over TCP without an endpoint. -/
def producer? (messaging : MessagingSettings) : Option ConfiguredProducer :=
  match messaging.kind with
  | .memory => some (.memory .empty)
  | .tcp =>
    messaging.endpoint?.map fun endpoint =>
      .tcp (.ofEndpoint endpoint messaging.connectTimeout [])

end MessagingSettings

namespace Stage

/-- A stage over a book of rules, with the limits and the counters that stages begin with. -/
def ofParts {Store π : Type} (name controlCode : String) (book : RuleBook)
    (writer : TableWriter Store) (producer : Option π) : Stage Store π :=
  { name
    controlCode
    book
    writer
    producer
    sendTimeout := defaultSendTimeout
    masker := none
    counters := {} }

/-- The stage that masks or does not mask from now on. -/
def withMasking {Store π : Type} (stage : Stage Store π) (enabled : Bool) : Stage Store π :=
  { stage with masker := if enabled then some {} else none }

/-- The stage that settings describe, over a book of rules and a producer. -/
def ofSettings {π : Type} (settings : Settings) (book : RuleBook) (producer : Option π) :
    Stage ConfiguredStore π :=
  let stage := ofParts settings.stage.name settings.routing.controlCode book
    settings.storage.writer producer
  { stage with sendTimeout := settings.messaging.sendTimeout }.withMasking
    settings.stage.maskPersonal

end Stage

end EventRelay
