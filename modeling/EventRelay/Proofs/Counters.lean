import EventRelay.Message.Memory
import EventRelay.Message.Tcp
import EventRelay.Proofs.Store.Writer

/-!
# Sinks account for every record

A record that is handed to a sink is written, is late or fails in another way. Writers and producers
get there by different ways, a late store or a message without a frame among them, but each of them
counts a record once and as it has ended. So in a run of any length the counters are those of the
records that have been handed over.
-/

namespace EventRelay

open Text (Bytes)

/-- What is seen of a record that is handed to a sink: its size, whether the sink answers that it
has been written, and whether it has missed its deadline. -/
structure Handover where
  size : Nat
  written : Bool
  late : Bool
  deriving DecidableEq

/-! ## Counters -/

namespace SinkCounters

variable {counters before middle after : SinkCounters} {seen : List Handover}

/-- The counters after one more record. -/
def count (counters : SinkCounters) (record : Handover) : SinkCounters :=
  if record.written then counters.receive.succeed record.size
  else if record.late then counters.receive.expire
  else counters.receive.fail

/-- The counters are those of the records that have been seen. -/
structure Accounts (counters : SinkCounters) (seen : List Handover) : Prop where
  received : counters.received = seen.length
  balanced : counters.received = counters.written + counters.errors
  written : counters.written = seen.countP Handover.written
  bytes : counters.bytes = ((seen.filter Handover.written).map Handover.size).sum
  timeouts : counters.timeouts = seen.countP Handover.late
  failed : counters.timeouts ≤ counters.errors

/-- No counter is larger before than after. -/
structure AtMost (before after : SinkCounters) : Prop where
  received : before.received ≤ after.received
  written : before.written ≤ after.written
  bytes : before.bytes ≤ after.bytes
  errors : before.errors ≤ after.errors
  timeouts : before.timeouts ≤ after.timeouts

theorem accounts_nil : ({} : SinkCounters).Accounts [] :=
  ⟨rfl, rfl, rfl, rfl, rfl, le_rfl⟩

/-- One more record is accounted for, since none is both written and late. -/
theorem Accounts.count (accounts : counters.Accounts seen) {record : Handover}
    (unwritten : record.late = true → record.written = false) :
    (counters.count record).Accounts (seen ++ [record]) := by
  obtain ⟨received, balanced, written, bytes, timeouts, failed⟩ := accounts
  obtain ⟨size, ended, late⟩ := record
  rw [SinkCounters.count]
  cases ended with
  | true =>
    have prompt : late = false := by simpa using mt unwritten
    refine ⟨?_, ?_, ?_, ?_, ?_, ?_⟩ <;> simp [receive, succeed, prompt] <;> omega
  | false =>
    cases late <;> refine ⟨?_, ?_, ?_, ?_, ?_, ?_⟩ <;> simp [receive, fail, expire] <;> omega

theorem AtMost.refl (counters : SinkCounters) : counters.AtMost counters :=
  ⟨le_rfl, le_rfl, le_rfl, le_rfl, le_rfl⟩

theorem AtMost.trans (first : before.AtMost middle) (second : middle.AtMost after) :
    before.AtMost after :=
  ⟨first.received.trans second.received, first.written.trans second.written,
    first.bytes.trans second.bytes, first.errors.trans second.errors,
    first.timeouts.trans second.timeouts⟩

/-- Counting a record makes no counter smaller. -/
theorem atMost_count (counters : SinkCounters) (record : Handover) :
    counters.AtMost (counters.count record) := by
  rw [count]
  split
  · constructor <;> simp [receive, succeed]
  · split <;> constructor <;> simp [receive, fail, expire]

end SinkCounters

/-! ## Runs -/

section Runs

variable {Sink Call : Type} {hand : Sink → Call → Handover × Sink}
  {counters : Sink → SinkCounters}

/-- Hands records to a sink, one after the other. -/
def handAll (hand : Sink → Call → Handover × Sink) : Sink → List Call → List Handover × Sink
  | sink, [] => ([], sink)
  | sink, call :: later =>
    ((hand sink call).1 :: (handAll hand (hand sink call).2 later).1,
      (handAll hand (hand sink call).2 later).2)

theorem handAll_append (sink : Sink) (calls later : List Call) :
    (handAll hand sink (calls ++ later)).2 =
      (handAll hand (handAll hand sink calls).2 later).2 := by
  induction calls generalizing sink with
  | nil => rfl
  | cons call others inductionHypothesis => exact inductionHypothesis _

/-- A sink counts every record as it is seen, and calls no late one written. -/
def Counts (hand : Sink → Call → Handover × Sink) (counters : Sink → SinkCounters) : Prop :=
  ∀ sink call, counters (hand sink call).2 = (counters sink).count (hand sink call).1 ∧
    ((hand sink call).1.late = true → (hand sink call).1.written = false)

/-- The counters of a sink go on accounting for records, whatever has been seen before. -/
theorem Counts.accounts_handAll (counts : Counts hand counters) {sink : Sink}
    {seen : List Handover} (accounts : (counters sink).Accounts seen) (calls : List Call) :
    (counters (handAll hand sink calls).2).Accounts (seen ++ (handAll hand sink calls).1) := by
  induction calls generalizing sink seen with
  | nil => simpa [handAll] using accounts
  | cons call later inductionHypothesis =>
    obtain ⟨count, unwritten⟩ := counts sink call
    have counted := accounts.count unwritten
    rw [← count] at counted
    simpa [handAll] using inductionHypothesis counted

/-- No counter of a sink ever becomes smaller. -/
theorem Counts.atMost_handAll (counts : Counts hand counters) (sink : Sink) (calls : List Call) :
    (counters sink).AtMost (counters (handAll hand sink calls).2) := by
  induction calls generalizing sink with
  | nil => exact .refl _
  | cons call later inductionHypothesis =>
    have counted := (counters sink).atMost_count (hand sink call).1
    rw [← (counts sink call).1] at counted
    exact counted.trans (inductionHypothesis _)

/-- In every run from a sink on, its counters account for the records of the run so far, and none of
them becomes smaller later. -/
structure AccountsInRuns (hand : Sink → Call → Handover × Sink) (counters : Sink → SinkCounters)
    (sink : Sink) : Prop where
  accounts : ∀ calls, (counters (handAll hand sink calls).2).Accounts (handAll hand sink calls).1
  atMost : ∀ calls later, (counters (handAll hand sink calls).2).AtMost
    (counters (handAll hand sink (calls ++ later)).2)

/-- A sink that counts every record accounts for them from the time when it has counted nothing. -/
theorem Counts.accountsInRuns (counts : Counts hand counters) {sink : Sink}
    (uncounted : counters sink = {}) : AccountsInRuns hand counters sink where
  accounts calls :=
    counts.accounts_handAll (by rw [uncounted]; exact SinkCounters.accounts_nil) calls
  atMost calls later := by
    rw [handAll_append]
    exact counts.atMost_handAll _ later

end Runs

/-! ## Writers -/

namespace TableWriter

variable {Store : Type} [TableStore Store]

/-- An append that is to be made, with what the store and the files have become by then. -/
structure Call (Store : Type) where
  store : Store
  files : FileTree
  destination : Destination
  payload : Bytes

/-- The writer when an append is to be made. -/
def atCall (writer : TableWriter Store) (call : Call Store) : TableWriter Store :=
  { writer with store := call.store }

/-- Makes an append. It is late where the operation of the store is overdue. -/
def hand (writer : TableWriter Store) (call : Call Store) : Handover × TableWriter Store :=
  let answer := (writer.atCall call).append call.files call.destination call.payload
  let attempt := (writer.atCall call).attempt call.files call.destination call.payload
  (⟨call.payload.length, answer.1.isOk, attempt.outcome.isOverdue⟩, answer.2.1)

/-- A writer counts a record as written where it answers with a receipt, and as late where the
operation is overdue. -/
theorem counts_hand : Counts (@hand Store _) TableWriter.counters := by
  intro writer call
  unfold hand
  extract_lets answer attempt
  cases ends : attempt.outcome with
  | overdue =>
    have answered : answer = _ := append_of_overdue ends
    rw [answered]
    exact ⟨rfl, fun _ => rfl⟩
  | finished left outcome =>
    cases outcome with
    | error problem =>
      have answered : answer = _ := append_of_error ends
      rw [answered]
      exact ⟨rfl, fun _ => rfl⟩
    | ok receipt =>
      have answered : answer = _ := append_of_ok ends
      rw [answered, bytes_of_attempt ends]
      exact ⟨rfl, nofun⟩

end TableWriter

/-! ## Producers -/

/-- A message that is to be sent within a time limit, with what decides by then how that will go. -/
structure SendCall (Condition : Type) where
  condition : Condition
  message : SentMessage
  limit : Duration

namespace MemoryProducer

/-- The producer when a message is to be sent: it is failing or it is not. -/
def atCall (producer : MemoryProducer) (call : SendCall Bool) : MemoryProducer :=
  { producer with failing := call.condition }

/-- Sends a message. Nothing is late, since nothing is waited for. -/
def hand (producer : MemoryProducer) (call : SendCall Bool) : Handover × MemoryProducer :=
  let answer := Producer.send (producer.atCall call) call.message.topic call.message.key
    call.message.value call.limit
  (⟨call.message.value.length, answer.1.isOk, false⟩, answer.2)

/-- A producer in memory counts a message as written where it keeps it. -/
theorem counts_hand : Counts hand MemoryProducer.counters := by
  rintro producer ⟨failing, message, limit⟩
  cases failing <;> exact ⟨rfl, nofun⟩

end MemoryProducer

namespace TcpProducer

/-- The producer when a message is to be sent, with how its next connections will go. -/
def atCall (producer : TcpProducer) (call : SendCall (List Connection)) : TcpProducer :=
  { producer with network := call.condition }

/-- Whether a connection lasts until the time limit of a send: nobody answers, or nobody opens it
and it is not given up before. -/
def lasts (producer : TcpProducer) (limit : Duration) : Connection → Bool
  | .silent => true
  | .stalled => !limit.exceeds producer.connectTimeout
  | _ => false

/-- Sends a message. It is late where it has a frame and the connection for it lasts too long. -/
def hand (producer : TcpProducer) (call : SendCall (List Connection)) : Handover × TcpProducer :=
  let ready := producer.atCall call
  let answer := Producer.send ready call.message.topic call.message.key call.message.value
    call.limit
  (⟨call.message.value.length, answer.1.isOk,
    (Frame.encode call.message.topic call.message.key call.message.value).isOk &&
      ready.lasts call.limit ready.upcoming⟩, answer.2)

/-- The counters of a send over a connection. -/
theorem settle_exchange (producer : TcpProducer) (topic : String) (limit : Duration)
    (connection : Connection) (counters : SinkCounters) (size : Nat) :
    counters.receive.settle size (producer.exchange topic limit connection) =
        counters.count ⟨size, (producer.exchange topic limit connection).isOk,
          producer.lasts limit connection⟩ ∧
      (producer.lasts limit connection = true →
        (producer.exchange topic limit connection).isOk = false) := by
  cases connection with
  | refused cause | failed cause | silent => exact ⟨rfl, fun _ => rfl⟩
  | stalled =>
    rw [exchange, lasts]
    cases limit.exceeds producer.connectTimeout <;> exact ⟨rfl, fun _ => rfl⟩
  | answered code =>
    rw [exchange]
    split <;> exact ⟨rfl, nofun⟩

/-- A producer over TCP counts a message as written where the broker accepts it, and as late where
the connection lasts too long. A message without a frame is a failure. -/
theorem counts_hand : Counts hand TcpProducer.counters := by
  intro producer call
  unfold hand
  extract_lets ready answer
  have sent : answer = ready.send call.message.topic call.message.key call.message.value
    call.limit := rfl
  rw [sent, send]
  cases Frame.encode call.message.topic call.message.key call.message.value with
  | error problem => exact ⟨rfl, nofun⟩
  | ok frame => exact ready.settle_exchange _ call.limit ready.upcoming producer.counters _

end TcpProducer

/-- In every run from counters without counts on, a writer over any store and a producer of either
kind have received as many records as they have been handed, and have written or failed with each of
them. They have written those whose callers were answered so, with their bytes, and the late ones
are those that missed their deadline. No counter ever becomes smaller. -/
theorem sinks_account_for_records :
    (∀ (Store : Type) [TableStore Store] (writer : TableWriter Store),
      AccountsInRuns TableWriter.hand TableWriter.counters { writer with counters := {} }) ∧
    (∀ producer : MemoryProducer,
      AccountsInRuns MemoryProducer.hand MemoryProducer.counters
        { producer with counters := {} }) ∧
    ∀ producer : TcpProducer,
      AccountsInRuns TcpProducer.hand TcpProducer.counters { producer with counters := {} } := by
  refine ⟨fun Store _ writer => ?_, fun producer => ?_, fun producer => ?_⟩
  · exact TableWriter.counts_hand.accountsInRuns rfl
  · exact MemoryProducer.counts_hand.accountsInRuns rfl
  · exact TcpProducer.counts_hand.accountsInRuns rfl

/-- One message is accepted, one is late and one is refused. -/
example :
    let call (connection : Connection) : SendCall (List Connection) :=
      ⟨[connection], ⟨"silver-ingress", "message", [1, 2]⟩, .ofSeconds 1⟩
    (handAll TcpProducer.hand (.ofEndpoint "broker:9092" (.ofSeconds 5) [])
      [call (.answered 0), call .silent, call (.refused "no route")]).2.counters =
        { received := 3, written := 1, bytes := 2, errors := 2, timeouts := 1 } := by
  decide

end EventRelay
