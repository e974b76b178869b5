/-!
# Counters

A sink counts the records that it is handed and what becomes of them. A record that misses its
deadline counts as a failure as well.
-/

namespace EventRelay

/-- What has become of the records handed to a sink. -/
structure SinkCounters where
  received : Nat := 0
  written : Nat := 0
  bytes : Nat := 0
  errors : Nat := 0
  timeouts : Nat := 0
  deriving DecidableEq, Repr

namespace SinkCounters

/-- Counts a record that is handed over. -/
def receive (counters : SinkCounters) : SinkCounters :=
  { counters with received := counters.received + 1 }

/-- Counts a record that has been written. -/
def succeed (counters : SinkCounters) (size : Nat) : SinkCounters :=
  { counters with written := counters.written + 1, bytes := counters.bytes + size }

/-- Counts a record that has not been written. -/
def fail (counters : SinkCounters) : SinkCounters :=
  { counters with errors := counters.errors + 1 }

/-- Counts a record that has missed its deadline. -/
def expire (counters : SinkCounters) : SinkCounters :=
  { counters with errors := counters.errors + 1, timeouts := counters.timeouts + 1 }

end SinkCounters

end EventRelay
