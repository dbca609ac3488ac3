import KokkosUtils.Timer.DeviceTimer

/-! The protocol of the events of a device's runtime, about histories of calls alone. An event is
used after it was created and until it is destroyed, and the time between two events may be asked
for once both were recorded and waited for.
-/

namespace KokkosUtils.Timers

open KokkosUtils.Foundations

variable {ρ ε κ μ : Type}

/-- A record of an event: how many records were made before it, and the stream. -/
structure Record (κ : Type) where
  number : ℕ
  stream : κ
  deriving DecidableEq, Repr

/-- What has been done with an event: it was created, its last record was made, and that record was
waited for.
-/
inductive EventStatus (κ : Type)
  | created
  | pending (record : Record κ)
  | awaited (record : Record κ)
  deriving DecidableEq, Repr

namespace EventStatus

/-- The last record was waited for. -/
def await : EventStatus κ → EventStatus κ
  | .pending record => .awaited record
  | status => status

/-- The last record. -/
def record? : EventStatus κ → Option (Record κ)
  | .created => none
  | .pending record => some record
  | .awaited record => some record

end EventStatus

/-- What a history of calls tells: how many records were made, and what was done with the events
that were created and not destroyed.
-/
structure Ledger (ε κ : Type) where
  records : ℕ := 0
  events : ε → Option (EventStatus κ) := fun _ => none

/-- A time that the runtime returned, and the records between which it lies. -/
structure Measurement (κ μ : Type) where
  start : Record κ
  stop : Record κ
  milliseconds : μ
  deriving DecidableEq, Repr

variable [DecidableEq ε]

namespace Ledger

/-- Something was done with an event, or it was destroyed. -/
def set (ledger : Ledger ε κ) (event : ε) (status : Option (EventStatus κ)) : Ledger ε κ :=
  { ledger with events := Function.update ledger.events event status }

/-- An event was recorded. -/
def record (ledger : Ledger ε κ) (event : ε) (stream : κ) : Ledger ε κ :=
  {
    records := ledger.records + 1
    events :=
      Function.update ledger.events event
        (some (.pending { number := ledger.records, stream := stream }))
  }

/-- Enters a call, unless it violates the protocol, and reports what it measured. -/
def enter (ledger : Ledger ε κ)
    : RuntimeCall ε κ μ → Option (Ledger ε κ × List (Measurement κ μ))
  | .created event =>
      if (ledger.events event).isSome then none else some (ledger.set event (some .created), [])
  | .recorded pointer stream =>
      pointer.bind fun event =>
        (ledger.events event).map fun _ => (ledger.record event stream, [])
  | .synchronized pointer =>
      pointer.bind fun event =>
        (ledger.events event).map fun status => (ledger.set event (some status.await), [])
  | .measured start stop milliseconds =>
      match start.bind ledger.events, stop.bind ledger.events with
      | some (.awaited started), some (.awaited stopped) =>
          some (ledger, [{ start := started, stop := stopped, milliseconds := milliseconds }])
      | _, _ => none
  | .destroyed event => (ledger.events event).map fun _ => (ledger.set event none, [])

/-- The last record of an event. -/
def lastRecord (ledger : Ledger ε κ) (event : ε) : Option (Record κ) :=
  (ledger.events event).bind EventStatus.record?

end Ledger

/-- What a history tells, if it follows the protocol. -/
def replay : List (RuntimeCall ε κ μ) → Option (Ledger ε κ × List (Measurement κ μ)) :=
  fun calls => runSteps (fun call ledger => ledger.enter call) calls {}

/-- One more call follows the protocol if it can be entered. -/
theorem replay_concat {calls : List (RuntimeCall ε κ μ)} {call : RuntimeCall ε κ μ}
    {ledger next : Ledger ε κ} {measurements shown : List (Measurement κ μ)}
    (replayed : replay calls = some (ledger, measurements))
    (entered : ledger.enter call = some (next, shown))
    : replay (calls ++ [call]) = some (next, measurements ++ shown) :=
  runSteps_concat replayed entered

section

variable {ledger : Ledger ε κ}

/-- Without an event, the other ones are left. -/
theorem Ledger.isSome_set_none (event other : ε)
    : ((ledger.set event none).events other).isSome
      ↔ other ≠ event ∧ (ledger.events other).isSome := by
  by_cases same : other = event <;> simp [Ledger.set, same]

/-- With an event, the other ones are there as well. -/
theorem Ledger.isSome_set_some (event : ε) (status : EventStatus κ) (other : ε)
    : ((ledger.set event (some status)).events other).isSome
      ↔ other = event ∨ (ledger.events other).isSome := by
  by_cases same : other = event <;> simp [Ledger.set, same]

/-- A recorded event is one of them. -/
theorem Ledger.isSome_record (event : ε) (stream : κ) (other : ε)
    : ((ledger.record event stream).events other).isSome
      ↔ other = event ∨ (ledger.events other).isSome := by
  by_cases same : other = event <;> simp [Ledger.record, same]

/-- No event becomes one that was only created, unless one is created. -/
theorem Ledger.set_ne_created {status : Option (EventStatus κ)}
    (recorded : ∀ other, ledger.events other ≠ some .created) (differs : status ≠ some .created)
    (event other : ε)
    : (ledger.set event status).events other ≠ some .created := by
  by_cases same : other = event
  · simpa [Ledger.set, same] using differs
  · simpa [Ledger.set, same] using recorded other

/-- What was recorded last is not known any more of a destroyed event. -/
theorem Ledger.lastRecord_of_set_none {event other : ε} {record : Record κ}
    (known : (ledger.set event none).lastRecord other = some record)
    : ledger.lastRecord other = some record := by
  rw [Ledger.lastRecord, Ledger.set] at known
  by_cases same : other = event
  · simp [same] at known
  · simpa [Ledger.lastRecord, same] using known

/-- Waiting for an event leaves its last record. -/
theorem Ledger.lastRecord_await {event : ε} {status : EventStatus κ}
    (known : ledger.events event = some status)
    : (ledger.set event (some status.await)).lastRecord = ledger.lastRecord := by
  funext other
  by_cases same : other = event
  · cases status <;> simp [Ledger.lastRecord, Ledger.set, same, known, EventStatus.await,
      EventStatus.record?]
  · simp [Ledger.lastRecord, Ledger.set, same]

end

end KokkosUtils.Timers
