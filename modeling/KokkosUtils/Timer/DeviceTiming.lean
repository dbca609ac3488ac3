import KokkosUtils.Timer.DeviceOwnership

/-! What timers of devices measure. The timers of the host, which hold the records themselves and
need no runtime, tell between which records a duration of a device's timer lies.
-/

namespace KokkosUtils.Timers

open KokkosUtils.Foundations

variable {ρ ε κ μ δ : Type}

/-- The time between two records is told by the records. -/
instance : HSub (Record κ) (Record κ) (Record κ × Record κ) := ⟨fun stop start => (start, stop)⟩

/-- The record that a member holds. -/
def Timer.recorded (timer : Timer (Record κ)) : Member → Option (Record κ)
  | .tick => timer.tick.map Event.event
  | .tock => timer.tock.map Event.event

/-- The timers of the host, and how many records have been made. -/
structure HostWorld (κ : Type) where
  records : ℕ := 0
  timers : Object → Option (Timer (Record κ)) := fun _ => none

/-- Constructs, replaces or destroys a timer. -/
def HostWorld.setTimer (host : HostWorld κ) (object : Object) (timer : Option (Timer (Record κ)))
    : HostWorld κ :=
  { host with timers := Function.update host.timers object timer }

/-- A timer of the host makes a record. -/
def HostWorld.record (host : HostWorld κ) (object : Object) (stream : κ)
    (change : Record κ → Timer (Record κ) → Timer (Record κ))
    : HostWorld κ :=
  let record := { number := host.records, stream := stream }
  { host.setTimer object ((host.timers object).map (change record)) with
    records := host.records + 1 }

/-- What the operations do with the timers of the host, whose moves are copies, and between which
records the durations lie.
-/
def hostStep : TimerOperation ρ κ → HostWorld κ → HostWorld κ × List (Record κ × Record κ)
  | .construct object, host => (host.setTimer object (some {}), [])
  | .moveConstruct target source, host => (host.setTimer target (host.timers source), [])
  | .moveAssign target source, host => (host.setTimer target (host.timers source), [])
  | .destroy object, host => (host.setTimer object none, [])
  | .start object stream, host => (host.record object stream Timer.start, [])
  | .stop object stream, host => (host.record object stream Timer.stop, [])
  | .duration object, host => (host, ((host.timers object).bind Timer.duration).toList)
  | .others _, host => (host, [])

/-- The record that a member of a timer holds. -/
def HostWorld.recordedAt (host : HostWorld κ) (object : Object) (member : Member)
    : Option (Record κ) :=
  (host.timers object).bind fun timer => timer.recorded member

section

variable {host : HostWorld κ} {object other : Object} {timer : Option (Timer (Record κ))}

theorem HostWorld.setTimer_self : (host.setTimer object timer).timers object = timer :=
  Function.update_self ..

theorem HostWorld.setTimer_of_ne (differs : other ≠ object)
    : (host.setTimer object timer).timers other = host.timers other :=
  Function.update_of_ne differs ..

end

/-- The records between which a measurement lies. -/
def Measurement.between (measurement : Measurement κ μ) : Record κ × Record κ :=
  (measurement.start, measurement.stop)

variable [DecidableEq ε] {runtime : DeviceRuntime ρ ε κ μ} {inUse : ρ → ε → Prop}
  {durationCast : μ → δ}

/-- The same timers are alive, and what a device's timer owns was recorded last as the host's timer
says.
-/
structure Agrees (inUse : ρ → ε → Prop) (world : DeviceWorld ρ ε κ μ) (host : HostWorld κ)
    : Prop where
  managed : world.Managed inUse
  counted : host.records = world.ledger.records
  alive : ∀ object, (host.timers object).isSome = (world.timers object).isSome
  recorded
    : ∀ {object member event},
        world.owned (object, member) = some event
        → host.recordedAt object member = world.ledger.lastRecord event

/-- A timer that holds two records has a duration. -/
theorem duration_of_recorded {host : HostWorld κ} {object : Object} {start stop : Record κ}
    (tick : host.recordedAt object .tick = some start)
    (tock : host.recordedAt object .tock = some stop)
    : (host.timers object).bind Timer.duration = some (start, stop) := by
  obtain ⟨timer, known, started⟩ := Option.bind_eq_some_iff.mp tick
  rw [HostWorld.recordedAt, known, Option.bind_some] at tock
  obtain ⟨⟨_⟩, tickHolds, rfl⟩ := Option.map_eq_some_iff.mp started
  obtain ⟨⟨_⟩, tockHolds, rfl⟩ := Option.map_eq_some_iff.mp tock
  rw [known, Option.bind_some, Timer.duration, tickHolds, tockHolds]
  rfl

/-- What an owned event was recorded last as. -/
theorem DeviceWorld.Managed.exists_lastRecord {world : DeviceWorld ρ ε κ μ}
    (managed : world.Managed inUse) {place : Object × Member} {event : ε}
    (owns : world.owned place = some event)
    : ∃ record, world.ledger.lastRecord event = some record := by
  obtain ⟨status, known⟩ :=
    Option.isSome_iff_exists.mp ((managed.owners.inUse_iff event).mpr ⟨place, owns⟩)
  rw [Ledger.lastRecord, known, Option.bind_some]
  cases status with
  | created => exact (managed.recorded event known).elim
  | pending record => exact ⟨record, rfl⟩
  | awaited record => exact ⟨record, rfl⟩

namespace Agrees

variable {world next : DeviceWorld ρ ε κ μ} {host later : HostWorld κ} {object : Object}

/-- Where an operation records nothing, the host's timers have to come from the same place as those
of the device.
-/
theorem passes (agrees : Agrees inUse world host) {alive : Object → Bool}
    {origin : Object → Object} (passed : world.Passes inUse next alive origin)
    (counted : later.records = host.records)
    (present : ∀ object, (later.timers object).isSome = alive object)
    (moved
      : ∀ {object member event},
          next.owned (object, member) = some event
          → later.recordedAt object member = host.recordedAt (origin object) member)
    : Agrees inUse next later where
  managed := passed.managed
  counted := by rw [counted, agrees.counted, passed.counted]
  alive := fun object => (present object).trans (passed.alive object).symm
  recorded := by
    intro object member event owns
    obtain ⟨record, last⟩ := passed.managed.exists_lastRecord owns
    rw [moved owns, agrees.recorded (passed.owned owns), passed.earlier last, last]

/-- What is recorded is read from the timer that recorded it, and the other ones do not notice. -/
theorem record (agrees : Agrees inUse world host) {member : Member} {event : ε} {stream : κ}
    {change : Record κ → Timer (Record κ) → Timer (Record κ)}
    (records : world.Records inUse next object member event stream)
    (present : (world.timers object).isSome)
    (changed
      : ∀ record timer other,
          (change record timer).recorded other
          = if other = member then some record else timer.recorded other)
    : Agrees inUse next (host.record object stream change) where
  managed := records.managed
  counted := by rw [records.counted, ← agrees.counted]; rfl
  alive := by
    intro other
    rw [records.alive, ← agrees.alive]
    change ((host.setTimer object _).timers other).isSome = _
    by_cases same : other = object
    · rw [same, HostWorld.setTimer_self, Option.isSome_map]
    · rw [HostWorld.setTimer_of_ne same]
  recorded := by
    intro other another found owns
    obtain ⟨timer, known⟩ := Option.isSome_iff_exists.mp ((agrees.alive object).trans present)
    have before : next.owned (object, member) = some event := by
      rw [records.owned, Function.update_self]
    by_cases same : (other, another) = (object, member)
    · obtain ⟨rfl, rfl⟩ := Prod.mk.inj same
      obtain rfl := Option.some.inj (before.symm.trans owns)
      rw [HostWorld.recordedAt, HostWorld.record, HostWorld.setTimer_self, known, Option.map_some,
        Option.bind_some, changed, if_pos rfl, records.last, agrees.counted]
    · have apart : found ≠ event := by
        rintro rfl
        exact same (records.managed.owners.single owns before)
      rw [records.owned, Function.update_of_ne same] at owns
      rw [records.others found apart, ← agrees.recorded owns, HostWorld.recordedAt,
        HostWorld.recordedAt, HostWorld.record]
      by_cases there : other = object
      · subst there
        have differs : another ≠ member := fun equal => same (by rw [equal])
        rw [HostWorld.setTimer_self, known, Option.map_some, Option.bind_some, Option.bind_some,
          changed, if_neg differs]
      · rw [HostWorld.setTimer_of_ne there]

/-- A timer that was moved has the records of the timer that it was moved from. -/
theorem move (agrees : Agrees inUse world host) {target source : Object}
    (sourceAlive : (world.timers source).isSome)
    (passed
      : world.Passes inUse next (fun other => other == target || (world.timers other).isSome)
          (DeviceWorld.origin target source))
    : Agrees inUse next
        (host.setTimer target (host.timers source)) := by
  refine agrees.passes passed rfl (fun other => ?_) (fun {other member _} _ => ?_)
  · by_cases there : other = target
    · rw [there, HostWorld.setTimer_self, agrees.alive, sourceAlive, beq_self_eq_true, Bool.true_or]
    · rw [HostWorld.setTimer_of_ne there, agrees.alive, beq_false_of_ne there, Bool.false_or]
  · unfold HostWorld.recordedAt DeviceWorld.origin
    by_cases there : other = target
    · rw [there, HostWorld.setTimer_self, if_pos rfl]
    · rw [HostWorld.setTimer_of_ne there, if_neg there]

/-- A new timer agrees with a new timer. -/
theorem construct (agrees : Agrees inUse world host) (free : world.timers object = none)
    (passed
      : world.Passes inUse next (fun other => other == object || (world.timers other).isSome) id)
    : Agrees inUse next
        (host.setTimer object (some {})) := by
  refine agrees.passes passed rfl (fun other => ?_) (fun {other member _} _ => ?_)
  · by_cases there : other = object
    · rw [there, HostWorld.setTimer_self, beq_self_eq_true, Bool.true_or, Option.isSome_some]
    · rw [HostWorld.setTimer_of_ne there, agrees.alive, beq_false_of_ne there, Bool.false_or]
  · unfold HostWorld.recordedAt
    by_cases there : other = object
    · have absent : host.timers object = none := by
        rw [← Option.not_isSome_iff_eq_none, agrees.alive, free]
        exact Bool.false_ne_true
      rw [there, HostWorld.setTimer_self, id, absent]
      cases member <;> rfl
    · rw [HostWorld.setTimer_of_ne there, id]

/-- The other timers do not notice that a timer is destroyed. -/
theorem destroy (agrees : Agrees inUse world host)
    (passed
      : world.Passes inUse next (fun other => other != object && (world.timers other).isSome) id)
    (gone : ∀ member, next.owned (object, member) = none)
    : Agrees inUse next (host.setTimer object none) := by
  refine agrees.passes passed rfl (fun other => ?_) (fun {other member event} owns => ?_)
  · by_cases there : other = object
    · rw [there, HostWorld.setTimer_self, bne_self_eq_false, Bool.false_and, Option.isSome_none]
    · rw [HostWorld.setTimer_of_ne there, agrees.alive, bne_iff_ne.mpr there, Bool.true_and]
  · have there : other ≠ object := by
      rintro rfl
      rw [gone] at owns
      cases owns
    unfold HostWorld.recordedAt
    rw [HostWorld.setTimer_of_ne there, id]

/-- A timer measures between the records that the host's timer holds. -/
theorem measure (agrees : Agrees inUse world host) {started stopped : ε}
    {measurement : Measurement κ μ}
    (measures : world.Measures inUse next object started stopped measurement)
    : Agrees inUse next host
      ∧ (host.timers object).bind Timer.duration = some measurement.between := by
  have first : host.recordedAt object .tick = some measurement.start := by
    rw [agrees.recorded measures.tick, measures.start]
  have last : host.recordedAt object .tock = some measurement.stop := by
    rw [agrees.recorded measures.tock, measures.stop]
  refine ⟨⟨measures.managed, by rw [measures.counted, agrees.counted], ?_, ?_⟩,
    duration_of_recorded first last⟩
  · rw [measures.timers]
    exact agrees.alive
  · rw [DeviceWorld.owned_of_timers measures.timers, measures.kept]
    exact agrees.recorded

/-- Each operation does to the timers what it does to those of the host, and measures between the
records of theirs.
-/
theorem perform (documented : runtime.Documented inUse) (agrees : Agrees inUse world host)
    {operation : TimerOperation ρ κ} (spared : operation.Spares inUse) {report : List δ}
    (performed : operation.perform runtime durationCast world = some (next, report))
    : Agrees inUse next (hostStep operation host).1
      ∧ ∃ shown,
          next.measurements = world.measurements ++ shown
          ∧ shown.map Measurement.between = (hostStep operation host).2
          ∧ report = shown.map (fun measurement => durationCast measurement.milliseconds) := by
  cases operation with
  | construct object =>
      obtain ⟨_, constructed, same⟩ := Option.map_eq_some_iff.mp performed
      obtain ⟨rfl, rfl⟩ := Prod.mk.inj same
      obtain ⟨free, passed⟩ := DeviceWorld.construct_passes agrees.managed constructed
      exact ⟨agrees.construct free passed, [], by simp [passed.measured], rfl, rfl⟩
  | moveConstruct target source =>
      obtain ⟨_, moved, same⟩ := Option.map_eq_some_iff.mp performed
      obtain ⟨rfl, rfl⟩ := Prod.mk.inj same
      obtain ⟨-, alive, passed⟩ :=
        DeviceWorld.moveConstruct_passes documented agrees.managed moved
      exact ⟨agrees.move alive passed, [], by simp [passed.measured], rfl, rfl⟩
  | moveAssign target source =>
      obtain ⟨_, moved, same⟩ := Option.map_eq_some_iff.mp performed
      obtain ⟨rfl, rfl⟩ := Prod.mk.inj same
      obtain ⟨targetAlive, sourceAlive, kept, handed⟩ :=
        DeviceWorld.moveAssign_keeps documented agrees.managed moved
      refine ⟨agrees.move sourceAlive ⟨kept.managed, fun other => ?_, kept.measured, kept.counted,
        kept.earlier, handed⟩, [], by simp [kept.measured], rfl, rfl⟩
      rw [kept.alive]
      by_cases there : other = target
      · rw [there, targetAlive, Bool.or_true]
      · rw [beq_false_of_ne there, Bool.false_or]
  | destroy object =>
      obtain ⟨_, destroyed, same⟩ := Option.map_eq_some_iff.mp performed
      obtain ⟨rfl, rfl⟩ := Prod.mk.inj same
      obtain ⟨-, passed, gone⟩ :=
        DeviceWorld.destroy_passes documented agrees.managed destroyed
      exact ⟨agrees.destroy passed gone, [], by simp [passed.measured], rfl, rfl⟩
  | start object stream =>
      obtain ⟨_, recorded, same⟩ := Option.map_eq_some_iff.mp performed
      obtain ⟨rfl, rfl⟩ := Prod.mk.inj same
      obtain ⟨present, event, records⟩ :=
        DeviceWorld.record_records documented agrees.managed recorded
      refine ⟨agrees.record records present fun record timer other => ?_, [],
        by simp [records.measured], rfl, rfl⟩
      cases other <;> rfl
  | stop object stream =>
      obtain ⟨_, recorded, same⟩ := Option.map_eq_some_iff.mp performed
      obtain ⟨rfl, rfl⟩ := Prod.mk.inj same
      obtain ⟨present, event, records⟩ :=
        DeviceWorld.record_records documented agrees.managed recorded
      refine ⟨agrees.record records present fun record timer other => ?_, [],
        by simp [records.measured], rfl, rfl⟩
      cases other <;> rfl
  | duration object =>
      obtain ⟨⟨_, _⟩, asked, same⟩ := Option.map_eq_some_iff.mp performed
      obtain ⟨rfl, rfl⟩ := Prod.mk.inj same
      obtain ⟨_, _, measurement, measures, rfl⟩ :=
        DeviceWorld.duration_measures documented agrees.managed asked
      obtain ⟨agreeing, between⟩ := agrees.measure measures
      refine ⟨agreeing, [measurement], measures.measured, ?_, rfl⟩
      rw [hostStep, between]
      rfl
  | others change =>
      obtain ⟨rfl, rfl⟩ := Prod.mk.inj (Option.some.inj performed)
      exact ⟨⟨agrees.managed.others spared, agrees.counted, agrees.alive, agrees.recorded⟩, [],
        (List.append_nil _).symm, rfl, rfl⟩

/-- So do some operations, by induction on them. -/
theorem run (documented : runtime.Documented inUse) (agrees : Agrees inUse world host)
    {operations : List (TimerOperation ρ κ)}
    (spared : ∀ operation ∈ operations, operation.Spares inUse) {report : List δ}
    (ran : runTimers runtime durationCast operations world = some (next, report))
    : next.Managed inUse
      ∧ ∃ shown,
          next.measurements = world.measurements ++ shown
          ∧ shown.map Measurement.between = (foldSteps hostStep operations host).2
          ∧ report = shown.map (fun measurement => durationCast measurement.milliseconds) := by
  induction operations generalizing world host report with
  | nil =>
      obtain ⟨rfl, rfl⟩ := Prod.mk.inj (Option.some.inj ran)
      exact ⟨agrees.managed, [], (List.append_nil _).symm, rfl, rfl⟩
  | cons operation rest ih =>
      obtain ⟨middle, first, later, performed, remaining, rfl⟩ := runSteps_cons_eq_some.mp ran
      obtain ⟨agreeing, shown, measured, between, rfl⟩ :=
        agrees.perform documented (spared operation List.mem_cons_self) performed
      obtain ⟨managed, others, measuredLater, betweenLater, rfl⟩ :=
        ih agreeing (fun other member => spared other (List.mem_cons_of_mem _ member)) remaining
      refine ⟨managed, shown ++ others, ?_, ?_, (List.map_append ..).symm⟩
      · rw [measuredLater, measured, List.append_assoc]
      · rw [List.map_append, between, betweenLater]
        rfl

end Agrees

/-- Timers of devices measure what they should. In each run, the durations that they return are the
converted times that the runtime returned for pairs of records, each of which was waited for; and
the pairs are those that the timers of the host hold, which are the last start and the last stop of
the timer, also of one that was started again or moved.
-/
theorem runTimers_measures (documented : runtime.Documented inUse)
    {operations : List (TimerOperation ρ κ)}
    (spared : ∀ operation ∈ operations, operation.Spares inUse) {state : ρ}
    {final : DeviceWorld ρ ε κ μ} {report : List δ}
    (ran : runTimers runtime durationCast operations { state := state } = some (final, report))
    : ∃ ledger measurements,
        replay final.calls = some (ledger, measurements)
        ∧ measurements.map Measurement.between = (foldSteps hostStep operations {}).2
        ∧ report
          = measurements.map (fun measurement => durationCast measurement.milliseconds) := by
  have start : Agrees inUse ({ state := state } : DeviceWorld ρ ε κ μ) {} :=
    ⟨DeviceWorld.managed_start state, rfl, fun _ => rfl, fun owns => by cases owns⟩
  obtain ⟨managed, shown, measured, between, returned⟩ := start.run documented spared ran
  have all : final.measurements = shown := by
    rw [measured]
    rfl
  exact ⟨final.ledger, final.measurements, managed.follows.replayed, all ▸ between, all ▸ returned⟩

/-- A timer that is started twice and moved to another one that was started before. -/
private def restarted : List (TimerOperation SteadyDevice ℕ) :=
  [
    .construct 1, .construct 2, .start 2 5, .start 1 7, .start 1 7, .stop 1 7, .moveAssign 2 1,
    .duration 2
  ]

/-- Its duration lies between the second start and the stop. -/
theorem runTimers_measures_restarted
    : ∃ (final : DeviceWorld SteadyDevice ℕ ℕ ℕ) (measurements : List (Measurement ℕ ℕ)),
        runTimers steadyRuntime id restarted { state := {} } = some (final, [2])
        ∧ measurements.map Measurement.between
          = [({ number := 2, stream := 7 }, { number := 3, stream := 7 })]
        ∧ measurements.map Measurement.milliseconds = [2] := by
  have ran : runTimers steadyRuntime id restarted { state := {} } = some (_, [2]) := rfl
  have spared : ∀ operation ∈ restarted, operation.Spares SteadyDevice.Uses := by
    intro operation member
    simp only [restarted, List.mem_cons, List.not_mem_nil, or_false] at member
    rcases member with rfl | rfl | rfl | rfl | rfl | rfl | rfl | rfl <;> trivial
  obtain ⟨_, measurements, -, between, returned⟩ :=
    runTimers_measures documented_steadyRuntime spared ran
  exact ⟨_, measurements, ran, between, returned.symm⟩

end KokkosUtils.Timers
