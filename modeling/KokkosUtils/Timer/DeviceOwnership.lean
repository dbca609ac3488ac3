import KokkosUtils.Foundations.Ownership
import KokkosUtils.Timer.RuntimeProtocol

/-! Timers manage the events of the device's runtime properly.
At any time each of these events is owned by a single member of a single timer, so that the calls of
the timers follow the protocol of the runtime and no event is left when all timers are gone.
-/

namespace KokkosUtils.Timers

open KokkosUtils.Foundations

variable {ρ ε κ μ δ : Type}

@[simp] theorem DeviceTimer.get_set_self (timer : DeviceTimer ε) (event : Option (DeviceEvent ε))
    (member : Member)
    : (timer.set event member).get member = event := by
  cases member <;> rfl

theorem DeviceTimer.get_set_of_ne (timer : DeviceTimer ε) (event : Option (DeviceEvent ε))
    {member other : Member} (differs : other ≠ member)
    : (timer.set event member).get other = timer.get other := by
  cases member <;> cases other <;> first | rfl | exact (differs rfl).elim

namespace DeviceWorld

-----------------------------------------------------------------------------------------
-- Members
-----------------------------------------------------------------------------------------

section

variable {world : DeviceWorld ρ ε κ μ} {object : Object} {member : Member}

/-- The event of the runtime that a member of a timer owns. -/
def owned (world : DeviceWorld ρ ε κ μ) (place : Object × Member) : Option ε :=
  (world.event place.1 place.2).bind DeviceEvent.event

/-- It is that of the event that the member holds. -/
theorem owned_of_event {found : Option (DeviceEvent ε)}
    (holds : world.event object member = found)
    : world.owned (object, member) = found.bind DeviceEvent.event := by
  rw [owned, holds]

/-- What is owned depends on the timers only. -/
theorem owned_of_timers {next : DeviceWorld ρ ε κ μ} (same : next.timers = world.timers)
    : next.owned = world.owned := by
  unfold owned DeviceWorld.event
  rw [same]

/-- An event is stored where it should be, in a timer that is alive. -/
theorem event_setEvent_self (alive : (world.timers object).isSome)
    (event : Option (DeviceEvent ε))
    : (world.setEvent object member event).event object member = event := by
  obtain ⟨timer, known⟩ := Option.isSome_iff_exists.mp alive
  simp [DeviceWorld.event, setEvent, known]

/-- No other member notices. -/
theorem event_setEvent_of_ne {other : Object × Member} (differs : other ≠ (object, member))
    (event : Option (DeviceEvent ε))
    : (world.setEvent object member event).event other.1 other.2
      = world.event other.1 other.2 := by
  obtain ⟨elsewhere, another⟩ := other
  simp only [DeviceWorld.event, setEvent]
  by_cases same : elsewhere = object
  · subst same
    have apart : another ≠ member := fun equal => differs (by rw [equal])
    cases world.timers elsewhere with
    | none => simp
    | some timer => simp [DeviceTimer.get_set_of_ne _ _ apart]
  · rw [Function.update_of_ne same]

/-- The same timers are alive. -/
theorem isSome_setEvent (event : Option (DeviceEvent ε)) (other : Object)
    : ((world.setEvent object member event).timers other).isSome
      = (world.timers other).isSome := by
  simp only [setEvent]
  by_cases same : other = object
  · rw [same, Function.update_self, Option.isSome_map]
  · rw [Function.update_of_ne same]

/-- The new event owns what it owns. -/
theorem owned_setEvent (alive : (world.timers object).isSome) (member : Member)
    (event : Option (DeviceEvent ε))
    : (world.setEvent object member event).owned
      = Function.update world.owned (object, member) (event.bind DeviceEvent.event) := by
  funext place
  unfold owned
  by_cases same : place = (object, member)
  · rw [same, Function.update_self, event_setEvent_self alive]
  · rw [Function.update_of_ne same, event_setEvent_of_ne same]

/-- Timers that own the same events may replace each other. -/
theorem owned_withTimer {timer : Option (DeviceTimer ε)}
    (same
      : ∀ member,
          world.owned (object, member)
          = (timer.bind fun timer => timer.get member).bind DeviceEvent.event)
    : { world with timers := Function.update world.timers object timer }.owned = world.owned := by
  funext place
  obtain ⟨elsewhere, member⟩ := place
  by_cases there : elsewhere = object
  · subst there
    rw [same]
    simp [owned, event]
  · simp [owned, event, there]

end

-----------------------------------------------------------------------------------------
-- Calls
-----------------------------------------------------------------------------------------

variable [DecidableEq ε]

/-- What the calls of the timers tell of the events. -/
def ledger (world : DeviceWorld ρ ε κ μ) : Ledger ε κ :=
  ((replay world.calls).map Prod.fst).getD {}

/-- What was measured by the calls of the timers. -/
def measurements (world : DeviceWorld ρ ε κ μ) : List (Measurement κ μ) :=
  ((replay world.calls).map Prod.snd).getD []

/-- The calls of the timers follow the protocol, and the runtime still has the events in use that
they have not destroyed.
-/
structure Follows (inUse : ρ → ε → Prop) (world : DeviceWorld ρ ε κ μ) : Prop where
  replayed : replay world.calls = some (world.ledger, world.measurements)
  inUse : ∀ event, (world.ledger.events event).isSome → inUse world.state event

/-- The events of the runtime that were not destroyed are owned by the timers, and were all
recorded.
-/
structure Managed (inUse : ρ → ε → Prop) (world : DeviceWorld ρ ε κ μ) : Prop where
  follows : world.Follows inUse
  owners : SolelyHeld (fun event => (world.ledger.events event).isSome) world.owned
  recorded : ∀ event, world.ledger.events event ≠ some .created

/-- A part of an operation that keeps the events managed and the same timers alive, and neither
records nor measures anything.
-/
structure Keeps (inUse : ρ → ε → Prop) (world next : DeviceWorld ρ ε κ μ) : Prop where
  managed : next.Managed inUse
  alive : ∀ object, (next.timers object).isSome = (world.timers object).isSome
  measured : next.measurements = world.measurements
  counted : next.ledger.records = world.ledger.records
  earlier
    : ∀ {event record},
        next.ledger.lastRecord event = some record → world.ledger.lastRecord event = some record

/-- Keeping composes. -/
theorem Keeps.trans {inUse : ρ → ε → Prop} {world next final : DeviceWorld ρ ε κ μ}
    (first : world.Keeps inUse next) (second : next.Keeps inUse final)
    : world.Keeps inUse final where
  managed := second.managed
  alive := fun object => (second.alive object).trans (first.alive object)
  measured := second.measured.trans first.measured
  counted := second.counted.trans first.counted
  earlier := fun known => first.earlier (second.earlier known)

variable {runtime : DeviceRuntime ρ ε κ μ} {inUse : ρ → ε → Prop}
  {world next : DeviceWorld ρ ε κ μ} {object : Object} {member : Member}

/-- A call that can be entered follows the protocol. -/
theorem Follows.called (follows : world.Follows inUse) {state : ρ} {call : RuntimeCall ε κ μ}
    {later : Ledger ε κ} {shown : List (Measurement κ μ)}
    (entered : world.ledger.enter call = some (later, shown))
    (used : ∀ event, (later.events event).isSome → inUse state event)
    : (world.called state call).Follows inUse
      ∧ (world.called state call).ledger = later
      ∧ (world.called state call).measurements = world.measurements ++ shown := by
  have replayed : replay (world.called state call).calls
      = some (later, world.measurements ++ shown) :=
    replay_concat follows.replayed entered
  have ledger_eq : (world.called state call).ledger = later := by rw [ledger, replayed]; rfl
  have measurements_eq
      : (world.called state call).measurements = world.measurements ++ shown := by
    rw [measurements, replayed]
    rfl
  refine ⟨⟨?_, ?_⟩, ledger_eq, measurements_eq⟩
  · rw [replayed, ledger_eq, measurements_eq]
  · rw [ledger_eq]
    exact used

/-- So does one that measures nothing. -/
theorem Follows.silent (follows : world.Follows inUse) {state : ρ}
    {call : RuntimeCall ε κ μ} {later : Ledger ε κ}
    (entered : world.ledger.enter call = some (later, []))
    (used : ∀ event, (later.events event).isSome → inUse state event)
    : (world.called state call).Follows inUse
      ∧ (world.called state call).ledger = later
      ∧ (world.called state call).measurements = world.measurements := by
  obtain ⟨followed, ledger_eq, measurements_eq⟩ := follows.called entered used
  exact ⟨followed, ledger_eq, measurements_eq.trans (List.append_nil _)⟩

/-- The protocol does not depend on the timers. -/
theorem Follows.withTimers (follows : world.Follows inUse)
    (timers : Object → Option (DeviceTimer ε))
    : { world with timers := timers }.Follows inUse :=
  ⟨follows.replayed, follows.inUse⟩

/-- A new event is one that no timer owns. -/
theorem Follows.eventCreate (documented : runtime.Documented inUse)
    (follows : world.Follows inUse) {made : DeviceEvent ε}
    (created : world.eventCreate runtime = some (next, made))
    : ∃ event,
        made = { event := some event }
        ∧ world.ledger.events event = none
        ∧ next.timers = world.timers
        ∧ next.Follows inUse
        ∧ next.ledger = world.ledger.set event (some .created)
        ∧ next.measurements = world.measurements := by
  obtain ⟨⟨state, event⟩, returned, same⟩ := Option.map_eq_some_iff.mp created
  obtain ⟨rfl, rfl⟩ := Prod.mk.inj same
  obtain ⟨unused, used, others⟩ := documented.eventCreate returned
  have fresh : world.ledger.events event = none := by
    rw [← Option.not_isSome_iff_eq_none]
    exact fun known => unused (follows.inUse event known)
  have entered
      : world.ledger.enter (.created event : RuntimeCall ε κ μ)
        = some (world.ledger.set event (some .created), []) := by
    simp [Ledger.enter, fresh]
  obtain ⟨followed, ledger_eq, measurements_eq⟩ := follows.silent entered fun other known => by
    rcases (Ledger.isSome_set_some event _ other).mp known with rfl | before
    · exact used
    · exact others other (follows.inUse other before)
  exact ⟨event, rfl, fresh, rfl, followed, ledger_eq, measurements_eq⟩

/-- An event that was not destroyed may be recorded. -/
theorem Follows.eventRecord (documented : runtime.Documented inUse)
    (follows : world.Follows inUse) {made : DeviceEvent ε} {stream : κ}
    (known : ∀ event, made.event = some event → (world.ledger.events event).isSome)
    (recorded : world.eventRecord runtime made stream = some next)
    : ∃ event,
        made.event = some event
        ∧ next.timers = world.timers
        ∧ next.Follows inUse
        ∧ next.ledger = world.ledger.record event stream
        ∧ next.measurements = world.measurements := by
  obtain ⟨state, returned, rfl⟩ := Option.map_eq_some_iff.mp recorded
  obtain ⟨pointed, others⟩ := documented.eventRecord returned
  obtain ⟨event, pointer⟩ := Option.isSome_iff_exists.mp pointed
  obtain ⟨status, before⟩ := Option.isSome_iff_exists.mp (known event pointer)
  have entered
      : world.ledger.enter (.recorded made.event stream : RuntimeCall ε κ μ)
        = some (world.ledger.record event stream, []) := by
    simp [Ledger.enter, pointer, before]
  obtain ⟨followed, ledger_eq, measurements_eq⟩ := follows.silent entered fun other used => by
    refine others other (follows.inUse other ?_)
    rcases (Ledger.isSome_record event stream other).mp used with rfl | before
    · exact known other pointer
    · exact before
  exact ⟨event, pointer, rfl, followed, ledger_eq, measurements_eq⟩

/-- An event that was not destroyed may be waited for. -/
theorem Follows.eventSynchronize (documented : runtime.Documented inUse)
    (follows : world.Follows inUse) {made : DeviceEvent ε}
    (known : ∀ event, made.event = some event → (world.ledger.events event).isSome)
    (synchronized : world.eventSynchronize runtime made = some next)
    : ∃ event status,
        made.event = some event
        ∧ world.ledger.events event = some status
        ∧ next.timers = world.timers
        ∧ next.Follows inUse
        ∧ next.ledger = world.ledger.set event (some status.await)
        ∧ next.measurements = world.measurements := by
  obtain ⟨state, returned, rfl⟩ := Option.map_eq_some_iff.mp synchronized
  obtain ⟨pointed, others⟩ := documented.eventSynchronize returned
  obtain ⟨event, pointer⟩ := Option.isSome_iff_exists.mp pointed
  obtain ⟨status, before⟩ := Option.isSome_iff_exists.mp (known event pointer)
  have entered
      : world.ledger.enter (.synchronized made.event : RuntimeCall ε κ μ)
        = some (world.ledger.set event (some status.await), []) := by
    simp [Ledger.enter, pointer, before]
  obtain ⟨followed, ledger_eq, measurements_eq⟩ := follows.silent entered fun other used => by
    refine others other (follows.inUse other ?_)
    rcases (Ledger.isSome_set_some event _ other).mp used with rfl | before
    · exact known other pointer
    · exact before
  exact ⟨event, status, pointer, before, rfl, followed, ledger_eq, measurements_eq⟩

/-- The deleter destroys an event of the runtime that nothing else owns. -/
theorem reset_keeps (documented : runtime.Documented inUse) (managed : world.Managed inUse)
    (alive : (world.timers object).isSome) (reset : world.reset runtime object member = some next)
    : world.Keeps inUse next
      ∧ next.owned = Function.update world.owned (object, member) none := by
  unfold DeviceWorld.reset at reset
  split at reset
  · next event holds =>
      obtain ⟨state, returned, rfl⟩ := Option.map_eq_some_iff.mp reset
      have owns : world.owned (object, member) = some event := owned_of_event holds
      obtain ⟨status, known⟩ :=
        Option.isSome_iff_exists.mp ((managed.owners.inUse_iff event).mpr ⟨_, owns⟩)
      have entered
          : world.ledger.enter (.destroyed event : RuntimeCall ε κ μ)
            = some (world.ledger.set event none, []) := by
        simp [Ledger.enter, known]
      have others := documented.eventDestroy returned
      obtain ⟨followed, ledger_eq, measurements_eq⟩ :=
        managed.follows.silent entered fun other used => by
          obtain ⟨differs, before⟩ := (Ledger.isSome_set_none event other).mp used
          exact others other differs (managed.follows.inUse other before)
      have left
          : ((world.called state (.destroyed event)).setEvent object member none).owned
            = Function.update world.owned (object, member) none :=
        owned_setEvent alive member none
      have ledger_eq'
          : ((world.called state (.destroyed event)).setEvent object member none).ledger
            = world.ledger.set event none :=
        ledger_eq
      refine ⟨⟨⟨followed.withTimers _, ?_, ?_⟩, isSome_setEvent none, measurements_eq, ?_, ?_⟩,
        left⟩
      · rw [left, ledger_eq']
        exact managed.owners.release owns (Ledger.isSome_set_none event)
      · rw [ledger_eq']
        exact Ledger.set_ne_created managed.recorded (by simp) event
      · rw [ledger_eq', Ledger.set]
      · rw [ledger_eq']
        exact Ledger.lastRecord_of_set_none
  · next holds =>
      obtain rfl := Option.some.inj reset
      have empty : world.owned (object, member) = none := by
        unfold owned
        cases known : world.event object member with
        | none => rfl
        | some event =>
            obtain ⟨pointer⟩ := event
            cases pointer with
            | none => rfl
            | some event => exact (holds event known).elim
      have same : (world.setEvent object member none).owned = world.owned := by
        rw [owned_setEvent alive member, Option.bind_none, Function.update_eq_self_iff, empty]
      exact ⟨⟨⟨managed.follows.withTimers _, same ▸ managed.owners, managed.recorded⟩,
        isSome_setEvent none, rfl, rfl, id⟩, owned_setEvent alive member none⟩

/-- What a member owns is handed over to one that owns nothing. -/
theorem handOver_keeps (managed : world.Managed inUse) {target source : Object} (member : Member)
    (targetAlive : (world.timers target).isSome) (sourceAlive : (world.timers source).isSome)
    (empty : world.owned (target, member) = none)
    : world.Keeps inUse (world.handOver target source member)
      ∧ (world.handOver target source member).owned
        = Function.update (Function.update world.owned (source, member) none) (target, member)
            (world.owned (source, member)) := by
  unfold handOver
  split
  · next event holds =>
      have owns : world.owned (source, member) = event.event := owned_of_event holds
      have left := owned_setEvent sourceAlive member (some { event := none })
      have targetLeft
          : ((world.setEvent source member (some { event := none })).timers target).isSome :=
        (isSome_setEvent _ target).trans targetAlive
      have handed := owned_setEvent targetLeft member (some event)
      rw [left, Option.bind_some, Option.bind_some, ← owns] at handed
      refine ⟨⟨⟨managed.follows.withTimers _, ?_, managed.recorded⟩, fun object =>
        (isSome_setEvent _ object).trans (isSome_setEvent _ object), rfl, rfl, id⟩, handed⟩
      rw [handed]
      exact managed.owners.handOver empty
  · next holds =>
      have nothing : world.owned (source, member) = none := owned_of_event holds
      refine ⟨⟨managed, fun _ => rfl, rfl, rfl, id⟩, ?_⟩
      have unchanged : Function.update world.owned (source, member) none = world.owned :=
        Function.update_eq_self_iff.mpr nothing.symm
      rw [unchanged, nothing, Function.update_eq_self_iff.mpr empty.symm]

-----------------------------------------------------------------------------------------
-- Timers
-----------------------------------------------------------------------------------------

/-- The timer whose events a timer owns after another one was moved to it. -/
def origin (target source object : Object) : Object := if object = target then source else object

/-- A member is moved to another timer. -/
theorem moveMember_keeps (documented : runtime.Documented inUse) (managed : world.Managed inUse)
    {target source : Object} (targetAlive : (world.timers target).isSome)
    (sourceAlive : (world.timers source).isSome) (apart : target ≠ source)
    (moved : world.moveMember runtime target source member = some next)
    : world.Keeps inUse next
      ∧ ∀ {object other event},
          next.owned (object, other) = some event
          → world.owned (if other = member then origin target source object else object, other)
            = some event := by
  obtain ⟨cleared, reset, rfl⟩ := Option.map_eq_some_iff.mp moved
  obtain ⟨kept, left⟩ := reset_keeps documented managed targetAlive reset
  obtain ⟨moved, handed⟩ := handOver_keeps kept.managed member
    ((kept.alive target).trans targetAlive) ((kept.alive source).trans sourceAlive)
    (by rw [left, Function.update_self])
  refine ⟨kept.trans moved, ?_⟩
  intro object other event owns
  have same : (target, member) ≠ (source, member) := fun equal => apart (Prod.mk.inj equal).1
  rw [handed, left, Function.update_of_ne same.symm] at owns
  by_cases there : (object, other) = (target, member)
  · obtain ⟨rfl, rfl⟩ := Prod.mk.inj there
    rw [Function.update_self] at owns
    rwa [if_pos rfl, origin, if_pos rfl]
  rw [Function.update_of_ne there] at owns
  by_cases origin' : (object, other) = (source, member)
  · rw [origin', Function.update_self] at owns
    cases owns
  rw [Function.update_of_ne origin', Function.update_of_ne there] at owns
  by_cases named : other = member
  · have elsewhere : object ≠ target := fun equal => there (by rw [equal, named])
    rwa [if_pos named, origin, if_neg elsewhere]
  · rwa [if_neg named]

/-- A timer can be moved to any timer, itself included. -/
theorem moveAssign_keeps (documented : runtime.Documented inUse) (managed : world.Managed inUse)
    {target source : Object} (moved : world.moveAssign runtime target source = some next)
    : (world.timers target).isSome
      ∧ (world.timers source).isSome
      ∧ world.Keeps inUse next
      ∧ ∀ {object member event},
          next.owned (object, member) = some event
          → world.owned (origin target source object, member) = some event := by
  obtain ⟨_, targetKnown, remaining⟩ := Option.bind_eq_some_iff.mp moved
  obtain ⟨_, sourceKnown, remaining⟩ := Option.bind_eq_some_iff.mp remaining
  have targetAlive := Option.isSome_of_eq_some targetKnown
  have sourceAlive := Option.isSome_of_eq_some sourceKnown
  refine ⟨targetAlive, sourceAlive, ?_⟩
  split at remaining
  · next same =>
      obtain rfl := Option.some.inj remaining
      refine ⟨⟨managed, fun _ => rfl, rfl, rfl, id⟩, fun owns => ?_⟩
      rw [origin]
      split
      · next there => rwa [← same, ← there]
      · exact owns
  · next apart =>
      obtain ⟨middle, ticks, tocks⟩ := Option.bind_eq_some_iff.mp remaining
      obtain ⟨first, tickMoved⟩ :=
        moveMember_keeps documented managed targetAlive sourceAlive apart ticks
      obtain ⟨second, tockMoved⟩ := moveMember_keeps documented first.managed
        ((first.alive target).trans targetAlive) ((first.alive source).trans sourceAlive) apart
        tocks
      refine ⟨first.trans second, fun {_ member _} owns => ?_⟩
      have moved := tickMoved (tockMoved owns)
      cases member <;> simpa using moved

/-- What an operation does that neither records nor measures anything: which timers are alive, and
which timer owned before what a timer owns now.
-/
structure Passes (inUse : ρ → ε → Prop) (world next : DeviceWorld ρ ε κ μ) (alive : Object → Bool)
    (origin : Object → Object)
    : Prop where
  managed : next.Managed inUse
  alive : ∀ object, (next.timers object).isSome = alive object
  measured : next.measurements = world.measurements
  counted : next.ledger.records = world.ledger.records
  earlier
    : ∀ {event record},
        next.ledger.lastRecord event = some record → world.ledger.lastRecord event = some record
  owned
    : ∀ {object member event},
        next.owned (object, member) = some event
        → world.owned (origin object, member) = some event

/-- A new timer owns nothing. -/
theorem construct_passes (managed : world.Managed inUse)
    (constructed : world.construct object = some next)
    : world.timers object = none
      ∧ world.Passes inUse next
          (fun other => other == object || (world.timers other).isSome) id := by
  unfold construct at constructed
  split at constructed
  · cases constructed
  · next unused =>
      have free : world.timers object = none := by simpa using unused
      obtain rfl := Option.some.inj constructed
      have same : { world with timers := Function.update world.timers object (some {}) }.owned
          = world.owned := by
        refine owned_withTimer fun member => ?_
        rw [DeviceWorld.owned, event, free]
        cases member <;> rfl
      refine ⟨free, ⟨managed.follows.withTimers _, same ▸ managed.owners, managed.recorded⟩,
        fun other => ?_, rfl, rfl, id, fun owns => ?_⟩
      · by_cases there : other = object <;> simp [there]
      · rwa [same] at owns

/-- A timer can be moved to free storage. -/
theorem moveConstruct_passes (documented : runtime.Documented inUse)
    (managed : world.Managed inUse) {target source : Object}
    (moved : world.moveConstruct runtime target source = some next)
    : world.timers target = none
      ∧ (world.timers source).isSome
      ∧ world.Passes inUse next (fun other => other == target || (world.timers other).isSome)
          (origin target source) := by
  unfold moveConstruct at moved
  split at moved
  · cases moved
  · next apart =>
      obtain ⟨middle, constructed, assigned⟩ := Option.bind_eq_some_iff.mp moved
      obtain ⟨free, made⟩ := construct_passes managed constructed
      obtain ⟨-, sourceAlive, kept, handed⟩ :=
        moveAssign_keeps documented made.managed assigned
      have alive : (world.timers source).isSome := by
        rwa [made.alive, beq_false_of_ne (Ne.symm apart), Bool.false_or] at sourceAlive
      exact ⟨free, alive, kept.managed, fun other => (kept.alive other).trans (made.alive other),
        kept.measured.trans made.measured, kept.counted.trans made.counted,
        fun known => made.earlier (kept.earlier known), fun owns => made.owned (handed owns)⟩

/-- A destroyed timer owned nothing any more. -/
theorem destroy_passes (documented : runtime.Documented inUse) (managed : world.Managed inUse)
    (destroyed : world.destroy runtime object = some next)
    : (world.timers object).isSome
      ∧ world.Passes inUse next (fun other => other != object && (world.timers other).isSome) id
      ∧ ∀ member, next.owned (object, member) = none := by
  obtain ⟨_, known, remaining⟩ := Option.bind_eq_some_iff.mp destroyed
  obtain ⟨middle, tocks, remaining⟩ := Option.bind_eq_some_iff.mp remaining
  obtain ⟨cleared, ticks, rfl⟩ := Option.map_eq_some_iff.mp remaining
  have alive := Option.isSome_of_eq_some known
  obtain ⟨first, tockGone⟩ := reset_keeps documented managed alive tocks
  obtain ⟨second, tickGone⟩ :=
    reset_keeps documented first.managed ((first.alive object).trans alive) ticks
  have kept := first.trans second
  have empty (member : Member) : cleared.owned (object, member) = none := by
    rw [tickGone, tockGone]
    cases member <;> simp
  have same : { cleared with timers := Function.update cleared.timers object none }.owned
      = cleared.owned :=
    owned_withTimer fun member => empty member
  refine ⟨alive, ⟨⟨kept.managed.follows.withTimers _, same ▸ kept.managed.owners,
    kept.managed.recorded⟩, fun other => ?_, kept.measured, kept.counted, kept.earlier,
    fun {other member event} owns => ?_⟩, fun member => same ▸ empty member⟩
  · by_cases there : other = object <;> simp [there, kept.alive]
  · rw [same, tickGone, tockGone] at owns
    by_cases atTick : (other, member) = (object, .tick)
    · rw [atTick, Function.update_self] at owns
      cases owns
    by_cases atTock : (other, member) = (object, .tock)
    · rw [Function.update_of_ne atTick, atTock, Function.update_self] at owns
      cases owns
    · rwa [Function.update_of_ne atTick, Function.update_of_ne atTock] at owns

/-- What the member of a timer owns after a record, which is an event of its own. -/
structure Records (inUse : ρ → ε → Prop) (world next : DeviceWorld ρ ε κ μ) (object : Object)
    (member : Member) (event : ε) (stream : κ)
    : Prop where
  managed : next.Managed inUse
  alive : ∀ object, (next.timers object).isSome = (world.timers object).isSome
  measured : next.measurements = world.measurements
  owned : next.owned = Function.update world.owned (object, member) (some event)
  counted : next.ledger.records = world.ledger.records + 1
  last
    : next.ledger.lastRecord event
      = some { number := world.ledger.records, stream := stream }
  others
    : ∀ other, other ≠ event → next.ledger.lastRecord other = world.ledger.lastRecord other

/-- A record is entered where only the recorded event may have changed before. -/
theorem Records.of_recorded {event : ε} {stream : κ} {before : Ledger ε κ}
    (managed : world.Managed inUse) (followed : next.Follows inUse)
    (recorded : next.ledger = before.record event stream)
    (counted : before.records = world.ledger.records)
    (others : ∀ other, other ≠ event → before.events other = world.ledger.events other)
    (alive : ∀ object, (next.timers object).isSome = (world.timers object).isSome)
    (measured : next.measurements = world.measurements)
    (owned : next.owned = Function.update world.owned (object, member) (some event))
    (owners : SolelyHeld (fun event => (next.ledger.events event).isSome) next.owned)
    : world.Records inUse next object member event stream where
  managed := by
    refine ⟨followed, owners, fun other => ?_⟩
    rw [recorded, Ledger.record]
    by_cases same : other = event
    · simp [same]
    · simpa [same, others other same] using managed.recorded other
  alive := alive
  measured := measured
  owned := owned
  counted := by rw [recorded, ← counted]; rfl
  last := by
    rw [recorded, ← counted]
    simp [Ledger.lastRecord, Ledger.record, EventStatus.record?]
  others := by
    intro other differs
    simp [recorded, Ledger.lastRecord, Ledger.record, differs, others other differs]

/-- The first record of a member makes an event. -/
theorem emplace_records (documented : runtime.Documented inUse) (managed : world.Managed inUse)
    (alive : (world.timers object).isSome) (holds : world.event object member = none)
    {created : DeviceWorld ρ ε κ μ} {made : DeviceEvent ε} {stream : κ}
    (creation : world.eventCreate runtime = some (created, made))
    (recording
      : (created.setEvent object member (some made)).eventRecord runtime made stream = some next)
    : ∃ event, world.Records inUse next object member event stream := by
  obtain ⟨event, rfl, fresh, sameTimers, followed, created_eq, createdMeasured⟩ :=
    managed.follows.eventCreate documented creation
  let stored := created.setEvent object member (some { event := some event })
  have storedFollows : stored.Follows inUse := followed.withTimers _
  have stored_eq : stored.ledger = world.ledger.set event (some .created) := created_eq
  have there (other : ε) (same : some event = some other)
      : (stored.ledger.events other).isSome := by
    rw [stored_eq, Ledger.isSome_set_some]
    exact .inl (Option.some.inj same).symm
  obtain ⟨_, pointer, recordedTimers, finished, recorded, shown⟩ :=
    storedFollows.eventRecord documented there recording
  obtain rfl := Option.some.inj pointer
  rw [stored_eq] at recorded
  have owns : next.owned = Function.update world.owned (object, member) (some event) := by
    have createdAlive : (created.timers object).isSome := sameTimers ▸ alive
    rw [owned_of_timers recordedTimers, owned_setEvent createdAlive, owned_of_timers sameTimers]
    rfl
  refine ⟨event, .of_recorded managed finished recorded rfl (fun other differs => ?_)
    (fun other => ?_) (shown.trans createdMeasured) owns ?_⟩
  · exact Function.update_of_ne differs ..
  · rw [recordedTimers, isSome_setEvent, sameTimers]
  · rw [owns]
    refine managed.owners.acquire (owned_of_event holds) (by simp [fresh]) fun other => ?_
    rw [recorded, Ledger.isSome_record, Ledger.isSome_set_some]
    simp

/-- The later ones use it again. -/
theorem again_records (documented : runtime.Documented inUse) (managed : world.Managed inUse)
    {made : DeviceEvent ε} (holds : world.event object member = some made) {stream : κ}
    (recording : world.eventRecord runtime made stream = some next)
    : ∃ event, world.Records inUse next object member event stream := by
  have owns : world.owned (object, member) = made.event := owned_of_event holds
  have known (event : ε) (pointer : made.event = some event)
      : (world.ledger.events event).isSome :=
    (managed.owners.inUse_iff event).mpr ⟨_, owns.trans pointer⟩
  obtain ⟨event, pointer, timers_eq, followed, recorded, shown⟩ :=
    managed.follows.eventRecord documented known recording
  refine ⟨event, .of_recorded managed followed recorded rfl (fun _ _ => rfl)
    (fun other => by rw [timers_eq]) shown ?_ ?_⟩
  · rw [owned_of_timers timers_eq, ← pointer, ← owns, Function.update_eq_self]
  · rw [owned_of_timers timers_eq]
    refine managed.owners.congr fun other => ?_
    rw [recorded, Ledger.isSome_record, or_iff_right_of_imp]
    rintro rfl
    exact known other pointer

/-- `start` and `stop` record an event of their member's own. -/
theorem record_records (documented : runtime.Documented inUse) (managed : world.Managed inUse)
    {stream : κ} (recorded : world.record runtime object member stream = some next)
    : (world.timers object).isSome
      ∧ ∃ event, world.Records inUse next object member event stream := by
  obtain ⟨_, known, remaining⟩ := Option.bind_eq_some_iff.mp recorded
  have alive := Option.isSome_of_eq_some known
  refine ⟨alive, ?_⟩
  split at remaining
  · next holds =>
      obtain ⟨⟨created, made⟩, creation, recording⟩ := Option.bind_eq_some_iff.mp remaining
      exact emplace_records documented managed alive holds creation recording
  · next made holds => exact again_records documented managed holds remaining

/-- Waiting for an event that a member owns waits for its last record. -/
theorem Managed.awaits (documented : runtime.Documented inUse) (managed : world.Managed inUse)
    {place : Object × Member} {made : DeviceEvent ε} (owns : world.owned place = made.event)
    (synchronized : world.eventSynchronize runtime made = some next)
    : ∃ event record,
        made.event = some event
        ∧ next.timers = world.timers
        ∧ next.Managed inUse
        ∧ next.ledger = world.ledger.set event (some (.awaited record))
        ∧ next.measurements = world.measurements
        ∧ world.ledger.lastRecord event = some record
        ∧ next.ledger.lastRecord = world.ledger.lastRecord := by
  obtain ⟨event, status, pointer, known, timers_eq, followed, ledger_eq, measurements_eq⟩ :=
    managed.follows.eventSynchronize documented
      (fun event pointer => (managed.owners.inUse_iff event).mpr ⟨_, owns.trans pointer⟩)
      synchronized
  obtain ⟨record, last, awaited⟩
      : ∃ record, status.record? = some record ∧ status.await = .awaited record := by
    cases status with
    | created => exact (managed.recorded event known).elim
    | pending record => exact ⟨record, rfl, rfl⟩
    | awaited record => exact ⟨record, rfl, rfl⟩
  refine ⟨event, record, pointer, timers_eq, ⟨followed, ?_, ?_⟩, awaited ▸ ledger_eq,
    measurements_eq, ?_, ?_⟩
  · rw [owned_of_timers timers_eq]
    refine managed.owners.congr fun other => ?_
    rw [ledger_eq, Ledger.isSome_set_some, or_iff_right_of_imp]
    rintro rfl
    exact Option.isSome_of_eq_some known
  · rw [ledger_eq, awaited]
    exact Ledger.set_ne_created managed.recorded (by simp) event
  · rwa [Ledger.lastRecord, known]
  · rw [ledger_eq, Ledger.lastRecord_await known]

/-- What is measured when a duration is asked for: the time between the last records of the events
that the members of the timer own.
-/
structure Measures (inUse : ρ → ε → Prop) (world next : DeviceWorld ρ ε κ μ) (object : Object)
    (started stopped : ε) (measurement : Measurement κ μ)
    : Prop where
  managed : next.Managed inUse
  timers : next.timers = world.timers
  tick : world.owned (object, .tick) = some started
  tock : world.owned (object, .tock) = some stopped
  start : world.ledger.lastRecord started = some measurement.start
  stop : world.ledger.lastRecord stopped = some measurement.stop
  counted : next.ledger.records = world.ledger.records
  kept : next.ledger.lastRecord = world.ledger.lastRecord
  measured : next.measurements = world.measurements ++ [measurement]

/-- A duration is asked for once both records were waited for. -/
theorem duration_measures (documented : runtime.Documented inUse) (managed : world.Managed inUse)
    {durationCast : μ → δ} {duration : δ}
    (asked : world.duration runtime durationCast object = some (next, duration))
    : ∃ started stopped measurement,
        world.Measures inUse next object started stopped measurement
        ∧ duration = durationCast measurement.milliseconds := by
  obtain ⟨timer, known, remaining⟩ := Option.bind_eq_some_iff.mp asked
  obtain ⟨tick, tickHolds, remaining⟩ := Option.bind_eq_some_iff.mp remaining
  obtain ⟨tock, tockHolds, remaining⟩ := Option.bind_eq_some_iff.mp remaining
  obtain ⟨⟨_, _⟩, elapsed, same⟩ := Option.map_eq_some_iff.mp remaining
  obtain ⟨rfl, rfl⟩ := Prod.mk.inj same
  obtain ⟨middle, tocked, remaining⟩ := Option.bind_eq_some_iff.mp elapsed
  obtain ⟨waited, ticked, remaining⟩ := Option.bind_eq_some_iff.mp remaining
  obtain ⟨⟨state, milliseconds⟩, returned, same⟩ := Option.map_eq_some_iff.mp remaining
  obtain ⟨rfl, rfl⟩ := Prod.mk.inj same
  have tockOwns : world.owned (object, .tock) = tock.event := by
    simp [owned, event, known, DeviceTimer.get, tockHolds]
  have tickOwns : world.owned (object, .tick) = tick.event := by
    simp [owned, event, known, DeviceTimer.get, tickHolds]
  obtain ⟨stopped, stop, stopPointer, stopTimers, stopManaged, stopLedger, stopMeasured, last,
    stopKept⟩ := managed.awaits documented tockOwns tocked
  have tickStill : middle.owned (object, .tick) = tick.event := by
    rw [owned_of_timers stopTimers]
    exact tickOwns
  obtain ⟨started, start, startPointer, startTimers, startManaged, startLedger, startMeasured,
    first, startKept⟩ := stopManaged.awaits documented tickStill ticked
  have apart : stopped ≠ started := by
    rintro rfl
    cases managed.owners.single (tickOwns.trans startPointer) (tockOwns.trans stopPointer)
  let measurement : Measurement κ μ :=
    { start := start, stop := stop, milliseconds := milliseconds }
  have entered
      : waited.ledger.enter (.measured tick.event tock.event milliseconds)
        = some (waited.ledger, [measurement]) := by
    simp [Ledger.enter, startPointer, stopPointer, startLedger, stopLedger, Ledger.set, apart,
      measurement]
  obtain ⟨followed, ledger_eq, measurements_eq⟩ :=
    startManaged.follows.called entered fun other used =>
      documented.eventElapsedTime returned other (startManaged.follows.inUse other used)
  have timers_eq : waited.timers = world.timers := startTimers.trans stopTimers
  refine ⟨started, stopped, measurement, ⟨⟨followed, ?_, ?_⟩, timers_eq,
    tickOwns.trans startPointer, tockOwns.trans stopPointer, stopKept ▸ first, last, ?_, ?_, ?_⟩,
    rfl⟩
  · rw [ledger_eq]
    exact startManaged.owners
  · rw [ledger_eq]
    exact startManaged.recorded
  · rw [ledger_eq, startLedger, stopLedger]
    rfl
  · rw [ledger_eq, startKept, stopKept]
  · rw [measurements_eq, startMeasured, stopMeasured]

/-- At first there is nothing to manage. -/
theorem managed_start (state : ρ)
    : ({ state := state } : DeviceWorld ρ ε κ μ).Managed inUse where
  follows := ⟨rfl, fun _ used => by cases used⟩
  owners := .nothing (fun _ used => by cases used) (fun _ => rfl)
  recorded := fun _ known => by cases known

/-- What the device and other code do with the runtime needs no care, if the events stay in use. -/
theorem Managed.others (managed : world.Managed inUse) {change : ρ → ρ}
    (spared : ∀ state event, inUse state event → inUse (change state) event)
    : { world with state := change world.state }.Managed inUse where
  follows :=
    ⟨managed.follows.replayed, fun event used => spared _ _ (managed.follows.inUse event used)⟩
  owners := managed.owners
  recorded := managed.recorded

end DeviceWorld

/-- The device and other code keep the events in use that timers may own. -/
def TimerOperation.Spares (inUse : ρ → ε → Prop) : TimerOperation ρ κ → Prop
  | .others change => ∀ state event, inUse state event → inUse (change state) event
  | _ => True

variable [DecidableEq ε] {runtime : DeviceRuntime ρ ε κ μ} {inUse : ρ → ε → Prop}
  {durationCast : μ → δ}

/-- Each operation keeps the events managed. -/
theorem DeviceWorld.Managed.perform (documented : runtime.Documented inUse)
    {world next : DeviceWorld ρ ε κ μ} (managed : world.Managed inUse)
    {operation : TimerOperation ρ κ} (spared : operation.Spares inUse) {report : List δ}
    (performed : operation.perform runtime durationCast world = some (next, report))
    : next.Managed inUse := by
  cases operation with
  | construct object =>
      obtain ⟨_, constructed, same⟩ := Option.map_eq_some_iff.mp performed
      obtain ⟨rfl, -⟩ := Prod.mk.inj same
      exact (construct_passes managed constructed).2.managed
  | moveConstruct target source =>
      obtain ⟨_, moved, same⟩ := Option.map_eq_some_iff.mp performed
      obtain ⟨rfl, -⟩ := Prod.mk.inj same
      exact (moveConstruct_passes documented managed moved).2.2.managed
  | moveAssign target source =>
      obtain ⟨_, moved, same⟩ := Option.map_eq_some_iff.mp performed
      obtain ⟨rfl, -⟩ := Prod.mk.inj same
      exact (moveAssign_keeps documented managed moved).2.2.1.managed
  | destroy object =>
      obtain ⟨_, destroyed, same⟩ := Option.map_eq_some_iff.mp performed
      obtain ⟨rfl, -⟩ := Prod.mk.inj same
      exact (destroy_passes documented managed destroyed).2.1.managed
  | start object stream =>
      obtain ⟨_, recorded, same⟩ := Option.map_eq_some_iff.mp performed
      obtain ⟨rfl, -⟩ := Prod.mk.inj same
      obtain ⟨-, event, records⟩ := record_records documented managed recorded
      exact records.managed
  | stop object stream =>
      obtain ⟨_, recorded, same⟩ := Option.map_eq_some_iff.mp performed
      obtain ⟨rfl, -⟩ := Prod.mk.inj same
      obtain ⟨-, event, records⟩ := record_records documented managed recorded
      exact records.managed
  | duration object =>
      obtain ⟨⟨_, _⟩, asked, same⟩ := Option.map_eq_some_iff.mp performed
      obtain ⟨rfl, -⟩ := Prod.mk.inj same
      obtain ⟨_, _, _, measures, -⟩ := duration_measures documented managed asked
      exact measures.managed
  | others change =>
      obtain ⟨rfl, -⟩ := Prod.mk.inj (Option.some.inj performed)
      exact managed.others spared

/-- Timers manage the events of the device properly, whatever the runtime answers. In each run, in
which timers are made, moved, started, stopped, read and destroyed, the calls of the timers follow
the protocol of the runtime: none uses an event that was not created or that is gone. Each event
that was not destroyed is owned by a single member of a single timer, and without timers there are
none left.
-/
theorem runTimers_managed (documented : runtime.Documented inUse)
    {operations : List (TimerOperation ρ κ)}
    (spared : ∀ operation ∈ operations, operation.Spares inUse) {state : ρ}
    {final : DeviceWorld ρ ε κ μ} {report : List δ}
    (ran : runTimers runtime durationCast operations { state := state } = some (final, report))
    : ∃ ledger measurements,
        replay final.calls = some (ledger, measurements)
        ∧ SolelyHeld (fun event => (ledger.events event).isSome) final.owned
        ∧ ((∀ object, final.timers object = none) → ∀ event, ledger.events event = none) := by
  have kept
      : ∀ {operation : TimerOperation ρ κ} {world next : DeviceWorld ρ ε κ μ} {report : List δ},
          operation.Spares inUse
          → world.Managed inUse
          → operation.perform runtime durationCast world = some (next, report)
          → next.Managed inUse :=
    fun spares managed performed => managed.perform documented spares performed
  have managed :=
    runSteps_preserves_of_allowed kept spared (DeviceWorld.managed_start state) ran
  refine ⟨final.ledger, final.measurements, managed.follows.replayed, managed.owners,
    fun gone event => ?_⟩
  have empty : ∀ place, final.owned place = none := by
    intro place
    rw [DeviceWorld.owned, DeviceWorld.event, gone]
    rfl
  have unused := managed.owners.not_inUse empty event
  simpa using unused

/-- A runtime that numbers its events and that needs one unit of time for each function. -/
structure SteadyDevice where
  now : ℕ := 0
  events : ℕ → Option (Option ℕ) := fun _ => none

/-- Its functions. An event that is in use has the time of its last record. -/
def steadyRuntime : DeviceRuntime SteadyDevice ℕ ℕ ℕ where
  eventCreate := fun state =>
    some (
      { now := state.now + 1, events := Function.update state.events state.now (some none) },
      state.now
    )
  eventRecord := fun pointer _ state =>
    pointer.bind fun event =>
      (state.events event).map fun _ =>
        {
          now := state.now + 1
          events := Function.update state.events event (some (some state.now))
        }
  eventSynchronize := fun pointer state =>
    pointer.bind fun event => (state.events event).map fun _ => state
  eventElapsedTime := fun start stop state =>
    ((start.bind state.events).join).bind fun started =>
      ((stop.bind state.events).join).map fun stopped => (state, stopped - started)
  eventDestroy := fun event state =>
    (state.events event).map fun _ =>
      { state with events := Function.update state.events event none }

/-- The events that the runtime has in use. -/
def SteadyDevice.Uses (state : SteadyDevice) (event : ℕ) : Prop :=
  event < state.now ∧ (state.events event).isSome = true

/-- It does what is relied on. -/
theorem documented_steadyRuntime : steadyRuntime.Documented SteadyDevice.Uses where
  eventCreate := by
    intro state next event created
    obtain ⟨rfl, rfl⟩ := Prod.mk.inj (Option.some.inj created)
    refine ⟨fun used => Nat.lt_irrefl _ used.1, ⟨Nat.lt_succ_self _, by simp⟩, ?_⟩
    rintro other ⟨earlier, used⟩
    refine ⟨Nat.lt_succ_of_lt earlier, ?_⟩
    simpa [Function.update_of_ne (Nat.ne_of_lt earlier)] using used
  eventRecord := by
    intro pointer stream state next recorded
    obtain ⟨event, rfl, remaining⟩ := Option.bind_eq_some_iff.mp recorded
    obtain ⟨_, known, rfl⟩ := Option.map_eq_some_iff.mp remaining
    refine ⟨rfl, ?_⟩
    rintro other ⟨earlier, used⟩
    refine ⟨Nat.lt_succ_of_lt earlier, ?_⟩
    by_cases same : other = event <;> simp [same, used]
  eventSynchronize := by
    intro pointer state next synchronized
    obtain ⟨event, rfl, remaining⟩ := Option.bind_eq_some_iff.mp synchronized
    obtain ⟨_, -, rfl⟩ := Option.map_eq_some_iff.mp remaining
    exact ⟨rfl, fun _ used => used⟩
  eventElapsedTime := by
    intro start stop state next milliseconds elapsed
    obtain ⟨started, -, remaining⟩ := Option.bind_eq_some_iff.mp elapsed
    obtain ⟨stopped, -, same⟩ := Option.map_eq_some_iff.mp remaining
    obtain ⟨rfl, -⟩ := Prod.mk.inj same
    exact fun _ used => used
  eventDestroy := by
    intro event state next destroyed
    obtain ⟨_, -, rfl⟩ := Option.map_eq_some_iff.mp destroyed
    rintro other differs ⟨earlier, used⟩
    exact ⟨earlier, by simpa [differs] using used⟩

/-- A timer that is moved and read, before both timers are destroyed. -/
private def movedTimer : List (TimerOperation SteadyDevice ℕ) :=
  [
    .construct 1, .start 1 7, .stop 1 7, .moveConstruct 2 1, .duration 2, .destroy 1,
    .others (fun device => { device with now := device.now + 9 }), .destroy 2
  ]

/-- Its events are destroyed once, with the timer that it was moved to. -/
theorem runTimers_managed_moved
    : ∃ (final : DeviceWorld SteadyDevice ℕ ℕ ℕ) (report : List ℕ)
        (ledger : Ledger ℕ ℕ) (measurements : List (Measurement ℕ ℕ)),
        runTimers steadyRuntime id movedTimer { state := {} } = some (final, report)
        ∧ replay final.calls = some (ledger, measurements)
        ∧ (∀ event, ledger.events event = none)
        ∧ final.calls.filter (fun call => call matches .destroyed _)
          = [.destroyed 2, .destroyed 0] := by
  have ran : runTimers steadyRuntime id movedTimer { state := {} } = some (_, _) := rfl
  have spared : ∀ operation ∈ movedTimer, operation.Spares SteadyDevice.Uses := by
    intro operation member
    simp only [movedTimer, List.mem_cons, List.not_mem_nil, or_false] at member
    rcases member with rfl | rfl | rfl | rfl | rfl | rfl | rfl | rfl
    case inr.inr.inr.inr.inr.inr.inl =>
      exact fun state event used => ⟨Nat.lt_add_right 9 used.1, used.2⟩
    all_goals trivial
  obtain ⟨ledger, measurements, replayed, -, gone⟩ :=
    runTimers_managed documented_steadyRuntime spared ran
  refine ⟨_, _, ledger, measurements, ran, replayed, gone fun object => ?_, rfl⟩
  match object with
  | 0 => rfl
  | 1 => rfl
  | 2 => rfl
  | _ + 3 => rfl

end KokkosUtils.Timers
