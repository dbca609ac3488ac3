import KokkosUtils.Callbacks.BeginEndTiming
import KokkosUtils.Callbacks.RegionResets

/-! BeginEndTimerListener never starts its timer for an event of another execution space.
The timer would abort. The queue matcher inside the listener's matcher rules that out, except for
end events, which it does not see; for these the timer has no `start`.
-/

namespace KokkosUtils.Callbacks

open KokkosUtils.Foundations

variable {θ M T : Type} {construct : Construct}

/-- A timer type with a `dev_id`: `start` aborts only for begin events with another one, and is
not called for end events.
-/
structure GuardedTimer [ExecTimerType θ T] (devId : T → UInt32) : Prop where
  ofExec : ∀ exec, devId (ExecTimerType.ofExec exec) = exec.deviceId
  startBegin
    : ∀ now construct name eventId (timer : T),
        ∃ started,
          startTimer now (.beginEvent construct name (devId timer) eventId) timer
            = some (started, [.start])
          ∧ devId started = devId timer
  startEnd
    : ∀ now construct eventId (timer : T),
        startTimer now (.endEvent construct eventId) timer = some (timer, [])
  stop
    : ∀ now event (timer : T),
        ∃ stopped, stopTimer now event timer = some (stopped, [.stop]) ∧ devId stopped = devId timer

/-- The timer for enqueued events aborts in no other case. -/
theorem EnqueuedEventTimer.guarded
    : GuardedTimer (EnqueuedEventTimer.devId : EnqueuedEventTimer θ → UInt32) where
  ofExec := fun _ => rfl
  startBegin := fun now _ _ _ timer =>
    ⟨{ timer with timer := timer.timer.start now }, by
      simp [startTimer, TimerType.start, TimerType.startWithEvent, KokkosEvent.type,
        KokkosEventType.isEnqueuedEvent, EnqueuedEventTimer.start, KokkosEvent.devId?], rfl⟩
  startEnd := fun _ _ _ _ => rfl
  stop := fun _ _ _ => ⟨_, rfl, rfl⟩

/-- Nor does the timer that also measures the launch. -/
theorem EnqueuedEventWithLaunchTimer.guarded
    : GuardedTimer
        (EnqueuedEventWithLaunchTimer.devId : EnqueuedEventWithLaunchTimer θ → UInt32) where
  ofExec := fun _ => rfl
  startBegin := fun now _ _ _ timer =>
    ⟨{ timer with timer := timer.timer.start now, timerLaunch := timer.timerLaunch.start now }, by
      simp [startTimer, TimerType.start, TimerType.startWithEvent, KokkosEvent.type,
        KokkosEventType.isEnqueuedEvent, EnqueuedEventWithLaunchTimer.start,
        KokkosEvent.devId?], rfl⟩
  startEnd := fun _ _ _ _ => rfl
  stop := fun _ _ _ => ⟨_, rfl, rfl⟩

/-- On every trace of events and resets the listener never aborts, and it calls `start` only for
events with the timer's `dev_id`.
-/
def StartsOnOwnQueue [Matcher M] [TimerType θ T] (devId : T → UInt32)
    (initial : BeginEndTimerListener construct M T)
    : Prop :=
  ∀ (history : ResetTrace θ) input,
    ∃ listener report next calls,
      runSteps TimerListener.receiveOrReset history initial = some (listener, report)
      ∧ listener.receiveOrReset input = some (next, [calls])
      ∧ (.start ∈ calls
        → ∃ stamped,
            input = .input stamped ∧ stamped.event.devId? = some (devId listener.timer))

/-- The queue matcher and the timer of a listener know the same execution space. -/
structure OnQueue (devId : T → UInt32) (exec : ExecutionSpace)
    (listener : BeginEndTimerListener construct M T)
    : Prop where
  matcher : listener.matcher.matcher.first = { exec := exec }
  timer : devId listener.timer = exec.deviceId

section

variable [Matcher M]

/-- A conjunction that begins with a queue matcher never changes the queue matcher, and matches
only events on its queue.
-/
theorem ConjunctionMatcher.call_queue {event : KokkosEvent}
    {self next : ConjunctionMatcher EventQueueMatcher M} {matching : Bool}
    (called : Matcher.call event self = (matching, next))
    : next.first = self.first
      ∧ (matching = true → event.devId? = some self.first.devId) := by
  change ConjunctionMatcher.call event self = _ at called
  rw [ConjunctionMatcher.call, StatelessMatcher.call_eq, EventQueueMatcher.accepts_eq] at called
  cases queued : event.devId? == some self.first.devId with
  | false =>
      rw [queued] at called
      obtain ⟨rfl, rfl⟩ := Prod.mk.inj called
      exact ⟨rfl, fun matched => absurd matched Bool.false_ne_true⟩
  | true =>
      rw [queued] at called
      obtain ⟨-, rfl⟩ := Prod.mk.inj called
      exact ⟨rfl, fun _ => by simpa using queued⟩

/-- So does the matcher of the listener, as far as begin events are concerned. -/
theorem beginEndMatcher_call_queue {event : KokkosEvent} {self next : BeginEndMatcher construct M}
    {matching : Bool} (called : Matcher.call event self = (matching, next))
    : next.matcher.first = self.matcher.first
      ∧ (matching = true
        → event.type = .beginEvent construct
        → event.devId? = some self.matcher.first.devId) := by
  change EventBeginEndIdMatcher.call event self = _ at called
  cases event with
  | beginEvent other name devId eventId =>
      obtain ⟨⟨verdict, inner⟩, innerCalled⟩
          : ∃ result, Matcher.call (.beginEvent other name devId eventId) self.matcher = result :=
        ⟨_, rfl⟩
      obtain ⟨kept, queued⟩ := ConjunctionMatcher.call_queue innerCalled
      simp only [EventBeginEndIdMatcher.call, innerCalled] at called
      cases verdict with
      | false =>
          obtain ⟨rfl, rfl⟩ := Prod.mk.inj called
          exact ⟨kept, fun matched => absurd matched Bool.false_ne_true⟩
      | true =>
          obtain ⟨rfl, rfl⟩ := Prod.mk.inj called
          exact ⟨kept, fun _ _ => queued rfl⟩
  | _ =>
      obtain ⟨-, rfl⟩ := Prod.mk.inj called
      exact ⟨rfl, fun _ begins => by simp [KokkosEvent.type] at begins⟩

end

section

variable [Matcher M] [ExecTimerType θ T] {devId : T → UInt32} {exec : ExecutionSpace}
variable {listener : BeginEndTimerListener construct M T} {stamped : Stamped θ}

/-- When an event that the matcher is for matches as the first one, `start` is called on the
timer's queue or not at all.
-/
theorem OnQueue.start (onQueue : OnQueue devId exec listener) (guarded : GuardedTimer devId)
    (isFor : Matcher.isMatcherFor (BeginEndMatcher construct M) stamped.event.type = true)
    (matching : (Matcher.call stamped.event listener.matcher).1 = true)
    : ∃ timer calls,
        startTimer stamped.moment stamped.event listener.timer = some (timer, calls)
        ∧ devId timer = exec.deviceId
        ∧ (.start ∈ calls → stamped.event.devId? = some (devId listener.timer)) := by
  rcases beginEnd_of_isMatcherFor isFor with ⟨name, eventDevId, eventId, same⟩ | ⟨eventId, same⟩
  · have queued := (beginEndMatcher_call_queue rfl).2 matching (by rw [same]; rfl)
    rw [onQueue.matcher, same] at queued
    obtain rfl : eventDevId = devId listener.timer := by
      rw [onQueue.timer]
      exact Option.some.inj queued
    obtain ⟨started, starts, kept⟩ :=
      guarded.startBegin stamped.moment construct name eventId listener.timer
    rw [same]
    exact ⟨started, _, starts, kept.trans onQueue.timer, fun _ => rfl⟩
  · rw [same]
    exact ⟨_, _, guarded.startEnd stamped.moment construct eventId listener.timer, onQueue.timer,
      fun started => absurd started List.not_mem_nil⟩

/-- An event does not make the listener abort, and keeps it on its queue. -/
theorem OnQueue.call (onQueue : OnQueue devId exec listener) (guarded : GuardedTimer devId)
    (isFor : Matcher.isMatcherFor (BeginEndMatcher construct M) stamped.event.type = true)
    : ∃ next calls,
        listener.call stamped.moment stamped.event = some (next, calls)
        ∧ OnQueue devId exec next
        ∧ (.start ∈ calls → stamped.event.devId? = some (devId listener.timer)) := by
  have kept : (Matcher.call stamped.event listener.matcher).2.matcher.first = { exec := exec } :=
    (beginEndMatcher_call_queue rfl).1.trans onQueue.matcher
  cases closed : listener.closed with
  | true =>
      exact ⟨listener, [], TimerListener.call_of_closed closed, onQueue,
        fun started => absurd started List.not_mem_nil⟩
  | false =>
      cases matching : (Matcher.call stamped.event listener.matcher).1 with
      | false =>
          exact ⟨_, [], TimerListener.call_of_not_matching closed matching, ⟨kept, onQueue.timer⟩,
            fun started => absurd started List.not_mem_nil⟩
      | true =>
          cases begun : listener.matchedBegin with
          | false =>
              obtain ⟨timer, calls, starts, same, queued⟩ := onQueue.start guarded isFor matching
              rw [TimerListener.call_of_begin begun matching, starts]
              exact ⟨_, calls, rfl, ⟨kept, same⟩, queued⟩
          | true =>
              have unended : listener.matchedEnd = false := by
                simpa [TimerListener.closed, begun] using closed
              obtain ⟨stopped, stops, same⟩ :=
                guarded.stop stamped.moment stamped.event listener.timer
              rw [TimerListener.call_of_end begun unended matching, stops]
              exact ⟨_, _, rfl, ⟨kept, same.trans onQueue.timer⟩,
                fun started => by simp at started⟩

/-- Each entry of a trace keeps the listener on its queue. -/
theorem OnQueue.receiveOrReset (onQueue : OnQueue devId exec listener)
    (guarded : GuardedTimer devId) (input : Resettable (Stamped θ))
    : ∃ next calls,
        listener.receiveOrReset input = some (next, [calls])
        ∧ OnQueue devId exec next
        ∧ (.start ∈ calls
          → ∃ stamped,
              input = .input stamped
              ∧ stamped.event.devId? = some (devId listener.timer)) := by
  cases input with
  | reset => exact ⟨listener.reset, [], rfl, ⟨onQueue.matcher, onQueue.timer⟩, by simp⟩
  | input stamped =>
      change ∃ next calls, listener.receive stamped = _ ∧ _
      unfold TimerListener.receive
      cases isFor : Matcher.isMatcherFor (BeginEndMatcher construct M) stamped.event.type with
      | false => exact ⟨listener, [], rfl, onQueue, by simp⟩
      | true =>
          obtain ⟨next, calls, called, later, queued⟩ := onQueue.call guarded isFor
          rw [if_pos rfl, called]
          exact ⟨next, calls, rfl, later, fun started => ⟨stamped, rfl, queued started⟩⟩

/-- A listener that is on its queue stays there on every trace, by induction on the trace. -/
theorem OnQueue.startsOnOwnQueue (onQueue : OnQueue devId exec listener)
    (guarded : GuardedTimer devId)
    : StartsOnOwnQueue devId listener := by
  intro history input
  obtain ⟨reached, report, ran, later⟩
      : ∃ reached report,
          runSteps TimerListener.receiveOrReset history listener = some (reached, report)
          ∧ OnQueue devId exec reached := by
    apply runSteps_history
    · exact onQueue
    · intro earlier entry middle shown extended before
      obtain ⟨next, calls, received, after, -⟩ := before.receiveOrReset guarded entry
      exact ⟨next, [calls], received, after⟩
  obtain ⟨next, calls, received, -, queued⟩ := later.receiveOrReset guarded input
  exact ⟨reached, report, next, calls, ran, received, queued⟩

end

/-- A new listener is on the queue of the execution space that it is constructed with. -/
theorem BeginEndTimerListener.new_onQueue [ExecTimerType θ T] {devId : T → UInt32}
    (guarded : GuardedTimer devId) (matcher : M) (exec : ExecutionSpace)
    : OnQueue devId exec (.new construct matcher exec) :=
  ⟨rfl, guarded.ofExec exec⟩

/-- The abort in `start` of both timers for enqueued events is unreachable from the listener, for
each name matcher, with or without state, and on every trace of events and resets.
-/
theorem beginEndTimerListener_startsOnOwnQueue [Matcher M] (construct : Construct) (matcher : M)
    (exec : ExecutionSpace)
    : StartsOnOwnQueue EnqueuedEventTimer.devId
        (.new construct matcher exec
          : BeginEndTimerListener construct M (EnqueuedEventTimer θ))
      ∧ StartsOnOwnQueue EnqueuedEventWithLaunchTimer.devId
          (.new construct matcher exec
            : BeginEndTimerListener construct M (EnqueuedEventWithLaunchTimer θ)) := by
  have plain := EnqueuedEventTimer.guarded (θ := θ)
  have withLaunch := EnqueuedEventWithLaunchTimer.guarded (θ := θ)
  exact ⟨(BeginEndTimerListener.new_onQueue plain matcher exec).startsOnOwnQueue plain,
    (BeginEndTimerListener.new_onQueue withLaunch matcher exec).startsOnOwnQueue withLaunch⟩

end KokkosUtils.Callbacks
