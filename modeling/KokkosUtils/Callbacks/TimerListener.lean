import KokkosUtils.Callbacks.Matchers
import KokkosUtils.Timer.Timer

/-! TimerListener and the timers for enqueued events.
Whether a listener calls `start` and `stop` at all depends on the overloads that its timer
type has for the type of the event.
-/

namespace KokkosUtils.Callbacks

variable {θ M T : Type}

/-- An event and the moment at which it is handled. -/
structure Stamped (θ : Type) where
  moment : θ
  event : KokkosEvent

/-- The calls that a listener makes to its timer. -/
inductive TimerCall
  | start
  | stop
  deriving DecidableEq, Repr

/-- The overloads of `start` and `stop` of a timer type: without arguments, and for an event
of a type. A missing result stands for `Kokkos::abort`.
-/
class TimerType (θ : outParam Type) (T : Type) where
  start : Option (θ → T → T)
  startWithEvent : KokkosEventType → Option (θ → KokkosEvent → T → Option T)
  stop : Option (θ → T → T)
  stopWithEvent : KokkosEventType → Option (θ → KokkosEvent → T → Option T)

/-- `Timer<void>` has the overloads without arguments only. -/
instance : TimerType θ (Timers.Timer θ) where
  start := some Timers.Timer.start
  startWithEvent := fun _ => none
  stop := some Timers.Timer.stop
  stopWithEvent := fun _ => none

/-- The concept `EnqueuedEvent`. -/
def KokkosEventType.isEnqueuedEvent : KokkosEventType → Bool
  | .beginEvent _ => true
  | _ => false

/-- `EnqueuedEventTimer`. -/
structure EnqueuedEventTimer (θ : Type) where
  exec : ExecutionSpace
  devId : UInt32 := exec.deviceId
  timer : Timers.Timer θ := {}

namespace EnqueuedEventTimer

/-- `start`, which aborts for an event on another execution space instance. -/
def start (now : θ) (event : KokkosEvent) (self : EnqueuedEventTimer θ)
    : Option (EnqueuedEventTimer θ) :=
  if event.devId? ≠ some self.devId then none
  else some { self with timer := self.timer.start now }

/-- `stop`. -/
def stop (now : θ) (_ : KokkosEvent) (self : EnqueuedEventTimer θ)
    : Option (EnqueuedEventTimer θ) :=
  some { self with timer := self.timer.stop now }

end EnqueuedEventTimer

instance : TimerType θ (EnqueuedEventTimer θ) where
  start := none
  startWithEvent := fun type => if type.isEnqueuedEvent then some EnqueuedEventTimer.start else none
  stop := none
  stopWithEvent := fun _ => some EnqueuedEventTimer.stop

/-- `EnqueuedEventWithLaunchTimer`. -/
structure EnqueuedEventWithLaunchTimer (θ : Type) where
  exec : ExecutionSpace
  devId : UInt32 := exec.deviceId
  timer : Timers.Timer θ := {}
  timerLaunch : Timers.Timer θ := {}

namespace EnqueuedEventWithLaunchTimer

/-- `start`, which aborts for an event on another execution space instance. -/
def start (now : θ) (event : KokkosEvent) (self : EnqueuedEventWithLaunchTimer θ)
    : Option (EnqueuedEventWithLaunchTimer θ) :=
  if event.devId? ≠ some self.devId then none
  else some { self with timer := self.timer.start now, timerLaunch := self.timerLaunch.start now }

/-- `stop`. -/
def stop (now : θ) (_ : KokkosEvent) (self : EnqueuedEventWithLaunchTimer θ)
    : Option (EnqueuedEventWithLaunchTimer θ) :=
  some { self with timerLaunch := self.timerLaunch.stop now, timer := self.timer.stop now }

end EnqueuedEventWithLaunchTimer

instance : TimerType θ (EnqueuedEventWithLaunchTimer θ) where
  start := none
  startWithEvent := fun type =>
    if type.isEnqueuedEvent then some EnqueuedEventWithLaunchTimer.start else none
  stop := none
  stopWithEvent := fun _ => some EnqueuedEventWithLaunchTimer.stop

/-- A timer type whose objects are constructed from an execution space instance. -/
class ExecTimerType (θ : outParam Type) (T : Type) extends TimerType θ T where
  ofExec : ExecutionSpace → T

instance : ExecTimerType θ (EnqueuedEventTimer θ) where
  ofExec := fun exec => { exec := exec }

instance : ExecTimerType θ (EnqueuedEventWithLaunchTimer θ) where
  ofExec := fun exec => { exec := exec }

/-- Starts a timer as `if constexpr` selects for the event's type: by `start()`, by
`start(event)`, or not at all.
-/
def startTimer [TimerType θ T] (now : θ) (event : KokkosEvent) (timer : T)
    : Option (T × List TimerCall) :=
  match (TimerType.start : Option (θ → T → T)) with
  | some start => some (start now timer, [.start])
  | none =>
      match (TimerType.startWithEvent event.type : Option (θ → KokkosEvent → T → Option T)) with
      | some start => (start now event timer).map (fun started => (started, [.start]))
      | none => some (timer, [])

/-- Stops a timer in the same way. -/
def stopTimer [TimerType θ T] (now : θ) (event : KokkosEvent) (timer : T)
    : Option (T × List TimerCall) :=
  match (TimerType.stop : Option (θ → T → T)) with
  | some stop => some (stop now timer, [.stop])
  | none =>
      match (TimerType.stopWithEvent event.type : Option (θ → KokkosEvent → T → Option T)) with
      | some stop => (stop now event timer).map (fun stopped => (stopped, [.stop]))
      | none => some (timer, [])

/-- `TimerListener`. -/
structure TimerListener (M T : Type) where
  matcher : M
  timer : T
  matchedBegin : Bool := false
  matchedEnd : Bool := false

namespace TimerListener

/-- `connected`. -/
def connected (listener : TimerListener M T) : Bool := listener.matchedBegin && !listener.matchedEnd

/-- `closed`. -/
def closed (listener : TimerListener M T) : Bool := listener.matchedBegin && listener.matchedEnd

/-- `reset`. -/
def reset (listener : TimerListener M T) : TimerListener M T :=
  { listener with matchedBegin := false, matchedEnd := false }

variable [Matcher M] [TimerType θ T]

/-- `operator()`, with the calls it makes to the timer. -/
def call (now : θ) (event : KokkosEvent) (listener : TimerListener M T)
    : Option (TimerListener M T × List TimerCall) :=
  if listener.closed then
    some (listener, [])
  else
    let (matching, matcher) := Matcher.call event listener.matcher
    let listener := { listener with matcher := matcher }
    if !listener.matchedBegin && matching then
      (startTimer now event listener.timer).map
        (fun (timer, calls) => ({ listener with matchedBegin := true, timer := timer }, calls))
    else if listener.matchedBegin && !listener.matchedEnd && matching then
      (stopTimer now event listener.timer).map
        (fun (timer, calls) => ({ listener with matchedEnd := true, timer := timer }, calls))
    else
      some (listener, [])

variable {now : θ} {event : KokkosEvent} {listener : TimerListener M T}

/-- A closed listener ignores all events. -/
theorem call_of_closed (closed : listener.closed = true)
    : listener.call now event = some (listener, []) := by
  rw [call, if_pos closed]

/-- An event that does not match changes the matcher only. -/
theorem call_of_not_matching (opened : listener.closed = false)
    (matching : (Matcher.call event listener.matcher).1 = false)
    : listener.call now event
      = some ({ listener with matcher := (Matcher.call event listener.matcher).2 }, []) := by
  simp [call, opened, matching]

/-- The first event that matches starts the timer. -/
theorem call_of_begin (waiting : listener.matchedBegin = false)
    (matching : (Matcher.call event listener.matcher).1 = true)
    : listener.call now event
      = (startTimer now event listener.timer).map
          (fun (timer, calls) =>
            (
              {
                listener with
                matcher := (Matcher.call event listener.matcher).2
                matchedBegin := true
                timer := timer
              },
              calls
            )) := by
  simp [call, closed, waiting, matching]

/-- The second event that matches stops the timer. -/
theorem call_of_end (begun : listener.matchedBegin = true) (opened : listener.matchedEnd = false)
    (matching : (Matcher.call event listener.matcher).1 = true)
    : listener.call now event
      = (stopTimer now event listener.timer).map
          (fun (timer, calls) =>
            (
              {
                listener with
                matcher := (Matcher.call event listener.matcher).2
                matchedEnd := true
                timer := timer
              },
              calls
            )) := by
  simp [call, closed, begun, opened, matching]

/-- Delivers an event to a listener, which is invocable with the types its matcher is for. The
report has one entry for each event: the calls made to the timer.
-/
def receive (stamped : Stamped θ) (listener : TimerListener M T)
    : Option (TimerListener M T × List (List TimerCall)) :=
  if Matcher.isMatcherFor M stamped.event.type then
    (listener.call stamped.moment stamped.event).map (fun (next, calls) => (next, [calls]))
  else
    some (listener, [[]])

end TimerListener

end KokkosUtils.Callbacks
