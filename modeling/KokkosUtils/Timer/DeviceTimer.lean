import KokkosUtils.Foundations.PartialRuns
import KokkosUtils.Timer.Timer
import Mathlib.Logic.Function.Basic

/-! Timers of the execution spaces Cuda and HIP, whose events are objects of the device's runtime.
The runtime is a parameter; what the timers call of it is kept beside its state. No result stands
for an error of the runtime, from which the call does not return, and for undefined behaviour.
-/

namespace KokkosUtils.Timers

open KokkosUtils.Foundations

/-- The functions of the runtime of Cuda or HIP that timers call, on the state of the runtime, which
includes the device and what works on it. A pointer to an event may be null, and a stream is that of
an execution space instance. A function has no result if it returns an error code.
-/
structure DeviceRuntime (ρ ε κ μ : Type) where
  eventCreate : ρ → Option (ρ × ε)
  eventRecord : Option ε → κ → ρ → Option ρ
  eventSynchronize : Option ε → ρ → Option ρ
  eventElapsedTime : Option ε → Option ε → ρ → Option (ρ × μ)
  eventDestroy : ε → ρ → Option ρ

/-- What is relied on in the runtime: which of its events are in use. A new one was not in use, only
the destruction of an event takes it out of use, and a null pointer is neither recorded nor waited
for.
-/
structure DeviceRuntime.Documented {ρ ε κ μ : Type} (runtime : DeviceRuntime ρ ε κ μ)
    (inUse : ρ → ε → Prop)
    : Prop where
  eventCreate
    : ∀ {state next event},
        runtime.eventCreate state = some (next, event)
        → ¬inUse state event ∧ inUse next event ∧ ∀ other, inUse state other → inUse next other
  eventRecord
    : ∀ {pointer stream state next},
        runtime.eventRecord pointer stream state = some next
        → pointer.isSome = true ∧ ∀ other, inUse state other → inUse next other
  eventSynchronize
    : ∀ {pointer state next},
        runtime.eventSynchronize pointer state = some next
        → pointer.isSome = true ∧ ∀ other, inUse state other → inUse next other
  eventElapsedTime
    : ∀ {start stop state next milliseconds},
        runtime.eventElapsedTime start stop state = some (next, milliseconds)
        → ∀ other, inUse state other → inUse next other
  eventDestroy
    : ∀ {event state next},
        runtime.eventDestroy event state = some next
        → ∀ other, other ≠ event → inUse state other → inUse next other

/-- A call of the runtime that has returned, with what it returned. -/
inductive RuntimeCall (ε κ μ : Type)
  | created (event : ε)
  | recorded (pointer : Option ε) (stream : κ)
  | synchronized (pointer : Option ε)
  | measured (start stop : Option ε) (milliseconds : μ)
  | destroyed (event : ε)
  deriving DecidableEq, Repr

/-- `Event<Kokkos::Cuda>` and `Event<Kokkos::HIP>`, with the pointer that it owns. -/
structure DeviceEvent (ε : Type) where
  event : Option ε
  deriving DecidableEq, Repr

/-- `Timer<Kokkos::Cuda>` and `Timer<Kokkos::HIP>`. -/
structure DeviceTimer (ε : Type) where
  tick : Option (DeviceEvent ε) := none
  tock : Option (DeviceEvent ε) := none
  deriving DecidableEq, Repr

/-- The members of a timer. -/
inductive Member
  | tick
  | tock
  deriving DecidableEq, Repr

variable {ρ ε κ μ δ : Type}

/-- The event that a member holds. -/
def DeviceTimer.get (timer : DeviceTimer ε) : Member → Option (DeviceEvent ε)
  | .tick => timer.tick
  | .tock => timer.tock

/-- Stores or removes an event. -/
def DeviceTimer.set (timer : DeviceTimer ε) (event : Option (DeviceEvent ε))
    : Member → DeviceTimer ε
  | .tick => { timer with tick := event }
  | .tock => { timer with tock := event }

/-- The storage of a timer. -/
abbrev Object := ℕ

/-- The timers that are alive, the state of the runtime, and the calls that timers have made of it.
-/
structure DeviceWorld (ρ ε κ μ : Type) where
  timers : Object → Option (DeviceTimer ε) := fun _ => none
  state : ρ
  calls : List (RuntimeCall ε κ μ) := []

namespace DeviceWorld

/-- The event that a member of a timer holds. -/
def event (world : DeviceWorld ρ ε κ μ) (object : Object) (member : Member)
    : Option (DeviceEvent ε) :=
  (world.timers object).bind fun timer => timer.get member

/-- Stores or removes an event. -/
def setEvent (world : DeviceWorld ρ ε κ μ) (object : Object) (member : Member)
    (event : Option (DeviceEvent ε))
    : DeviceWorld ρ ε κ μ :=
  {
    world with
    timers :=
      Function.update world.timers object
        ((world.timers object).map fun timer => timer.set event member)
  }

/-- The world after a call of the runtime. -/
def called (world : DeviceWorld ρ ε κ μ) (state : ρ) (call : RuntimeCall ε κ μ)
    : DeviceWorld ρ ε κ μ :=
  { world with state := state, calls := world.calls ++ [call] }

-----------------------------------------------------------------------------------------
-- Events
-----------------------------------------------------------------------------------------

section

variable (runtime : DeviceRuntime ρ ε κ μ) (world : DeviceWorld ρ ε κ μ)

/-- The default constructor of an event. -/
def eventCreate : Option (DeviceWorld ρ ε κ μ × DeviceEvent ε) :=
  (runtime.eventCreate world.state).map fun (state, event) =>
    (world.called state (.created event), { event := some event })

/-- `Event::record`, in the stream of an execution space instance. -/
def eventRecord (event : DeviceEvent ε) (stream : κ) : Option (DeviceWorld ρ ε κ μ) :=
  (runtime.eventRecord event.event stream world.state).map fun state =>
    world.called state (.recorded event.event stream)

/-- Waits for an event. -/
def eventSynchronize (event : DeviceEvent ε) : Option (DeviceWorld ρ ε κ μ) :=
  (runtime.eventSynchronize event.event world.state).map fun state =>
    world.called state (.synchronized event.event)

/-- `Event::elapsed`, which waits for both events first. -/
def elapsed (event other : DeviceEvent ε) : Option (DeviceWorld ρ ε κ μ × μ) :=
  (world.eventSynchronize runtime other).bind fun world =>
    (world.eventSynchronize runtime event).bind fun world =>
      (runtime.eventElapsedTime event.event other.event world.state).map
        fun (state, milliseconds) =>
          (world.called state (.measured event.event other.event milliseconds), milliseconds)

/-- Destroys the event that a member holds. The deleter destroys the event of the runtime, unless
the pointer to it is null.
-/
def reset (object : Object) (member : Member) : Option (DeviceWorld ρ ε κ μ) :=
  match world.event object member with
  | some { event := some event } =>
      (runtime.eventDestroy event world.state).map fun state =>
        (world.called state (.destroyed event)).setEvent object member none
  | _ => some (world.setEvent object member none)

end

/-- Hands the event over that a member holds. The source then holds an event that owns nothing. -/
def handOver (world : DeviceWorld ρ ε κ μ) (target source : Object) (member : Member)
    : DeviceWorld ρ ε κ μ :=
  match world.event source member with
  | some event =>
      (world.setEvent source member (some { event := none })).setEvent target member (some event)
  | none => world

-----------------------------------------------------------------------------------------
-- Timers
-----------------------------------------------------------------------------------------

/-- The default constructor. -/
def construct (world : DeviceWorld ρ ε κ μ) (object : Object) : Option (DeviceWorld ρ ε κ μ) :=
  if (world.timers object).isSome then none
  else some { world with timers := Function.update world.timers object (some {}) }

section

variable (runtime : DeviceRuntime ρ ε κ μ) (world : DeviceWorld ρ ε κ μ)

/-- The move assignment of a member, and its move construction where the target holds no event. -/
def moveMember (target source : Object) (member : Member) : Option (DeviceWorld ρ ε κ μ) :=
  (world.reset runtime target member).map fun world => world.handOver target source member

/-- The move assignment of a timer, member by member. -/
def moveAssign (target source : Object) : Option (DeviceWorld ρ ε κ μ) :=
  (world.timers target).bind fun _ =>
    (world.timers source).bind fun _ =>
      if target = source then
        some world
      else
        (world.moveMember runtime target source .tick).bind fun world =>
          world.moveMember runtime target source .tock

/-- The move constructor. -/
def moveConstruct (target source : Object) : Option (DeviceWorld ρ ε κ μ) :=
  if target = source then none
  else (world.construct target).bind fun world => world.moveAssign runtime target source

/-- The destructor, which destroys the members in reverse order. -/
def destroy (object : Object) : Option (DeviceWorld ρ ε κ μ) :=
  (world.timers object).bind fun _ =>
    (world.reset runtime object .tock).bind fun world =>
      (world.reset runtime object .tick).map fun world =>
        { world with timers := Function.update world.timers object none }

/-- `start` and `stop`, on their member, which makes an event if it holds none. -/
def record (object : Object) (member : Member) (stream : κ) : Option (DeviceWorld ρ ε κ μ) :=
  (world.timers object).bind fun _ =>
    match world.event object member with
    | none =>
        (world.eventCreate runtime).bind fun (world, event) =>
          (world.setEvent object member (some event)).eventRecord runtime event stream
    | some event => world.eventRecord runtime event stream

/-- `duration`, with the conversion of the runtime's milliseconds to the requested `Duration`. -/
def duration (durationCast : μ → δ) (object : Object) : Option (DeviceWorld ρ ε κ μ × δ) :=
  (world.timers object).bind fun timer =>
    timer.tick.bind fun tick =>
      timer.tock.bind fun tock =>
        (world.elapsed runtime tick tock).map fun (world, milliseconds) =>
          (world, durationCast milliseconds)

end

end DeviceWorld

/-- What a program does with its timers, and what the device and other code do with the runtime. -/
inductive TimerOperation (ρ κ : Type)
  | construct (object : Object)
  | moveConstruct (target source : Object)
  | moveAssign (target source : Object)
  | destroy (object : Object)
  | start (object : Object) (stream : κ)
  | stop (object : Object) (stream : κ)
  | duration (object : Object)
  | others (change : ρ → ρ)

/-- Performs an operation and reports the durations that it returns. -/
def TimerOperation.perform (runtime : DeviceRuntime ρ ε κ μ) (durationCast : μ → δ)
    (world : DeviceWorld ρ ε κ μ)
    : TimerOperation ρ κ → Option (DeviceWorld ρ ε κ μ × List δ)
  | .construct object => (world.construct object).map fun world => (world, [])
  | .moveConstruct target source =>
      (world.moveConstruct runtime target source).map fun world => (world, [])
  | .moveAssign target source =>
      (world.moveAssign runtime target source).map fun world => (world, [])
  | .destroy object => (world.destroy runtime object).map fun world => (world, [])
  | .start object stream => (world.record runtime object .tick stream).map fun world => (world, [])
  | .stop object stream => (world.record runtime object .tock stream).map fun world => (world, [])
  | .duration object =>
      (world.duration runtime durationCast object).map fun (world, elapsed) => (world, [elapsed])
  | .others change => some ({ world with state := change world.state }, [])

/-- Performs some operations. -/
def runTimers (runtime : DeviceRuntime ρ ε κ μ) (durationCast : μ → δ)
    : List (TimerOperation ρ κ) → DeviceWorld ρ ε κ μ → Option (DeviceWorld ρ ε κ μ × List δ) :=
  runSteps fun operation world => operation.perform runtime durationCast world

end KokkosUtils.Timers
