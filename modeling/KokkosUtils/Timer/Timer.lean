import Mathlib.Data.Option.Basic

/-! Timers that measure the time elapsed between two recorded events.
The clock is arbitrary: each operation is given the moment at which its event records.
-/

namespace KokkosUtils.Timers

variable {θ δ : Type}

/-- A recorded `Event`, on the host or on an execution space instance. -/
structure Event (θ : Type) where
  event : θ
  deriving DecidableEq, Repr

/-- `Event::record`, whatever the event held before. -/
def Event.record (now : θ) : Event θ := { event := now }

/-- `Event::duration`, without the conversion to a unit of time. -/
def Event.duration [HSub θ θ δ] (event other : Event θ) : δ := other.event - event.event

/-- `Timer<T>`. -/
structure Timer (θ : Type) where
  tick : Option (Event θ) := none
  tock : Option (Event θ) := none
  deriving DecidableEq, Repr

namespace Timer

/-- `is_valid`. -/
def isValid (timer : Timer θ) : Bool := timer.tick.isSome && timer.tock.isSome

/-- `duration`; no result stands for the dereference of an empty `tick` or `tock`. -/
def duration [HSub θ θ δ] (timer : Timer θ) : Option δ :=
  timer.tick.bind (fun tick => timer.tock.map (fun tock => tick.duration tock))

/-- `start`, for `void` and for an execution space. -/
def start (now : θ) (timer : Timer θ) : Timer θ := { timer with tick := some (.record now) }

/-- `stop`, for `void` and for an execution space. -/
def stop (now : θ) (timer : Timer θ) : Timer θ := { timer with tock := some (.record now) }

/-- A valid timer has a duration, and only a valid one does. -/
theorem duration_isSome [HSub θ θ δ] (timer : Timer θ)
    : (timer.duration : Option δ).isSome = timer.isValid := by
  unfold duration isValid
  cases timer.tick <;> cases timer.tock <;> rfl

end Timer

end KokkosUtils.Timers
