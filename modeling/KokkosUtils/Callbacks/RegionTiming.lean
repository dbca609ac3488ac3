import KokkosUtils.Callbacks.RegionTimerListener

/-! What the timer of a RegionTimerListener has measured in each state of the listener.
`Timer<void>` measures the matched region. EnqueuedEventTimer is never started, since a push
event is not enqueued on an execution space instance.
-/

namespace KokkosUtils.Callbacks

open KokkosUtils.Foundations

variable {θ δ M T : Type} [HSub θ θ δ]

/-- A connected listener has started its timer at the matched push event. A closed one has
also stopped it at the corresponding pop event, and its timer has a duration.
-/
structure TimedSoFar (δ : Type) [HSub θ θ δ] [Matcher M] (matcher : M)
    (history : List (Stamped θ)) (listener : RegionTimerListener M T) (timer : Timers.Timer θ)
    : Prop where
  connected
    : listener.connected = true
      → ∃ push pushed,
          firstPush matcher history = some push
          ∧ history[push]? = some pushed
          ∧ timer.tick = some (.record pushed.moment)
  closed
    : listener.closed = true
      → ∃ push pushed pop popped,
          firstPush matcher history = some push
          ∧ history[push]? = some pushed
          ∧ correspondingPop matcher history = some pop
          ∧ history[pop]? = some popped
          ∧ timer.tick = some (.record pushed.moment)
          ∧ timer.tock = some (.record popped.moment)
          ∧ timer.isValid = true
          ∧ (timer.duration : Option δ).isSome = true

/-- A listener times its region in each state of its run over a stream; `measured` is the timer
that measures the durations.
-/
def TimesRegion (δ : Type) [HSub θ θ δ] [Matcher M] [TimerType θ T] (measured : T → Timers.Timer θ)
    (matcher : M) (stream : List (Stamped θ)) (listener : RegionTimerListener M T)
    : Prop :=
  ∀ history,
    history <+: stream
    → ∃ final report,
        runSteps TimerListener.receive history listener = some (final, report)
        ∧ TimedSoFar δ matcher history final (measured final.timer)

section

variable [Matcher M]

/-- What opened the span is the event at the first matching push. -/
theorem exists_firstPush {matcher : M} {history : List (Stamped θ)} {pushed : Stamped θ}
    (opening : (regionDetector matcher).openingInput history = some pushed)
    : ∃ push, firstPush matcher history = some push ∧ history[push]? = some pushed := by
  rw [SpanDetector.openingInput, regionDetector_openedAt] at opening
  exact Option.bind_eq_some_iff.mp opening

/-- What closed the span is the event at the pop that corresponds to the first matching push. -/
theorem exists_correspondingPop {matcher : M} {history : List (Stamped θ)} {popped : Stamped θ}
    (closing : (regionDetector matcher).closingInput history = some popped)
    : ∃ pop, correspondingPop matcher history = some pop ∧ history[pop]? = some popped := by
  rw [SpanDetector.closingInput, regionDetector_closedAt] at closing
  exact Option.bind_eq_some_iff.mp closing

end

/-- The expected actions on an EnqueuedEventTimer, whose `start` is never called. -/
def enqueuedTiming [Matcher M] (matcher : M) (initial : EnqueuedEventTimer θ)
    : SpanTiming θ (RegionMatcher M) (EnqueuedEventTimer θ) ℕ :=
  regionTiming matcher initial (fun _ => initial)
    (fun moment self => { self with timer := self.timer.stop moment }) [] [.stop]

/-- A listener that acts as expected on a `Timer<void>` times its region. -/
theorem timedSoFar_of_tracks [Matcher M] {matcher : M} {initial : Timers.Timer θ}
    {history : List (Stamped θ)} {listener : RegionTimerListener M (Timers.Timer θ)}
    {report : List (List TimerCall)}
    (tracks : (voidTiming matcher initial).Tracks history listener report)
    : TimedSoFar δ matcher history listener listener.timer := by
  constructor
  · intro connected
    rw [tracks.connected_eq, Bool.and_eq_true, Option.isSome_iff_exists,
      Option.isNone_iff_eq_none] at connected
    obtain ⟨⟨pushed, opening⟩, unclosed⟩ := connected
    obtain ⟨push, first, there⟩ := exists_firstPush opening
    refine ⟨push, pushed, first, there, ?_⟩
    rw [tracks.timer, SpanTiming.timerAfter, opening, unclosed]
    rfl
  · intro closed
    have ended := tracks.closed_eq.symm.trans closed
    have begun := Span.begun_of_ended ended
    rw [← SpanDetector.isSome_closingInput, Option.isSome_iff_exists] at ended
    rw [← SpanDetector.isSome_openingInput, Option.isSome_iff_exists] at begun
    obtain ⟨popped, closing⟩ := ended
    obtain ⟨pushed, opening⟩ := begun
    obtain ⟨push, first, pushedThere⟩ := exists_firstPush opening
    obtain ⟨pop, corresponding, poppedThere⟩ := exists_correspondingPop closing
    have timer
        : listener.timer = ((initial.start pushed.moment).stop popped.moment) := by
      rw [tracks.timer, SpanTiming.timerAfter, opening, closing]
      rfl
    refine ⟨push, pushed, pop, popped, first, pushedThere, corresponding, poppedThere, ?_⟩
    rw [Timers.Timer.duration_isSome, timer]
    exact ⟨rfl, rfl, rfl, rfl⟩

/-- A fresh listener with an EnqueuedEventTimer only stops it: push events have no `dev_id`,
so that no overload of `start` exists for them.
-/
theorem enqueuedTiming_run [StatelessMatcher M] {matcher : M}
    {listener : RegionTimerListener M (EnqueuedEventTimer θ)} {stream : List (Stamped θ)}
    (fresh : listener.Fresh matcher) (depth : NestedBelow UInt32.size stream)
    : ∃ final report,
        runSteps TimerListener.receive stream listener = some (final, report)
        ∧ (enqueuedTiming matcher listener.timer).Tracks stream final report := by
  refine regionTiming_run (fun {input} pushed => ?_) (fun _ _ => rfl) fresh depth
  obtain ⟨moment, event⟩ := input
  cases event <;> first | rfl | cases pushed

/-- The EnqueuedEventTimer of a region timer listener never gets a `tick`. -/
theorem enqueuedTiming_tick [Matcher M] (matcher : M) (initial : EnqueuedEventTimer θ)
    (history : List (Stamped θ))
    : ((enqueuedTiming matcher initial).timerAfter history).timer.tick = initial.timer.tick := by
  unfold SpanTiming.timerAfter
  split <;> rfl

/-- The span has begun exactly when the matcher accepts a push event of the stream. -/
theorem begun_iff_matchedPush [Matcher M] {matcher : M} {history : List (Stamped θ)}
    : ((regionDetector matcher).after history).begun = false
      ↔ ∀ stamped ∈ history, matchedPush matcher stamped = false := by
  rw [← SpanDetector.openedAt_eq_none, regionDetector_openedAt, firstPush,
    List.findIdx?_eq_none_iff]

/-- A timer without a `tick` has timed no region, unless the listener has matched nothing. -/
theorem TimedSoFar.waiting_of_tick_eq_none [Matcher M] {matcher : M} {history : List (Stamped θ)}
    {listener : RegionTimerListener M T} {timer : Timers.Timer θ}
    (timed : TimedSoFar δ matcher history listener timer) (unstarted : timer.tick = none)
    : listener.matchedBegin = false := by
  cases begun : listener.matchedBegin with
  | false => rfl
  | true =>
      cases ended : listener.matchedEnd with
      | false =>
          have connected : listener.connected = true := by
            rw [TimerListener.connected, begun, ended]
            rfl
          obtain ⟨push, pushed, -, -, started⟩ := timed.connected connected
          rw [unstarted] at started
          cases started
      | true =>
          have closed : listener.closed = true := by
            rw [TimerListener.closed, begun, ended]
            rfl
          obtain ⟨push, pushed, pop, popped, -, -, -, -, started, -⟩ := timed.closed closed
          rw [unstarted] at started
          cases started

/-- RegionTimerListener times its region with a `Timer<void>` in each state of each run. With
an EnqueuedEventTimer it does so exactly when no push event of the run is accepted: once the
listener is connected, the timer has no `tick`.
-/
theorem regionTimerListener_times [StatelessMatcher M] (matcher : M) (exec : ExecutionSpace)
    (stream : List (Stamped θ)) (depth : NestedBelow UInt32.size stream)
    : TimesRegion δ id matcher stream (.new matcher ({} : Timers.Timer θ))
      ∧ (TimesRegion δ EnqueuedEventTimer.timer matcher stream
            (.new matcher ({ exec := exec } : EnqueuedEventTimer θ))
          ↔ ∀ stamped ∈ stream, matchedPush matcher stamped = false) := by
  refine ⟨?_, ?_, ?_⟩
  · intro history earlier
    obtain ⟨final, report, ran, tracks⟩ :=
      voidTiming_run (RegionTimerListener.fresh_new matcher {}) (depth.of_earlier earlier)
    exact ⟨final, report, ran, timedSoFar_of_tracks tracks⟩
  · intro times
    obtain ⟨final, report, ran, timed⟩ := times stream List.prefix_rfl
    obtain ⟨same, shown, ranAgain, tracks⟩ :=
      enqueuedTiming_run (RegionTimerListener.fresh_new matcher { exec := exec }) depth
    rw [ran] at ranAgain
    cases ranAgain
    have unstarted : final.timer.timer.tick = none := by
      rw [tracks.timer]
      exact enqueuedTiming_tick ..
    exact begun_iff_matchedPush.mp
      (tracks.begun.symm.trans (timed.waiting_of_tick_eq_none unstarted))
  · intro unmatched history earlier
    obtain ⟨final, report, ran, tracks⟩ :=
      enqueuedTiming_run (RegionTimerListener.fresh_new matcher { exec := exec })
        (depth.of_earlier earlier)
    have waiting : final.matchedBegin = false :=
      tracks.begun.trans
        (begun_iff_matchedPush.mpr fun stamped member => unmatched stamped (earlier.mem member))
    refine ⟨final, report, ran, ?_, ?_⟩
    · intro connected
      rw [TimerListener.connected, waiting] at connected
      cases connected
    · intro closed
      rw [TimerListener.closed, waiting] at closed
      cases closed

/-- A region with another one nested in it. -/
def nestedRegions : List (Stamped ℕ) :=
  [
    { moment := 1, event := .pushRegionEvent "region" },
    { moment := 2, event := .pushRegionEvent "nested" },
    { moment := 3, event := .popRegionEvent },
    { moment := 4, event := .popRegionEvent }
  ]

theorem regionTimerListener_times_nested
    : TimesRegion ℕ id ({ name := "region" } : EventNameMatcher) nestedRegions
        (.new { name := "region" } {})
      ∧ (TimesRegion ℕ EnqueuedEventTimer.timer ({ name := "region" } : EventNameMatcher)
            nestedRegions (.new { name := "region" } { exec := { deviceId := 1 } })
          ↔ ∀ stamped ∈ nestedRegions,
              matchedPush ({ name := "region" } : EventNameMatcher) stamped = false) :=
  regionTimerListener_times _ _ _ (by decide)

/-- The listener closes on these events while its EnqueuedEventTimer was never started. -/
theorem enqueuedEventTimer_not_started
    : NestedBelow UInt32.size nestedRegions
      ∧ ¬ TimesRegion ℕ EnqueuedEventTimer.timer ({ name := "region" } : EventNameMatcher)
            nestedRegions (.new { name := "region" } { exec := { deviceId := 1 } }) := by
  refine ⟨by decide, fun times => ?_⟩
  obtain ⟨final, report, ran, timed⟩ := times nestedRegions List.prefix_rfl
  obtain ⟨rfl, rfl⟩ := Prod.mk.inj (Option.some.inj ran)
  have waiting := timed.waiting_of_tick_eq_none rfl
  cases waiting

end KokkosUtils.Callbacks
