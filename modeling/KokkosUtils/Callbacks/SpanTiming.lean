import KokkosUtils.Callbacks.TimerListener
import KokkosUtils.Foundations.Spans

/-! Timer listeners whose matcher detects a span of the stream of events.
Such a listener starts its timer where the span opens and stops it where the span closes;
its flags, its timer and its report are functions of the events so far.
-/

namespace KokkosUtils.Callbacks

open KokkosUtils.Foundations

variable {θ M T κ : Type}

/-- How a listener is expected to act on a stream: the span it times, the states of its matcher
along it, its timer before the span, and what the calls make of the timer.
-/
structure SpanTiming (θ M T κ : Type) where
  detector : SpanDetector (Stamped θ) κ
  follows : Span κ → M → Prop
  initial : T
  started : θ → T
  stopped : θ → T → T
  startCalls : List TimerCall
  stopCalls : List TimerCall

namespace SpanTiming

/-- The timer after a stream. -/
def timerAfter (timing : SpanTiming θ M T κ) (history : List (Stamped θ)) : T :=
  match timing.detector.openingInput history, timing.detector.closingInput history with
  | none, _ => timing.initial
  | some opening, none => timing.started opening.moment
  | some opening, some closing => timing.stopped closing.moment (timing.started opening.moment)

/-- A listener and its report after a stream are as expected. -/
structure Tracks (timing : SpanTiming θ M T κ) (history : List (Stamped θ))
    (listener : TimerListener M T) (report : List (List TimerCall))
    : Prop where
  begun : listener.matchedBegin = (timing.detector.after history).begun
  ended : listener.matchedEnd = (timing.detector.after history).ended
  matcher : timing.follows (timing.detector.after history) listener.matcher
  timer : listener.timer = timing.timerAfter history
  report : report = timing.detector.marks timing.startCalls timing.stopCalls history

variable {timing : SpanTiming θ M T κ}

/-- The timer changes exactly where the span does. -/
theorem timerAfter_concat (history : List (Stamped θ)) (input : Stamped θ)
    : timing.timerAfter (history ++ [input])
      = if timing.detector.changes input (timing.detector.after history) then
          if (timing.detector.after history).begun then
            timing.stopped input.moment (timing.timerAfter history)
          else
            timing.started input.moment
        else
          timing.timerAfter history := by
  have opening := timing.detector.isSome_openingInput history
  have closing := timing.detector.isSome_closingInput history
  unfold timerAfter
  rw [SpanDetector.openingInput_concat, SpanDetector.closingInput_concat]
  cases changed : timing.detector.changes input (timing.detector.after history) with
  | false => simp
  | true =>
      have unended := SpanDetector.not_ended_of_changes changed
      rw [unended, Option.isSome_eq_false_iff, Option.isNone_iff_eq_none] at closing
      rw [closing]
      cases begun : (timing.detector.after history).begun with
      | false =>
          rw [begun, Option.isSome_eq_false_iff, Option.isNone_iff_eq_none] at opening
          rw [opening]
          rfl
      | true =>
          rw [begun, Option.isSome_iff_exists] at opening
          obtain ⟨first, opening⟩ := opening
          rw [opening]
          rfl

/-- Before the span the timer is as it was. -/
theorem timerAfter_of_not_begun {history : List (Stamped θ)}
    (waiting : (timing.detector.after history).begun = false)
    : timing.timerAfter history = timing.initial := by
  rw [← SpanDetector.isSome_openingInput, Option.isSome_eq_false_iff,
    Option.isNone_iff_eq_none] at waiting
  rw [timerAfter, waiting]

/-- The listener is connected while the span is open. -/
theorem Tracks.connected_eq {history : List (Stamped θ)} {listener : TimerListener M T}
    {report : List (List TimerCall)} (tracks : timing.Tracks history listener report)
    : listener.connected
      = ((timing.detector.openingInput history).isSome
        && (timing.detector.closingInput history).isNone) := by
  rw [TimerListener.connected, tracks.begun, tracks.ended, ← SpanDetector.isSome_openingInput,
    ← SpanDetector.isSome_closingInput, Option.not_isSome]

/-- The listener is closed once the span is. -/
theorem Tracks.closed_eq {history : List (Stamped θ)} {listener : TimerListener M T}
    {report : List (List TimerCall)} (tracks : timing.Tracks history listener report)
    : listener.closed = (timing.detector.after history).ended := by
  rw [TimerListener.closed, tracks.begun, tracks.ended]
  cases timing.detector.after history <;> rfl

/-- A listener stays as expected when its flags, its matcher, its timer and its report move on
as the span does.
-/
theorem Tracks.concat {history : List (Stamped θ)} {input : Stamped θ}
    {listener next : TimerListener M T} {report shown : List (List TimerCall)}
    (tracks : timing.Tracks history listener report)
    (begun
      : next.matchedBegin
        = (listener.matchedBegin
          || timing.detector.changes input (timing.detector.after history)))
    (ended
      : next.matchedEnd
        = (listener.matchedEnd
          || listener.matchedBegin
            && timing.detector.changes input (timing.detector.after history)))
    (matcher
      : timing.follows (timing.detector.step input (timing.detector.after history)) next.matcher)
    (timer : next.timer = timing.timerAfter (history ++ [input]))
    (marked
      : shown
        = [timing.detector.marksOf timing.startCalls timing.stopCalls input
            (timing.detector.after history)])
    : timing.Tracks (history ++ [input]) next (report ++ shown) where
  begun := by
    rw [begun, tracks.begun, SpanDetector.after_concat, SpanDetector.begun_step]
  ended := by
    rw [ended, tracks.ended, tracks.begun, SpanDetector.after_concat, SpanDetector.ended_step]
  matcher := by
    rw [SpanDetector.after_concat]
    exact matcher
  timer := timer
  report := by
    rw [tracks.report, marked, SpanDetector.marks_concat]

/-- A listener that an event leaves alone stays as expected when the event changes nothing. -/
theorem Tracks.unchanged {history : List (Stamped θ)} {input : Stamped θ}
    {listener : TimerListener M T} {report : List (List TimerCall)}
    (tracks : timing.Tracks history listener report)
    (same
      : timing.detector.step input (timing.detector.after history)
        = timing.detector.after history)
    : timing.Tracks (history ++ [input]) listener (report ++ [[]]) := by
  have nothing := SpanDetector.changes_eq_false same
  refine tracks.concat ?_ ?_ ?_ ?_ ?_
  · rw [nothing, Bool.or_false]
  · rw [nothing, Bool.and_false, Bool.or_false]
  · rw [same]
    exact tracks.matcher
  · rw [timerAfter_concat, nothing]
    exact tracks.timer
  · rw [SpanDetector.marksOf, nothing]
    rfl

variable [Matcher M] [TimerType θ T]

/-- What makes a listener act as expected on an event: the span ignores the event types that
the matcher is not for, the matcher detects the changes of the span, and the timer can be
started and stopped.
-/
structure Admits (timing : SpanTiming θ M T κ) (history : List (Stamped θ)) (input : Stamped θ)
    : Prop where
  ignores
    : Matcher.isMatcherFor M input.event.type = false
      → timing.detector.step input (timing.detector.after history)
        = timing.detector.after history
  detects
    : ∀ matcher,
        Matcher.isMatcherFor M input.event.type = true
        → (timing.detector.after history).ended = false
        → timing.follows (timing.detector.after history) matcher
        → (Matcher.call input.event matcher).1
            = timing.detector.changes input (timing.detector.after history)
          ∧ timing.follows (timing.detector.step input (timing.detector.after history))
              (Matcher.call input.event matcher).2
  starts
    : (timing.detector.after history).begun = false
      → timing.detector.changes input (timing.detector.after history) = true
      → startTimer input.moment input.event timing.initial
        = some (timing.started input.moment, timing.startCalls)
  stops
    : ∀ timer : T,
        stopTimer input.moment input.event timer
        = some (timing.stopped input.moment timer, timing.stopCalls)

section

variable {history : List (Stamped θ)} {input : Stamped θ} {listener : TimerListener M T}
  {report : List (List TimerCall)}

/-- A call that changes nothing keeps a listener as expected: the matcher rejects the event. -/
theorem Tracks.call_unchanged (tracks : timing.Tracks history listener report)
    (unfinished : (timing.detector.after history).ended = false)
    (unmatched : (Matcher.call input.event listener.matcher).1 = false)
    (unchanged : timing.detector.changes input (timing.detector.after history) = false)
    (followed
      : timing.follows (timing.detector.step input (timing.detector.after history))
          (Matcher.call input.event listener.matcher).2)
    : ∃ next calls,
        listener.call input.moment input.event = some (next, calls)
        ∧ timing.Tracks (history ++ [input]) next (report ++ [calls]) := by
  have opened : listener.closed = false := tracks.closed_eq.trans unfinished
  rw [TimerListener.call_of_not_matching opened unmatched]
  refine ⟨_, _, rfl, tracks.concat ?_ ?_ followed ?_ ?_⟩
  · rw [unchanged, Bool.or_false]
  · rw [unchanged, Bool.and_false, Bool.or_false]
  · rw [timerAfter_concat, unchanged]
    exact tracks.timer
  · rw [SpanDetector.marksOf, unchanged]
    rfl

/-- A call that opens the span starts the timer. -/
theorem Tracks.call_opening (tracks : timing.Tracks history listener report)
    (waiting : (timing.detector.after history).begun = false)
    (matched : (Matcher.call input.event listener.matcher).1 = true)
    (changed : timing.detector.changes input (timing.detector.after history) = true)
    (starts
      : startTimer input.moment input.event timing.initial
        = some (timing.started input.moment, timing.startCalls))
    (followed
      : timing.follows (timing.detector.step input (timing.detector.after history))
          (Matcher.call input.event listener.matcher).2)
    : ∃ next calls,
        listener.call input.moment input.event = some (next, calls)
        ∧ timing.Tracks (history ++ [input]) next (report ++ [calls]) := by
  have matchedBegin : listener.matchedBegin = false := tracks.begun.trans waiting
  have timer : listener.timer = timing.initial :=
    tracks.timer.trans (timerAfter_of_not_begun waiting)
  rw [TimerListener.call_of_begin matchedBegin matched, timer, starts]
  refine ⟨_, _, rfl, tracks.concat ?_ ?_ followed ?_ ?_⟩
  · rw [changed, Bool.or_true]
  · rw [matchedBegin, Bool.false_and, Bool.or_false]
  · rw [timerAfter_concat, changed, waiting]
    rfl
  · rw [SpanDetector.marksOf, changed, waiting]
    rfl

/-- A call that closes the span stops the timer. -/
theorem Tracks.call_closing (tracks : timing.Tracks history listener report)
    (begun : (timing.detector.after history).begun = true)
    (matched : (Matcher.call input.event listener.matcher).1 = true)
    (changed : timing.detector.changes input (timing.detector.after history) = true)
    (stops
      : stopTimer input.moment input.event listener.timer
        = some (timing.stopped input.moment listener.timer, timing.stopCalls))
    (followed
      : timing.follows (timing.detector.step input (timing.detector.after history))
          (Matcher.call input.event listener.matcher).2)
    : ∃ next calls,
        listener.call input.moment input.event = some (next, calls)
        ∧ timing.Tracks (history ++ [input]) next (report ++ [calls]) := by
  have matchedBegin : listener.matchedBegin = true := tracks.begun.trans begun
  have matchedEnd : listener.matchedEnd = false :=
    tracks.ended.trans (SpanDetector.not_ended_of_changes changed)
  rw [TimerListener.call_of_end matchedBegin matchedEnd matched, stops]
  refine ⟨_, _, rfl, tracks.concat ?_ ?_ followed ?_ ?_⟩
  · rw [matchedBegin, Bool.true_or]
  · rw [matchedBegin, changed, Bool.and_self, Bool.or_true]
  · rw [timerAfter_concat, changed, begun, tracks.timer]
    rfl
  · rw [SpanDetector.marksOf, changed, begun]
    rfl

/-- A call keeps a listener as expected, by cases on whether the event changes the span. -/
theorem Tracks.call (tracks : timing.Tracks history listener report)
    (admits : timing.Admits history input)
    (isFor : Matcher.isMatcherFor M input.event.type = true)
    : ∃ next calls,
        listener.call input.moment input.event = some (next, calls)
        ∧ timing.Tracks (history ++ [input]) next (report ++ [calls]) := by
  cases ended : (timing.detector.after history).ended with
  | true =>
      have closed : listener.closed = true := tracks.closed_eq.trans ended
      refine ⟨listener, [], TimerListener.call_of_closed closed, tracks.unchanged ?_⟩
      rw [Span.eq_closed_of_ended ended]
      rfl
  | false =>
      obtain ⟨verdict, followed⟩ := admits.detects listener.matcher isFor ended tracks.matcher
      cases changed : timing.detector.changes input (timing.detector.after history) with
      | false => exact tracks.call_unchanged ended (verdict.trans changed) changed followed
      | true =>
          cases begun : (timing.detector.after history).begun with
          | false =>
              exact tracks.call_opening begun (verdict.trans changed) changed
                (admits.starts begun changed) followed
          | true =>
              exact tracks.call_closing begun (verdict.trans changed) changed
                (admits.stops listener.timer) followed

/-- One event keeps a listener as expected, whether or not the matcher is for its type. -/
theorem Tracks.receive (tracks : timing.Tracks history listener report)
    (admits : timing.Admits history input)
    : ∃ next shown,
        listener.receive input = some (next, shown)
        ∧ timing.Tracks (history ++ [input]) next (report ++ shown) := by
  unfold TimerListener.receive
  cases isFor : Matcher.isMatcherFor M input.event.type with
  | false => exact ⟨listener, [[]], rfl, tracks.unchanged (admits.ignores isFor)⟩
  | true =>
      obtain ⟨next, calls, called, later⟩ := tracks.call admits isFor
      rw [if_pos rfl, called]
      exact ⟨next, [calls], rfl, later⟩

end

/-- A run over a stream whose events are all admitted is defined and goes as expected. -/
theorem run {stream : List (Stamped θ)} {listener : TimerListener M T}
    (start : timing.Tracks [] listener [])
    (admits : ∀ {history input}, history ++ [input] <+: stream → timing.Admits history input)
    : ∃ final report,
        runSteps TimerListener.receive stream listener = some (final, report)
        ∧ timing.Tracks stream final report :=
  runSteps_history start
    (fun extended tracks => tracks.receive (admits extended))

end SpanTiming

end KokkosUtils.Callbacks
