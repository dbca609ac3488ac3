import KokkosUtils.Callbacks.BeginEndTimerListener

/-! When a BeginEndTimerListener times the first matching pair of its stream.
On every paired stream it follows its span; the span is the pair of the first matching begin
event exactly when no other matching begin event overlaps that pair.
-/

namespace KokkosUtils.Callbacks

open KokkosUtils.Foundations

variable {θ M T : Type} {construct : Construct}

/-- An event that the matcher is for is a begin or an end event of its construct. -/
theorem beginEnd_of_isMatcherFor [Matcher M] {stamped : Stamped θ}
    (isFor : Matcher.isMatcherFor (BeginEndMatcher construct M) stamped.event.type = true)
    : (∃ name devId eventId, stamped.event = .beginEvent construct name devId eventId)
      ∨ ∃ eventId, stamped.event = .endEvent construct eventId := by
  obtain ⟨moment, event⟩ := stamped
  simp only [Matcher.isMatcherFor, Bool.or_eq_true, beq_iff_eq] at isFor
  cases event with
  | beginEvent other name devId eventId =>
      simp only [KokkosEvent.type, KokkosEventType.beginEvent.injEq, reduceCtorEq,
        or_false] at isFor
      exact Or.inl ⟨name, devId, eventId, by rw [isFor]⟩
  | endEvent other eventId =>
      simp only [KokkosEvent.type, KokkosEventType.endEvent.injEq, reduceCtorEq, false_or] at isFor
      exact Or.inr ⟨eventId, by rw [isFor]⟩
  | _ => simp [KokkosEvent.type] at isFor

section

variable [StatelessMatcher M] {matcher : M} {exec : ExecutionSpace}

/-- A call for a begin event remembers its id when it matches. -/
theorem beginEndMatcher_call_begin {self : BeginEndMatcher construct M} {input : Stamped θ}
    (plain : self.matcher = { first := { exec := exec }, second := matcher })
    (begins : input.beginId?.isSome = true)
    : Matcher.call input.event self
      = match matchedBegin? matcher exec input with
        | some eventId => (true, { self with matcherEnd := { eventId := eventId } })
        | none => (false, self) := by
  obtain ⟨inner, matcherEnd⟩ := self
  obtain rfl : inner = { first := { exec := exec }, second := matcher } := plain
  obtain ⟨moment, event⟩ := input
  cases event with
  | beginEvent construct name devId eventId =>
      have conjunction :=
        ConjunctionMatcher.call_eq (.beginEvent construct name devId eventId)
          ({ first := { exec := exec }, second := matcher }
            : ConjunctionMatcher EventQueueMatcher M)
      change EventBeginEndIdMatcher.call _ _ = _
      simp only [EventBeginEndIdMatcher.call, conjunction, matchedBegin?,
        EventQueueMatcher.accepts_eq]
      split <;> rfl
  | _ => cases begins

/-- A call for an end event compares its id with the one remembered. -/
theorem beginEndMatcher_call_end {self : BeginEndMatcher construct M} {input : Stamped θ}
    {eventId : EventId} (ends : input.endId? = some eventId)
    : Matcher.call input.event self = (eventId == self.matcherEnd.eventId, self) := by
  obtain ⟨moment, event⟩ := input
  cases event with
  | endEvent construct other =>
      cases ends
      rfl
  | _ => cases ends

/-- A matcher that follows an unfinished span accepts the events that change it and follows it
further, provided that no end event carries the invalid id.
-/
theorem followsBeginEnd_call {span : Span EventId} {self : BeginEndMatcher construct M}
    {input : Stamped θ} (follows : followsBeginEnd matcher exec span self)
    (unfinished : span.ended = false)
    (isFor : Matcher.isMatcherFor (BeginEndMatcher construct M) input.event.type = true)
    (valid : input.endId? ≠ some invalidEventId)
    : (Matcher.call input.event self).1 = (beginEndDetector matcher exec).changes input span
      ∧ followsBeginEnd matcher exec ((beginEndDetector matcher exec).step input span)
          (Matcher.call input.event self).2 := by
  obtain ⟨plain, remembered⟩ := follows
  rcases beginEnd_of_isMatcherFor isFor with ⟨name, devId, beginId, same⟩ | ⟨endId, same⟩
  · have begins : input.beginId?.isSome = true := by
      rw [Stamped.beginId?, same]
      rfl
    have noEnd : input.endId? = none := by
      rw [Stamped.endId?, same]
    rw [beginEndMatcher_call_begin plain begins]
    cases span with
    | closed => cases unfinished
    | waiting =>
        cases matched : matchedBegin? matcher exec input <;>
          simp_all [SpanDetector.changes, SpanDetector.step, beginEndDetector, followsBeginEnd]
    | inside eventId =>
        cases matched : matchedBegin? matcher exec input <;>
          simp_all [SpanDetector.changes, SpanDetector.step, beginEndDetector, followsBeginEnd]
  · have ends : input.endId? = some endId := by
      rw [Stamped.endId?, same]
    have unmatched : matchedBegin? matcher exec input = none := by
      simp [matchedBegin?, same, KokkosEvent.devId?]
    rw [beginEndMatcher_call_end ends]
    cases span with
    | closed => cases unfinished
    | waiting =>
        simp_all [SpanDetector.changes, SpanDetector.step, beginEndDetector, followsBeginEnd]
    | inside eventId =>
        obtain rfl : self.matcherEnd.eventId = eventId := remembered
        by_cases same : endId = self.matcherEnd.eventId <;>
          simp_all [SpanDetector.changes, SpanDetector.step, beginEndDetector, followsBeginEnd]

/-- How a begin-end timer listener is expected to act. -/
def beginEndTiming (construct : Construct) (matcher : M) (exec : ExecutionSpace) (initial : T)
    (started : θ → T) (stopped : θ → T → T)
    : SpanTiming θ (BeginEndMatcher construct M) T EventId where
  detector := beginEndDetector matcher exec
  follows := followsBeginEnd matcher exec
  initial := initial
  started := started
  stopped := stopped
  startCalls := [.start]
  stopCalls := [.stop]

/-- A timer type whose timers for an execution space can be started at the begin events that
match, and stopped at any event.
-/
structure UsableTimer [ExecTimerType θ T] (matcher : M) (exec : ExecutionSpace) (started : θ → T)
    (stopped : θ → T → T)
    : Prop where
  starts
    : ∀ {input : Stamped θ},
        (matchedBegin? matcher exec input).isSome = true
        → startTimer input.moment input.event (ExecTimerType.ofExec exec : T)
          = some (started input.moment, [.start])
  stops
    : ∀ (input : Stamped θ) (timer : T),
        stopTimer input.moment input.event timer = some (stopped input.moment timer, [.stop])

/-- A new listener with a usable timer acts as expected on a paired stream. -/
theorem beginEndTiming_run [ExecTimerType θ T] {started : θ → T} {stopped : θ → T → T}
    {stream : List (Stamped θ)}
    (usable : UsableTimer matcher exec started stopped) (paired : Paired construct stream)
    : ∃ final report,
        runSteps TimerListener.receive stream (BeginEndTimerListener.new construct matcher exec)
          = some (final, report)
        ∧ (beginEndTiming construct matcher exec (ExecTimerType.ofExec exec) started stopped).Tracks
            stream final report := by
  refine SpanTiming.run ⟨rfl, rfl, ⟨rfl, rfl⟩, rfl, rfl⟩ fun {history input} extended => ?_
  have member : input ∈ stream := extended.mem (by simp)
  refine ⟨?_, ?_, ?_, usable.stops input⟩
  · intro other
    simp only [Matcher.isMatcherFor, Bool.or_eq_false_iff, beq_eq_false_iff_ne] at other
    rcases paired.ofPair input member with isBegin | isEnd
    · exact absurd isBegin other.1
    · exact absurd isEnd other.2
  · intro self isFor unfinished follows
    refine followsBeginEnd_call follows unfinished isFor fun ends => ?_
    exact paired.endId_ne_invalid extended ends rfl
  · intro waiting changed
    exact usable.starts (SpanDetector.opens_of_changes waiting changed)

/-- The first begin event that matches is the one that opens the span. -/
theorem beginEndDetector_openedAt (history : List (Stamped θ))
    : (beginEndDetector matcher exec).openedAt history = firstBegin matcher exec history :=
  SpanDetector.openedAt_eq_findIdx? history

theorem isSome_firstBegin (history : List (Stamped θ))
    : (firstBegin matcher exec history).isSome
      = (history.findSome? (matchedBegin? matcher exec)).isSome := by
  rw [Bool.eq_iff_iff, firstBegin, List.findIdx?_isSome, List.any_eq_true,
    List.findSome?_isSome_iff]

/-- Once a begin event has matched, its end event is the first with its id. -/
theorem correspondingEnd_eq {history : List (Stamped θ)} {eventId : EventId}
    (matched : history.findSome? (matchedBegin? matcher exec) = some eventId)
    : correspondingEnd matcher exec history
      = history.findIdx? (fun stamped => stamped.endId? == some eventId) := by
  rw [correspondingEnd, matched]
  rfl

/-- The first begin event that matches stays the first. -/
theorem findSome?_concat {history : List (Stamped θ)} {eventId : EventId}
    (matched : history.findSome? (matchedBegin? matcher exec) = some eventId)
    (stamped : Stamped θ)
    : (history ++ [stamped]).findSome? (matchedBegin? matcher exec) = some eventId := by
  rw [List.findSome?_append, matched]
  rfl

/-- A begin event ends nothing. -/
theorem endId?_eq_none {stamped : Stamped θ}
    (matched : (matchedBegin? matcher exec stamped).isSome = true)
    : stamped.endId? = none := by
  obtain ⟨moment, event⟩ := stamped
  cases event with
  | endEvent construct eventId => simp [matchedBegin?, KokkosEvent.devId?] at matched
  | _ => rfl

/-- Along a stream, an event that does not carry the id of the first begin event that matches
leaves the corresponding end as it is.
-/
theorem correspondingEnd_concat {history : List (Stamped θ)} {eventId : EventId}
    (matched : history.findSome? (matchedBegin? matcher exec) = some eventId)
    (stamped : Stamped θ)
    : correspondingEnd matcher exec (history ++ [stamped])
      = (correspondingEnd matcher exec history).or
          (if stamped.endId? == some eventId then some history.length else none) := by
  rw [correspondingEnd_eq matched, correspondingEnd_eq (findSome?_concat matched stamped),
    findIdx?_eq_firstWhen, findIdx?_eq_firstWhen, firstWhen_concat]

/-- What the span says about the pair of the first begin event that matches. -/
def SpanOnPair (matcher : M) (exec : ExecutionSpace) (history : List (Stamped θ))
    : Span EventId → Prop
  | .waiting => history.findSome? (matchedBegin? matcher exec) = none
  | .inside eventId =>
      history.findSome? (matchedBegin? matcher exec) = some eventId
      ∧ correspondingEnd matcher exec history = none
  | .closed =>
      ∃ eventId closed,
        history.findSome? (matchedBegin? matcher exec) = some eventId
        ∧ (beginEndDetector matcher exec).closedAt history = some closed
        ∧ correspondingEnd matcher exec history = some closed

/-- A begin event that matches carries its id. -/
theorem beginId?_of_matchedBegin? {stamped : Stamped θ} {eventId : EventId}
    (matched : matchedBegin? matcher exec stamped = some eventId)
    : stamped.beginId? = some eventId := by
  rw [matchedBegin?] at matched
  split at matched
  · exact matched
  · cases matched

/-- A begin event that matches first has no end event yet. -/
theorem correspondingEnd_of_first {stream history : List (Stamped θ)} {input : Stamped θ}
    {eventId : EventId} (paired : Paired construct stream)
    (extended : history ++ [input] <+: stream)
    (matched : matchedBegin? matcher exec input = some eventId)
    (first : (history ++ [input]).findSome? (matchedBegin? matcher exec) = some eventId)
    : correspondingEnd matcher exec (history ++ [input]) = none := by
  have notEnded := paired.not_ended_before extended (beginId?_of_matchedBegin? matched)
  have noEnd := endId?_eq_none (Option.isSome_of_eq_some matched)
  rw [correspondingEnd_eq first, List.findIdx?_eq_none_iff]
  intro stamped member
  rw [beq_eq_false_iff_ne]
  intro ends
  rcases List.mem_append.mp member with before | last
  · exact notEnded (List.mem_filterMap.mpr ⟨stamped, before, ends⟩)
  · rw [List.mem_singleton.mp last, noEnd] at ends
    cases ends

/-- Without overlap, no begin event matches while the pair is open. -/
theorem NoOverlap.unmatched {stream history : List (Stamped θ)} {input : Stamped θ}
    {eventId : EventId} (noOverlap : NoOverlap matcher exec stream)
    (extended : history ++ [input] <+: stream)
    (first : history.findSome? (matchedBegin? matcher exec) = some eventId)
    (unended : correspondingEnd matcher exec history = none)
    : matchedBegin? matcher exec input = none := by
  cases matched : matchedBegin? matcher exec input with
  | none => rfl
  | some other =>
      have begun : (firstBegin matcher exec history).isSome = true := by
        rw [isSome_firstBegin, first]
        rfl
      have ended := noOverlap history input extended (Option.isSome_of_eq_some matched) begun
      rw [unended] at ended
      cases ended

/-- An event that is not a begin event of interest keeps an open span on its pair: only the end
event of the pair closes the span.
-/
theorem SpanOnPair.concat_inside {history : List (Stamped θ)} {input : Stamped θ}
    {eventId : EventId}
    (seen : (beginEndDetector matcher exec).after history = .inside eventId)
    (onPair : SpanOnPair matcher exec history (.inside eventId))
    (unmatched : matchedBegin? matcher exec input = none)
    : SpanOnPair matcher exec (history ++ [input])
        ((beginEndDetector matcher exec).step input (.inside eventId)) := by
  obtain ⟨first, unended⟩ := onPair
  have next := correspondingEnd_concat first input
  rw [unended, Option.none_or] at next
  cases ends : input.endId? == some eventId with
  | false =>
      rw [ends] at next
      simp only [SpanDetector.step, beginEndDetector, unmatched, ends, SpanOnPair]
      exact ⟨findSome?_concat first input, next⟩
  | true =>
      rw [ends] at next
      simp only [SpanDetector.step, beginEndDetector, unmatched, ends, SpanOnPair]
      refine ⟨eventId, history.length, findSome?_concat first input, ?_, next⟩
      rw [← beginEndDetector, SpanDetector.closedAt_concat_eq_length, seen]
      exact ⟨rfl, by simp only [SpanDetector.changes, beginEndDetector, unmatched, ends]; rfl⟩

/-- One more event keeps the span on the first matching pair, by cases on the span. -/
theorem SpanOnPair.concat {stream history : List (Stamped θ)} {input : Stamped θ}
    (paired : Paired construct stream) (noOverlap : NoOverlap matcher exec stream)
    (extended : history ++ [input] <+: stream)
    (onPair
      : SpanOnPair matcher exec history ((beginEndDetector matcher exec).after history))
    : SpanOnPair matcher exec (history ++ [input])
        ((beginEndDetector matcher exec).after (history ++ [input])) := by
  rw [SpanDetector.after_concat]
  cases seen : (beginEndDetector matcher exec).after history with
  | waiting =>
      rw [seen] at onPair
      have noneBefore : history.findSome? (matchedBegin? matcher exec) = none := onPair
      cases matched : matchedBegin? matcher exec input with
      | none => simp [SpanDetector.step, beginEndDetector, matched, SpanOnPair, noneBefore]
      | some eventId =>
          have first
              : (history ++ [input]).findSome? (matchedBegin? matcher exec) = some eventId := by
            simp [noneBefore, matched]
          simp only [SpanDetector.step, beginEndDetector, matched, Option.elim_some, SpanOnPair]
          exact ⟨first, correspondingEnd_of_first paired extended matched first⟩
  | inside eventId =>
      rw [seen] at onPair
      exact onPair.concat_inside seen (noOverlap.unmatched extended onPair.1 onPair.2)
  | closed =>
      rw [seen] at onPair
      obtain ⟨eventId, closed, first, closedHere, ended⟩ := onPair
      have earlier : history <+: history ++ [input] := List.prefix_append ..
      refine ⟨eventId, closed, findSome?_concat first input,
        ((SpanDetector.closedAt_earlier earlier closed).mp closedHere).1, ?_⟩
      rw [correspondingEnd_concat first, ended]
      rfl

/-- Without overlap, the span of the listener closes at the end event of the first begin event
that matches.
-/
theorem beginEndDetector_closedAt {stream history : List (Stamped θ)}
    (paired : Paired construct stream) (noOverlap : NoOverlap matcher exec stream)
    (earlier : history <+: stream)
    : (beginEndDetector matcher exec).closedAt history = correspondingEnd matcher exec history := by
  have onPair
      : SpanOnPair matcher exec history ((beginEndDetector matcher exec).after history) := by
    induction history using List.reverseRecOn with
    | nil => rfl
    | append_singleton history input ih =>
        exact (ih ((List.prefix_append ..).trans earlier)).concat paired noOverlap earlier
  cases seen : (beginEndDetector matcher exec).after history with
  | waiting =>
      rw [seen] at onPair
      have noneBefore : history.findSome? (matchedBegin? matcher exec) = none := onPair
      rw [SpanDetector.closedAt_eq_none.mpr (by rw [seen]; rfl), correspondingEnd, noneBefore]
      rfl
  | inside eventId =>
      rw [seen] at onPair
      rw [SpanDetector.closedAt_eq_none.mpr (by rw [seen]; rfl), onPair.2]
  | closed =>
      rw [seen] at onPair
      obtain ⟨eventId, closed, -, closedHere, ended⟩ := onPair
      rw [closedHere, ended]

/-- What closes the span, the listener takes for the end of the pair. -/
theorem ended_of_timesFirst [ExecTimerType θ T] {started : θ → T} {stopped : θ → T → T}
    {stream history : List (Stamped θ)}
    (usable : UsableTimer matcher exec started stopped) (paired : Paired construct stream)
    (times
      : TimesFirst matcher exec stream
          (BeginEndTimerListener.new construct matcher exec
            : BeginEndTimerListener construct M T))
    (earlier : history <+: stream)
    : ((beginEndDetector matcher exec).after history).ended
      = (correspondingEnd matcher exec history).isSome := by
  obtain ⟨final, report, ran, -, closed⟩ := times history earlier
  obtain ⟨same, shown, ranAgain, tracks⟩ :=
    beginEndTiming_run usable (paired.of_earlier earlier)
  rw [ran] at ranAgain
  cases ranAgain
  exact tracks.closed_eq.symm.trans closed

/-- A begin event that matches ends a span that has begun. -/
theorem ended_step_of_matched {input : Stamped θ} {span : Span EventId} (begun : span.begun = true)
    (matched : (matchedBegin? matcher exec input).isSome = true)
    : ((beginEndDetector matcher exec).step input span).ended = true := by
  cases span with
  | waiting => cases begun
  | inside data => simp [SpanDetector.step, beginEndDetector, matched, Span.ended]
  | closed => rfl

/-- A listener that times the first pair that matches sees no other matching begin event before
the end of the pair.
Witness: such an event would close the span, which no end event accounts for.
-/
theorem noOverlap_of_timesFirst [ExecTimerType θ T] {started : θ → T} {stopped : θ → T → T}
    {stream : List (Stamped θ)}
    (usable : UsableTimer matcher exec started stopped) (paired : Paired construct stream)
    (times
      : TimesFirst matcher exec stream
          (BeginEndTimerListener.new construct matcher exec
            : BeginEndTimerListener construct M T))
    : NoOverlap matcher exec stream := by
  intro history stamped extended matched begun
  have opened : ((beginEndDetector matcher exec).after history).begun = true := by
    rw [SpanDetector.begun_after, beginEndDetector_openedAt, begun]
  have closes : ((beginEndDetector matcher exec).after (history ++ [stamped])).ended = true := by
    rw [SpanDetector.after_concat]
    exact ended_step_of_matched opened matched
  rw [isSome_firstBegin, Option.isSome_iff_exists] at begun
  obtain ⟨eventId, first⟩ := begun
  have same
      : correspondingEnd matcher exec (history ++ [stamped])
        = correspondingEnd matcher exec history := by
    rw [correspondingEnd_concat first stamped, endId?_eq_none matched]
    exact Option.or_none
  calc (correspondingEnd matcher exec history).isSome
      = (correspondingEnd matcher exec (history ++ [stamped])).isSome := by rw [same]
    _ = ((beginEndDetector matcher exec).after (history ++ [stamped])).ended :=
        (ended_of_timesFirst usable paired times extended).symm
    _ = true := closes

/-- Without overlap, a listener that acts as expected times the first pair that matches. -/
theorem timesFirst_of_noOverlap [ExecTimerType θ T] {started : θ → T} {stopped : θ → T → T}
    {stream : List (Stamped θ)}
    (usable : UsableTimer matcher exec started stopped) (paired : Paired construct stream)
    (noOverlap : NoOverlap matcher exec stream)
    : TimesFirst matcher exec stream
        (BeginEndTimerListener.new construct matcher exec : BeginEndTimerListener construct M T) := by
  intro history earlier
  obtain ⟨final, report, ran, tracks⟩ :=
    beginEndTiming_run usable (paired.of_earlier earlier)
  have closes := beginEndDetector_closedAt paired noOverlap earlier
  refine ⟨final, report, ran, ?_, ?_⟩
  · rw [tracks.report, expectedCalls, ← closes, ← beginEndDetector_openedAt]
    rfl
  · rw [tracks.closed_eq, ← closes]
    exact SpanDetector.ended_after history

/-- A listener that acts as expected times the first pair that matches exactly when no other
begin event that matches overlaps the pair.
-/
theorem timesFirst_iff [ExecTimerType θ T] {started : θ → T} {stopped : θ → T → T}
    {stream : List (Stamped θ)}
    (usable : UsableTimer matcher exec started stopped) (paired : Paired construct stream)
    : TimesFirst matcher exec stream
          (BeginEndTimerListener.new construct matcher exec : BeginEndTimerListener construct M T)
      ↔ NoOverlap matcher exec stream :=
  ⟨noOverlap_of_timesFirst usable paired, timesFirst_of_noOverlap usable paired⟩

/-- A begin event that matches is enqueued on the execution space. -/
theorem enqueued_of_matchedBegin? {input : Stamped θ}
    (matched : (matchedBegin? matcher exec input).isSome = true)
    : input.event.type.isEnqueuedEvent = true ∧ input.event.devId? = some exec.deviceId := by
  obtain ⟨moment, event⟩ := input
  rw [matchedBegin?] at matched
  split at matched
  next onExec =>
    rw [Bool.and_eq_true, beq_iff_eq] at onExec
    cases event with
    | beginEvent construct name devId eventId => exact ⟨rfl, onExec.1⟩
    | _ => cases matched
  next => cases matched

theorem usable_enqueuedEventTimer (matcher : M) (exec : ExecutionSpace)
    : UsableTimer matcher exec
        (fun now : θ => ({ exec := exec, timer := .start now {} } : EnqueuedEventTimer θ))
        (fun now self => { self with timer := self.timer.stop now }) where
  starts := fun matched => by
    obtain ⟨enqueued, onExec⟩ := enqueued_of_matchedBegin? matched
    simp [startTimer, TimerType.start, TimerType.startWithEvent, enqueued, ExecTimerType.ofExec,
      EnqueuedEventTimer.start, onExec]
  stops := fun _ _ => rfl

theorem usable_enqueuedEventWithLaunchTimer (matcher : M) (exec : ExecutionSpace)
    : UsableTimer matcher exec
        (fun now : θ =>
          ({ exec := exec, timer := .start now {}, timerLaunch := .start now {} }
            : EnqueuedEventWithLaunchTimer θ))
        (fun now self =>
          { self with timerLaunch := self.timerLaunch.stop now, timer := self.timer.stop now })
    where
  starts := fun matched => by
    obtain ⟨enqueued, onExec⟩ := enqueued_of_matchedBegin? matched
    simp [startTimer, TimerType.start, TimerType.startWithEvent, enqueued, ExecTimerType.ofExec,
      EnqueuedEventWithLaunchTimer.start, onExec]
  stops := fun _ _ => rfl

/-- BeginEndTimerListener, with either of its timers, times the first pair that matches
exactly when no other begin event that matches overlaps the pair: such an event matches too,
and the listener takes it for the end of the pair.
-/
theorem beginEndTimerListener_times_iff (construct : Construct) (matcher : M)
    (exec : ExecutionSpace) (stream : List (Stamped θ)) (paired : Paired construct stream)
    : (TimesFirst matcher exec stream
          (.new construct matcher exec : BeginEndTimerListener construct M (EnqueuedEventTimer θ))
        ↔ NoOverlap matcher exec stream)
      ∧ (TimesFirst matcher exec stream
            (.new construct matcher exec
              : BeginEndTimerListener construct M (EnqueuedEventWithLaunchTimer θ))
          ↔ NoOverlap matcher exec stream) :=
  ⟨timesFirst_iff (usable_enqueuedEventTimer matcher exec) paired,
    timesFirst_iff (usable_enqueuedEventWithLaunchTimer matcher exec) paired⟩

end

/-- Two kernels of the same name that overlap on one execution space instance. -/
def overlappingKernels : List (Stamped ℕ) :=
  [
    { moment := 1, event := .beginEvent .parallelFor "kernel" 7 0 },
    { moment := 2, event := .beginEvent .parallelFor "kernel" 7 1 },
    { moment := 3, event := .endEvent .parallelFor 0 },
    { moment := 4, event := .endEvent .parallelFor 1 }
  ]

theorem overlappingKernels_paired : Paired .parallelFor overlappingKernels where
  ofPair := by decide
  distinct := by decide
  valid := by decide
  begun := by
    intro position bound eventId ends
    rcases position with _ | _ | _ | _ | position
    · cases ends
    · cases ends
    · obtain rfl := Option.some.inj ends
      exact ⟨by decide, by decide⟩
    · obtain rfl := Option.some.inj ends
      exact ⟨by decide, by decide⟩
    · cases ends

theorem beginEndTimerListener_times_iff_overlapping
    : (TimesFirst ({ name := "kernel" } : EventNameMatcher) { deviceId := 7 } overlappingKernels
          (.new .parallelFor { name := "kernel" } { deviceId := 7 }
            : BeginEndTimerListener .parallelFor _ (EnqueuedEventTimer ℕ))
        ↔ NoOverlap ({ name := "kernel" } : EventNameMatcher) { deviceId := 7 } overlappingKernels)
      ∧ (TimesFirst ({ name := "kernel" } : EventNameMatcher) { deviceId := 7 } overlappingKernels
            (.new .parallelFor { name := "kernel" } { deviceId := 7 }
              : BeginEndTimerListener .parallelFor _ (EnqueuedEventWithLaunchTimer ℕ))
          ↔ NoOverlap ({ name := "kernel" } : EventNameMatcher) { deviceId := 7 }
              overlappingKernels) :=
  beginEndTimerListener_times_iff _ _ _ _ overlappingKernels_paired

/-- The begin event of the second kernel stops the timer of the first one. -/
theorem stopped_by_begin_event
    : Paired .parallelFor overlappingKernels
      ∧ ¬ TimesFirst ({ name := "kernel" } : EventNameMatcher) { deviceId := 7 }
            overlappingKernels
            (.new .parallelFor { name := "kernel" } { deviceId := 7 }
              : BeginEndTimerListener .parallelFor _ (EnqueuedEventTimer ℕ)) := by
  refine ⟨overlappingKernels_paired, fun times => ?_⟩
  obtain ⟨final, report, ran, -, closed⟩ :=
    times (overlappingKernels.take 2) (List.take_prefix 2 _)
  obtain ⟨rfl, rfl⟩ := Prod.mk.inj (Option.some.inj ran)
  exact absurd closed (by decide)

end KokkosUtils.Callbacks
