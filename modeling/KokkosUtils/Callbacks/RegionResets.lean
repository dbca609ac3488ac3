import KokkosUtils.Callbacks.RegionTimerListener
import KokkosUtils.Foundations.Resets

/-! RegionTimerListener with a `Timer<void>` that is reset at any points of a stream.
The reset leaves the region matcher as it is. If it comes inside the timed region, the matcher
next reports the end of that region, which the listener takes for the begin event of another.
-/

namespace KokkosUtils.Callbacks

open KokkosUtils.Foundations

variable {θ δ M T : Type}

/-- A stream of events with resets in it. -/
abbrev ResetTrace (θ : Type) : Type := List (Resettable (Stamped θ))

/-- The side of a pair of region events that an entry of a trace is, if it is one. -/
def resetBracket? : Resettable (Stamped θ) → Option Bracket := Resettable.bracket Stamped.bracket?

/-- Delivers an event or resets the listener. The report has one entry for each. -/
def TimerListener.receiveOrReset [Matcher M] [TimerType θ T]
    : Resettable (Stamped θ) → TimerListener M T
      → Option (TimerListener M T × List (List TimerCall)) :=
  stepOrReset TimerListener.receive TimerListener.reset []

/-- The position of the latest entry of a report at which `start` was called. -/
def latestStart (report : List (List TimerCall)) : Option ℕ :=
  latest (fun entry => if .start ∈ entry.1 then some entry.2 else none) report.zipIdx

section

variable [Matcher M]

/-- Whether a matcher accepts the event. -/
def Stamped.acceptedBy (matcher : M) (stamped : Stamped θ) : Bool :=
  Matcher.accepts matcher stamped.event

/-- The calls made at an entry of a trace are right: `start` at a push event that the matcher
accepts, and `stop` at the pop event that corresponds to the push event of the latest `start`,
with no reset in between.
-/
structure CallsRight (matcher : M) (history : ResetTrace θ) (report : List (List TimerCall))
    (input : Resettable (Stamped θ)) (calls : List TimerCall)
    : Prop where
  start
    : .start ∈ calls → ∃ stamped, input = .input stamped ∧ matchedPush matcher stamped = true
  stop
    : .stop ∈ calls
      → ∃ push,
          latestStart report = some push
          ∧ Resettable.reset ∉ history.drop push
          ∧ closingOf resetBracket? push (history ++ [input]) = some history.length

/-- The duration of a closed listener is the time elapsed during one matched region. -/
def ClosedRight (δ : Type) [HSub θ θ δ] (matcher : M) (history : ResetTrace θ)
    (listener : RegionTimerListener M (Timers.Timer θ))
    : Prop :=
  listener.closed = true
  → ∃ push pushed pop popped,
      history[push]? = some (.input pushed)
      ∧ matchedPush matcher pushed = true
      ∧ closingOf resetBracket? push history = some pop
      ∧ history[pop]? = some (.input popped)
      ∧ (listener.timer.duration : Option δ) = some (popped.moment - pushed.moment)

/-- A listener is reusable after each reset of a trace: along the whole trace it makes the right
calls, and its duration is right whenever it is closed.
-/
def Reusable (δ : Type) [HSub θ θ δ] (matcher : M) (trace : ResetTrace θ) : Prop :=
  ∀ history input,
    history ++ [input] <+: trace
    → ∃ listener report next calls,
        runSteps TimerListener.receiveOrReset history
            (RegionTimerListener.new matcher ({} : Timers.Timer θ))
          = some (listener, report)
        ∧ listener.receiveOrReset input = some (next, [calls])
        ∧ CallsRight matcher history report input calls
        ∧ ClosedRight δ matcher (history ++ [input]) next

/-- The region that the first reset inside a timed region strikes is not closed after it. -/
def StruckStaysOpen (matcher : M) (trace : ResetTrace θ) : Prop :=
  ∀ push,
    FirstStruck Stamped.bracket? (Stamped.acceptedBy matcher) trace push
    → closingOf resetBracket? push trace = none

-----------------------------------------------------------------------------------------
-- Phases of a listener
-----------------------------------------------------------------------------------------

/-- The matched region at a position is open, and the matcher follows it. -/
def FollowsOpen (matcher : M) (history : ResetTrace θ) (push : ℕ) (self : RegionMatcher M) : Prop :=
  ∃ above,
    OpenAbove resetBracket? history push above ∧ followsRegion matcher (.inside above) self

/-- The timer was last started at a matched push event that no reset follows. -/
structure StartedAt (matcher : M) (history : ResetTrace θ) (report : List (List TimerCall))
    (push : ℕ) (timer : Timers.Timer θ)
    : Prop where
  latest : latestStart report = some push
  noReset : Resettable.reset ∉ history.drop push
  ticked
    : ∃ pushed,
        history[push]? = some (.input pushed)
        ∧ matchedPush matcher pushed = true
        ∧ timer.tick = some (.record pushed.moment)

/-- What a listener has done so far: it waits for a region, times one, has timed one, or is
stranded in a region that a reset struck.
-/
inductive InPhase (matcher : M) (history : ResetTrace θ)
    (listener : RegionTimerListener M (Timers.Timer θ)) (report : List (List TimerCall))
    : Prop
  | waiting
    (unstruck : Unstruck Stamped.bracket? (Stamped.acceptedBy matcher) history)
    (since : firstSinceReset (matchedPush matcher) history = none)
    (fresh : listener.Fresh matcher)
  | timing (push : ℕ)
    (unstruck : Unstruck Stamped.bracket? (Stamped.acceptedBy matcher) history)
    (since : firstSinceReset (matchedPush matcher) history = some push)
    (begun : listener.matchedBegin = true) (ended : listener.matchedEnd = false)
    (opened : FollowsOpen matcher history push listener.matcher)
    (started : StartedAt matcher history report push listener.timer)
  | closed (push pop : ℕ) (popped : Stamped θ)
    (unstruck : Unstruck Stamped.bracket? (Stamped.acceptedBy matcher) history)
    (since : firstSinceReset (matchedPush matcher) history = some push)
    (begun : listener.matchedBegin = true) (ended : listener.matchedEnd = true)
    (idle : followsRegion matcher .waiting listener.matcher)
    (started : StartedAt matcher history report push listener.timer)
    (closing : closingOf resetBracket? push history = some pop)
    (poppedThere : history[pop]? = some (.input popped))
    (tocked : listener.timer.tock = some (.record popped.moment))
  | stranded (push : ℕ)
    (struck : FirstStruck Stamped.bracket? (Stamped.acceptedBy matcher) history push)
    (begun : listener.matchedBegin = false) (ended : listener.matchedEnd = false)
    (opened : FollowsOpen matcher history push listener.matcher)

end

-----------------------------------------------------------------------------------------
-- One entry of a trace
-----------------------------------------------------------------------------------------

theorem latestStart_concat (report : List (List TimerCall)) (calls : List TimerCall)
    : latestStart (report ++ [calls])
      = if .start ∈ calls then some report.length else latestStart report := by
  rw [latestStart, List.zipIdx_append, List.zipIdx_singleton, latest_concat, Nat.zero_add,
    latestStart]
  split <;> simp

/-- The events that the region matcher is not for would change nothing. -/
theorem regionTimerListener_receive [Matcher M] [TimerType θ T] (stamped : Stamped θ)
    (listener : RegionTimerListener M T)
    : listener.receive stamped
      = (listener.call stamped.moment stamped.event).map
          (fun (next, calls) => (next, [calls])) := by
  cases isFor : Matcher.isMatcherFor (RegionMatcher M) stamped.event.type with
  | true => rw [TimerListener.receive, if_pos isFor]
  | false =>
      have unmatched
          : Matcher.call stamped.event listener.matcher = (false, listener.matcher) := by
        obtain ⟨moment, event⟩ := stamped
        cases event <;> first | rfl | cases isFor
      rw [TimerListener.receive, isFor]
      cases closed : listener.closed with
      | true => rw [TimerListener.call_of_closed closed]; rfl
      | false =>
          rw [TimerListener.call_of_not_matching closed (by rw [unmatched]), unmatched]
          rfl

variable [StatelessMatcher M] {matcher : M} {history : ResetTrace θ} {push : ℕ}
  {self : RegionMatcher M} {listener : RegionTimerListener M (Timers.Timer θ)}
  {report : List (List TimerCall)}

/-- An event in an open region ends it or leaves it open, by cases on the bracket. -/
theorem FollowsOpen.call (opened : FollowsOpen matcher history push self) (stamped : Stamped θ)
    (depth : nestingDepth resetBracket? history < UInt32.size)
    : (Matcher.call stamped.event self).1 = true
        ∧ closingOf resetBracket? push (history ++ [.input stamped]) = some history.length
        ∧ followsRegion matcher .waiting (Matcher.call stamped.event self).2
      ∨ (Matcher.call stamped.event self).1 = false
        ∧ FollowsOpen matcher (history ++ [.input stamped]) push
            (Matcher.call stamped.event self).2 := by
  obtain ⟨above, openAbove, follows⟩ := opened
  have bounded : ∀ other, Span.inside above = .inside other → other < UInt32.size := by
    rintro other ⟨⟩
    exact Nat.lt_trans openAbove.lt_nestingDepth depth
  obtain ⟨verdict, followed⟩ := followsRegion_call stamped follows rfl bounded
  rw [SpanDetector.step, regionDetector] at followed
  rw [SpanDetector.changes, regionDetector] at verdict
  have side : resetBracket? (.input stamped) = stamped.bracket? := rfl
  rcases bracket : stamped.bracket? with _ | _ | _
  · rw [bracketDetector_within_of_other bracket] at verdict followed
    exact Or.inr ⟨verdict, above, openAbove.concat_other (side.trans bracket), followed⟩
  · rw [bracketDetector_within_of_opening bracket] at verdict followed
    exact Or.inr ⟨verdict, above + 1, openAbove.concat_opening (side.trans bracket), followed⟩
  · cases above with
    | zero =>
        rw [bracketDetector_within_of_last bracket] at verdict followed
        exact Or.inl ⟨verdict, openAbove.closingOf_concat (side.trans bracket), followed⟩
    | succ above =>
        rw [bracketDetector_within_of_closing bracket] at verdict followed
        exact Or.inr ⟨verdict, above, openAbove.concat_closing (side.trans bracket), followed⟩

/-- An event outside the matched regions opens one if it is a push event that the matcher
accepts.
-/
theorem followsRegion_waiting_call (follows : followsRegion matcher .waiting self)
    (stamped : Stamped θ)
    : (Matcher.call stamped.event self).1 = matchedPush matcher stamped
      ∧ if matchedPush matcher stamped then
          followsRegion matcher (.inside 0) (Matcher.call stamped.event self).2
        else
          followsRegion matcher .waiting (Matcher.call stamped.event self).2 := by
  obtain ⟨verdict, followed⟩ :=
    followsRegion_call stamped follows rfl (fun _ absurd => nomatch absurd)
  have opens
      : (regionDetector matcher).opens stamped
        = if matchedPush matcher stamped then some 0 else none := rfl
  rw [SpanDetector.changes, opens] at verdict
  rw [SpanDetector.step, opens] at followed
  cases matched : matchedPush matcher stamped <;> simp_all

/-- An entry of a trace is dealt with rightly. -/
def Advances (matcher : M) (history : ResetTrace θ) (report : List (List TimerCall))
    (listener : RegionTimerListener M (Timers.Timer θ)) (input : Resettable (Stamped θ))
    : Prop :=
  ∃ next calls,
    listener.receiveOrReset input = some (next, [calls])
    ∧ CallsRight matcher history report input calls
    ∧ InPhase matcher (history ++ [input]) next (report ++ [calls])

theorem callsRight_nil (input : Resettable (Stamped θ))
    : CallsRight matcher history report input [] :=
  ⟨(fun absurd => nomatch absurd), (fun absurd => nomatch absurd)⟩

/-- What was started stays started while neither a `start` nor a reset comes after it. -/
theorem StartedAt.concat {timer next : Timers.Timer θ} {calls : List TimerCall}
    (started : StartedAt matcher history report push timer) (stamped : Stamped θ)
    (noStart : .start ∉ calls) (kept : next.tick = timer.tick)
    : StartedAt matcher (history ++ [.input stamped]) (report ++ [calls]) push next := by
  obtain ⟨pushed, there, matched, ticked⟩ := started.ticked
  have bound : push < history.length := (List.getElem?_eq_some_iff.mp there).1
  refine ⟨?_, ?_, pushed, ?_, matched, kept.trans ticked⟩
  · rw [latestStart_concat, if_neg noStart, started.latest]
  · rw [List.drop_append_of_le_length (Nat.le_of_lt bound), List.mem_append, not_or]
    exact ⟨started.noReset, by simp⟩
  · rw [List.getElem?_append_left bound, there]

/-- A reset leaves a listener waiting, or stranded if it strikes. -/
theorem InPhase.reset (phase : InPhase matcher history listener report)
    : Advances matcher history report listener .reset := by
  refine ⟨listener.reset, [], rfl, callsRight_nil _, ?_⟩
  cases phase with
  | waiting unstruck since fresh =>
      refine .waiting (unstruck.concat_reset fun push strikes => ?_) ?_ ⟨rfl, rfl, fresh.idle⟩
      · cases since.symm.trans strikes.1
      · exact firstSinceReset_concat_reset history
  | timing push unstruck since begun ended opened started =>
      obtain ⟨above, openAbove, follows⟩ := opened
      have strikes : Strikes Stamped.bracket? (Stamped.acceptedBy matcher) history push :=
        ⟨since, openAbove.closingOf_eq_none⟩
      refine .stranded push ⟨history, List.prefix_rfl, strikes, unstruck⟩ rfl rfl ?_
      exact ⟨above, openAbove.concat_other rfl, follows⟩
  | closed push pop popped unstruck since begun ended idle started closing poppedThere tocked =>
      refine .waiting (unstruck.concat_reset fun other strikes => ?_) ?_ ⟨rfl, rfl, idle⟩
      · obtain rfl : push = other := Option.some.inj (since.symm.trans strikes.1)
        cases closing.symm.trans strikes.2
      · exact firstSinceReset_concat_reset history
  | stranded push struck begun ended opened =>
      obtain ⟨above, openAbove, follows⟩ := opened
      refine .stranded push (struck.of_earlier (List.prefix_append ..)) rfl rfl ?_
      exact ⟨above, openAbove.concat_other rfl, follows⟩

/-- A listener that waits for a region starts its timer at a push event that is accepted. -/
theorem advances_of_waiting
    (unstruck : Unstruck Stamped.bracket? (Stamped.acceptedBy matcher) history)
    (since : firstSinceReset (matchedPush matcher) history = none)
    (fresh : listener.Fresh matcher) (measured : report.length = history.length)
    (stamped : Stamped θ)
    : Advances matcher history report listener (.input stamped) := by
  have received : listener.receiveOrReset (.input stamped) = listener.receive stamped := rfl
  have opened : listener.closed = false := by rw [TimerListener.closed, fresh.begun]; rfl
  obtain ⟨verdict, followed⟩ := followsRegion_waiting_call fresh.idle stamped
  cases matched : matchedPush matcher stamped with
  | false =>
      rw [matched] at verdict followed
      rw [Advances, received, regionTimerListener_receive,
        TimerListener.call_of_not_matching opened verdict]
      refine ⟨_, _, rfl, callsRight_nil _, .waiting (unstruck.concat_input stamped) ?_ ?_⟩
      · rw [firstSinceReset_concat_input, since, matched]
        rfl
      · exact ⟨fresh.begun, fresh.ended, followed⟩
  | true =>
      rw [matched] at verdict followed
      have bracket : resetBracket? (.input stamped) = some .opening := by
        rw [matchedPush, Bool.and_eq_true, beq_iff_eq] at matched
        exact matched.1
      rw [Advances, received, regionTimerListener_receive,
        TimerListener.call_of_begin fresh.begun verdict]
      refine ⟨_, _, rfl, ⟨fun _ => ⟨stamped, rfl, matched⟩, (fun absurd => by simp at absurd)⟩, ?_⟩
      refine .timing history.length (unstruck.concat_input stamped) ?_ rfl fresh.ended
        ⟨0, .of_opening bracket, followed⟩ ?_
      · rw [firstSinceReset_concat_input, since, matched]
        rfl
      · refine ⟨?_, ?_, stamped, ?_, matched, rfl⟩
        · rw [latestStart_concat, measured]
          rfl
        · simp
        · simp

/-- A listener that times a region stops its timer at the end of that region. -/
theorem advances_of_timing
    (unstruck : Unstruck Stamped.bracket? (Stamped.acceptedBy matcher) history)
    (since : firstSinceReset (matchedPush matcher) history = some push)
    (begun : listener.matchedBegin = true) (ended : listener.matchedEnd = false)
    (opened : FollowsOpen matcher history push listener.matcher)
    (started : StartedAt matcher history report push listener.timer)
    (depth : nestingDepth resetBracket? history < UInt32.size) (stamped : Stamped θ)
    : Advances matcher history report listener (.input stamped) := by
  have received : listener.receiveOrReset (.input stamped) = listener.receive stamped := rfl
  have stillSince
      : firstSinceReset (matchedPush matcher) (history ++ [.input stamped]) = some push := by
    rw [firstSinceReset_concat_input, since]
    rfl
  rcases opened.call stamped depth with ⟨verdict, closing, idle⟩ | ⟨verdict, stillOpened⟩
  · rw [Advances, received, regionTimerListener_receive,
      TimerListener.call_of_end begun ended verdict]
    refine ⟨_, _, rfl, ⟨(fun absurd => by simp at absurd), fun _ => ?_⟩, ?_⟩
    · exact ⟨push, started.latest, started.noReset, closing⟩
    · exact .closed push history.length stamped (unstruck.concat_input stamped) stillSince begun rfl
        idle (started.concat stamped (by simp) rfl) closing (by simp) rfl
  · have notClosed : listener.closed = false := by rw [TimerListener.closed, ended, Bool.and_false]
    rw [Advances, received, regionTimerListener_receive,
      TimerListener.call_of_not_matching notClosed verdict]
    exact ⟨_, _, rfl, callsRight_nil _,
      .timing push (unstruck.concat_input stamped) stillSince begun ended stillOpened
        (started.concat stamped (by simp) rfl)⟩

/-- A closed listener ignores the events up to its next reset. -/
theorem advances_of_closed {pop : ℕ} {popped : Stamped θ}
    (unstruck : Unstruck Stamped.bracket? (Stamped.acceptedBy matcher) history)
    (since : firstSinceReset (matchedPush matcher) history = some push)
    (begun : listener.matchedBegin = true) (ended : listener.matchedEnd = true)
    (idle : followsRegion matcher .waiting listener.matcher)
    (started : StartedAt matcher history report push listener.timer)
    (closing : closingOf resetBracket? push history = some pop)
    (poppedThere : history[pop]? = some (.input popped))
    (tocked : listener.timer.tock = some (.record popped.moment)) (stamped : Stamped θ)
    : Advances matcher history report listener (.input stamped) := by
  have received : listener.receiveOrReset (.input stamped) = listener.receive stamped := rfl
  have closed : listener.closed = true := by rw [TimerListener.closed, begun, ended]; rfl
  have earlier : history <+: history ++ [.input stamped] := List.prefix_append ..
  have bound : pop < history.length := (List.getElem?_eq_some_iff.mp poppedThere).1
  rw [Advances, received, regionTimerListener_receive, TimerListener.call_of_closed closed]
  refine ⟨_, _, rfl, callsRight_nil _, .closed push pop popped (unstruck.concat_input stamped) ?_
    begun ended idle (started.concat stamped (by simp) rfl) ?_ ?_ tocked⟩
  · rw [firstSinceReset_concat_input, since]
    rfl
  · exact ((closingOf_earlier earlier push pop).mp closing).1
  · rw [List.getElem?_append_left bound, poppedThere]

/-- A stranded listener ignores the events inside the region that was struck. -/
theorem advances_of_stranded
    (struck : FirstStruck Stamped.bracket? (Stamped.acceptedBy matcher) history push)
    (begun : listener.matchedBegin = false) (ended : listener.matchedEnd = false)
    (opened : FollowsOpen matcher history push listener.matcher)
    (depth : nestingDepth resetBracket? history < UInt32.size) {stamped : Stamped θ}
    (staysOpen : closingOf resetBracket? push (history ++ [.input stamped]) = none)
    : Advances matcher history report listener (.input stamped) := by
  have received : listener.receiveOrReset (.input stamped) = listener.receive stamped := rfl
  have notClosed : listener.closed = false := by rw [TimerListener.closed, begun]; rfl
  rcases opened.call stamped depth with ⟨-, closing, -⟩ | ⟨verdict, stillOpened⟩
  · cases staysOpen.symm.trans closing
  · rw [Advances, received, regionTimerListener_receive,
      TimerListener.call_of_not_matching notClosed verdict]
    exact ⟨_, _, rfl, callsRight_nil _, .stranded push (struck.of_earlier (List.prefix_append ..))
      begun ended stillOpened⟩

/-- Each entry of a trace is dealt with rightly, as long as no region that was struck closes. -/
theorem InPhase.advances (phase : InPhase matcher history listener report)
    (measured : report.length = history.length)
    (depth : nestingDepth resetBracket? history < UInt32.size) {input : Resettable (Stamped θ)}
    (staysOpen : StruckStaysOpen matcher (history ++ [input]))
    : Advances matcher history report listener input := by
  cases input with
  | reset => exact phase.reset
  | input stamped =>
      cases phase with
      | waiting unstruck since fresh =>
          exact advances_of_waiting unstruck since fresh measured stamped
      | timing push unstruck since begun ended opened started =>
          exact advances_of_timing unstruck since begun ended opened started depth stamped
      | closed push pop popped unstruck since begun ended idle started closing poppedThere tocked =>
          exact advances_of_closed unstruck since begun ended idle started closing poppedThere
            tocked stamped
      | stranded push struck begun ended opened =>
          exact advances_of_stranded struck begun ended opened depth
            (staysOpen push (struck.of_earlier (List.prefix_append ..)))

-----------------------------------------------------------------------------------------
-- Whole traces
-----------------------------------------------------------------------------------------

/-- At each point of a trace, fewer regions than the bound are open. -/
def ResetsNestedBelow (bound : ℕ) (trace : ResetTrace θ) : Prop :=
  ∀ history ∈ trace.inits, nestingDepth resetBracket? history < bound

instance (bound : ℕ) (trace : ResetTrace θ) : Decidable (ResetsNestedBelow bound trace) :=
  inferInstanceAs (Decidable (∀ history ∈ trace.inits, _))

variable {trace : ResetTrace θ}

theorem ResetsNestedBelow.here {bound : ℕ} (depth : ResetsNestedBelow bound trace)
    (earlier : history <+: trace)
    : nestingDepth resetBracket? history < bound :=
  depth history ((List.mem_inits history trace).mpr earlier)

theorem StruckStaysOpen.of_earlier (staysOpen : StruckStaysOpen matcher trace)
    (earlier : history <+: trace)
    : StruckStaysOpen matcher history := by
  intro push struck
  rw [Option.eq_none_iff_forall_ne_some]
  intro closing closes
  have later := ((closingOf_earlier earlier push closing).mp closes).1
  cases (staysOpen push (struck.of_earlier earlier)).symm.trans later

/-- A listener is in one of its phases through each trace in which no region that was struck
closes: induction on the trace from its end.
-/
theorem run_inPhase (depth : ResetsNestedBelow UInt32.size trace) (earlier : history <+: trace)
    (staysOpen : StruckStaysOpen matcher history)
    : ∃ listener report,
        runSteps TimerListener.receiveOrReset history
            (RegionTimerListener.new matcher ({} : Timers.Timer θ))
          = some (listener, report)
        ∧ report.length = history.length
        ∧ InPhase matcher history listener report := by
  induction history using List.reverseRecOn with
  | nil =>
      exact ⟨_, _, rfl, rfl, .waiting unstruck_nil rfl (RegionTimerListener.fresh_new matcher _)⟩
  | append_singleton history input ih =>
      have before : history <+: history ++ [input] := List.prefix_append ..
      obtain ⟨listener, report, ran, measured, phase⟩ :=
        ih (before.trans earlier) (staysOpen.of_earlier before)
      obtain ⟨next, calls, received, -, later⟩ :=
        phase.advances measured (depth.here (before.trans earlier)) staysOpen
      refine ⟨next, report ++ [calls], runSteps_concat ran received, ?_, later⟩
      rw [List.length_append, List.length_append, measured]
      rfl

/-- A closed listener has timed the region of its phase. -/
theorem InPhase.closedRight [HSub θ θ δ] (phase : InPhase matcher history listener report)
    : ClosedRight δ matcher history listener := by
  intro closed
  rw [TimerListener.closed, Bool.and_eq_true] at closed
  cases phase with
  | waiting unstruck since fresh => cases fresh.begun.symm.trans closed.1
  | timing push unstruck since begun ended opened started => cases ended.symm.trans closed.2
  | stranded push struck begun ended opened => cases begun.symm.trans closed.1
  | closed push pop popped unstruck since begun ended idle started closing poppedThere tocked =>
      obtain ⟨pushed, pushedThere, matched, ticked⟩ := started.ticked
      refine ⟨push, pushed, pop, popped, pushedThere, matched, closing, poppedThere, ?_⟩
      rw [Timers.Timer.duration, ticked, tocked]
      rfl

/-- A listener that is stranded takes the end of the region that was struck for a begin event. -/
theorem not_callsRight_of_stranded
    (struck : FirstStruck Stamped.bracket? (Stamped.acceptedBy matcher) history push)
    (phase : InPhase matcher history listener report)
    (depth : nestingDepth resetBracket? history < UInt32.size) {input : Resettable (Stamped θ)}
    {next : RegionTimerListener M (Timers.Timer θ)} {calls : List TimerCall}
    (closing : closingOf resetBracket? push (history ++ [input]) = some history.length)
    (received : listener.receiveOrReset input = some (next, [calls]))
    : ¬ CallsRight matcher history report input calls := by
  cases phase with
  | waiting unstruck => exact (struck.not_unstruck unstruck).elim
  | timing _ unstruck => exact (struck.not_unstruck unstruck).elim
  | closed _ _ _ unstruck => exact (struck.not_unstruck unstruck).elim
  | stranded other otherStruck begun ended opened =>
      obtain rfl := struck.unique otherStruck
      have notClosed : closingOf resetBracket? push history = none := by
        obtain ⟨above, openAbove, -⟩ := opened
        exact openAbove.closingOf_eq_none
      have isClosing : resetBracket? input = some .closing := by
        by_contra other
        have open? : closingOf resetBracket? push (history ++ [input]) = none :=
          closingOf_concat_eq_none notClosed (fun same => (other same).elim)
        cases open?.symm.trans closing
      cases input with
      | reset => cases isClosing
      | input stamped =>
          rcases opened.call stamped depth with ⟨verdict, -, -⟩ | ⟨-, above, openAbove, -⟩
          · have called : listener.receive stamped = some (next, [calls]) := received
            rw [regionTimerListener_receive, TimerListener.call_of_begin begun verdict] at called
            obtain ⟨rfl, shown⟩ := Prod.mk.inj (Option.some.inj called)
            obtain rfl : calls = [.start] := by simpa using shown.symm
            intro right
            obtain ⟨_, ⟨⟩, matched⟩ := right.start (by simp)
            rw [matchedPush, Bool.and_eq_true, beq_iff_eq] at matched
            cases isClosing.symm.trans matched.1
          · cases openAbove.closingOf_eq_none.symm.trans closing

/-- A RegionTimerListener with a `Timer<void>` is reusable after every reset of a trace exactly
when the region that the first reset inside a timed region strikes is not closed afterwards.
-/
theorem regionTimerListener_reusable_iff [HSub θ θ δ] (matcher : M) (trace : ResetTrace θ)
    (depth : ResetsNestedBelow UInt32.size trace)
    : Reusable δ matcher trace ↔ StruckStaysOpen matcher trace := by
  constructor
  · intro reusable push struck
    rw [Option.eq_none_iff_forall_ne_some]
    intro closing closes
    obtain ⟨history, input, extended, struckHere, notClosed, closesHere⟩ :=
      struck.before_closing closes
    have earlier : history <+: trace := (List.prefix_append ..).trans extended
    have staysOpen : StruckStaysOpen matcher history := by
      intro other otherStruck
      rw [← struckHere.unique otherStruck]
      exact notClosed
    obtain ⟨listener, report, ran, measured, phase⟩ := run_inPhase depth earlier staysOpen
    obtain ⟨_, _, next, calls, ranToo, received, right, -⟩ := reusable history input extended
    obtain ⟨rfl, rfl⟩ := Prod.mk.inj (Option.some.inj (ran.symm.trans ranToo))
    exact not_callsRight_of_stranded struckHere phase (depth.here earlier) closesHere received right
  · intro staysOpen history input extended
    have earlier : history <+: trace := (List.prefix_append ..).trans extended
    obtain ⟨listener, report, ran, measured, phase⟩ :=
      run_inPhase depth earlier (staysOpen.of_earlier earlier)
    obtain ⟨next, calls, received, right, later⟩ :=
      phase.advances measured (depth.here earlier) (staysOpen.of_earlier extended)
    exact ⟨listener, report, next, calls, ran, received, right, later.closedRight⟩

/-- A region with a reset in it. -/
def resetInRegion : ResetTrace ℕ :=
  [
    .input { moment := 1, event := .pushRegionEvent "region" },
    .reset,
    .input { moment := 2, event := .popRegionEvent }
  ]

theorem regionTimerListener_reusable_iff_resetInRegion
    : Reusable ℕ ({ name := "region" } : EventNameMatcher) resetInRegion
      ↔ StruckStaysOpen ({ name := "region" } : EventNameMatcher) resetInRegion :=
  regionTimerListener_reusable_iff _ _ (by decide)

/-- The timer is started at the pop event. -/
theorem resetInRegion_not_reusable
    : ResetsNestedBelow UInt32.size resetInRegion
      ∧ ¬ Reusable ℕ ({ name := "region" } : EventNameMatcher) resetInRegion := by
  refine ⟨by decide, fun reusable => ?_⟩
  obtain ⟨listener, report, next, calls, ran, received, right, -⟩ :=
    reusable (resetInRegion.take 2) (.input { moment := 2, event := .popRegionEvent })
      List.prefix_rfl
  obtain ⟨rfl, rfl⟩ := Prod.mk.inj (Option.some.inj ran)
  obtain ⟨rfl, shown⟩ := Prod.mk.inj (Option.some.inj received)
  obtain rfl : calls = [.start] := (List.cons.inj shown).1.symm
  obtain ⟨stamped, same, matched⟩ := right.start (List.mem_singleton_self _)
  cases same
  cases matched

end KokkosUtils.Callbacks
