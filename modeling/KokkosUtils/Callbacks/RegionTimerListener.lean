import Mathlib.Data.List.Infix
import KokkosUtils.Callbacks.SpanTiming
import KokkosUtils.Foundations.Nesting

/-! RegionTimerListener with the two timers that it admits.
The matcher counts the regions nested in the matched one; the span it detects is the one
from the first matching push to the pop that closes it.
-/

namespace KokkosUtils.Callbacks

open KokkosUtils.Foundations KokkosUtils.Impl

variable {θ δ M T : Type}

/-- The side of a pair of region events that an event is, if it is one. -/
def KokkosEvent.bracket? : KokkosEvent → Option Bracket
  | .pushRegionEvent _ => some .opening
  | .popRegionEvent => some .closing
  | _ => none

/-- Region events open and close regions. -/
def Stamped.bracket? (stamped : Stamped θ) : Option Bracket := stamped.event.bracket?

/-- At each point of a stream, fewer regions than the bound are open. -/
def NestedBelow (bound : ℕ) (stream : List (Stamped θ)) : Prop :=
  ∀ history ∈ stream.inits, nestingDepth Stamped.bracket? history < bound

instance (bound : ℕ) (stream : List (Stamped θ)) : Decidable (NestedBelow bound stream) :=
  inferInstanceAs (Decidable (∀ history ∈ stream.inits, _))

/-- The bound holds in the first part of a stream. -/
theorem NestedBelow.of_earlier {bound : ℕ} {history stream : List (Stamped θ)}
    (depth : NestedBelow bound stream) (earlier : history <+: stream)
    : NestedBelow bound history := by
  intro before member
  rw [List.mem_inits] at member
  exact depth before ((List.mem_inits ..).mpr (member.trans earlier))

/-- The `matcher_t` of RegionTimerListener. -/
abbrev RegionMatcher (M : Type) : Type :=
  EventTypeMatcher [.pushRegionEvent, .popRegionEvent] (EventRegionMatcher M true)

/-- `RegionTimerListener`. -/
abbrev RegionTimerListener (M T : Type) : Type := TimerListener (RegionMatcher M) T

/-- The constructor of RegionTimerListener. -/
def RegionTimerListener.new (matcher : M) (timer : T) : RegionTimerListener M T :=
  { matcher := { matcher := { matcher := matcher } }, timer := timer }

section

variable [Matcher M]

/-- Whether an event is a push event that a matcher accepts. -/
def matchedPush (matcher : M) (stamped : Stamped θ) : Bool :=
  stamped.bracket? == some .opening && Matcher.accepts matcher stamped.event

/-- The position of the first push event that a matcher accepts. -/
def firstPush (matcher : M) (stream : List (Stamped θ)) : Option ℕ :=
  stream.findIdx? (matchedPush matcher)

/-- The position of the pop event that closes the first push event that a matcher accepts. -/
def correspondingPop (matcher : M) (stream : List (Stamped θ)) : Option ℕ :=
  (firstPush matcher stream).bind (fun push => closingOf Stamped.bracket? push stream)

/-- The span from the first push event that a matcher accepts to its pop event. -/
def regionDetector (matcher : M) : SpanDetector (Stamped θ) ℕ :=
  bracketDetector Stamped.bracket? (fun stamped => Matcher.accepts matcher stamped.event)

theorem regionDetector_openedAt (matcher : M) (stream : List (Stamped θ))
    : (regionDetector matcher).openedAt stream = firstPush matcher stream :=
  bracketDetector_openedAt stream

theorem regionDetector_closedAt (matcher : M) (stream : List (Stamped θ))
    : (regionDetector matcher).closedAt stream = correspondingPop matcher stream := by
  rw [correspondingPop, ← regionDetector_openedAt]
  exact bracketDetector_closedAt stream

/-- The state of a region matcher that follows a span. -/
def followsRegion (matcher : M) (span : Span ℕ) (self : RegionMatcher M) : Prop :=
  self.matcher.matcher = matcher
  ∧ match span with
    | .inside above =>
        self.matcher.matching = true ∧ self.matcher.nestedLevel = UInt32.ofNat (above + 1)
    | _ => self.matcher.matching = false

end

theorem regionMatcher_call [Matcher M] (event : KokkosEvent) (self : RegionMatcher M)
    : Matcher.call event self
      = (
          (EventRegionMatcher.call event self.matcher).1,
          { matcher := (EventRegionMatcher.call event self.matcher).2 }
        ) :=
  rfl

/-- A nested level that is neither zero nor wraps around is not zero. -/
theorem nestedLevel_ne_zero {above : ℕ} (bound : above + 1 < UInt32.size)
    : UInt32.ofNat above + 1 ≠ 0 := by
  intro wrapped
  have level := congrArg UInt32.toNat wrapped
  rw [UInt32.toNat_add, UInt32.toNat_ofNat_of_lt' (Nat.lt_of_succ_lt bound)] at level
  have unwrapped : (above + 1) % UInt32.size = 0 := level
  rw [Nat.mod_eq_of_lt bound] at unwrapped
  exact Nat.succ_ne_zero above unwrapped

section

attribute [local simp] regionMatcher_call EventRegionMatcher.call regionDetector bracketDetector
  SpanDetector.changes SpanDetector.step followsRegion Stamped.bracket? KokkosEvent.bracket?

/-- A region matcher that follows an unfinished span accepts the events that change it and
follows it further, by cases on the span and on the side of the event.
-/
theorem followsRegion_call [StatelessMatcher M] {matcher : M} {span : Span ℕ}
    {self : RegionMatcher M} (input : Stamped θ) (follows : followsRegion matcher span self)
    (unfinished : span.ended = false)
    (bounded : ∀ above, span = .inside above → above < UInt32.size)
    : (Matcher.call input.event self).1 = (regionDetector matcher).changes input span
      ∧ followsRegion matcher ((regionDetector matcher).step input span)
          (Matcher.call input.event self).2 := by
  obtain ⟨⟨inner, matching, level⟩⟩ := self
  obtain ⟨moment, event⟩ := input
  obtain ⟨rfl, state⟩ := follows
  cases span with
  | closed => cases unfinished
  | waiting =>
      obtain rfl : matching = false := state
      cases event with
      | pushRegionEvent name =>
          have inert := StatelessMatcher.call_eq (.pushRegionEvent name) inner
          cases accepted : Matcher.accepts inner (.pushRegionEvent name) <;>
            simp [inert, accepted]
      | _ => simp
  | inside above =>
      obtain ⟨rfl, rfl⟩ := state
      cases event with
      | popRegionEvent =>
          cases above with
          | zero => simp
          | succ above => simp [nestedLevel_ne_zero (bounded (above + 1) rfl)]
      | _ => simp

end

/-- No event but a region event changes the span. -/
theorem regionDetector_step_of_other [Matcher M] {matcher : M} {input : Stamped θ}
    (other : input.bracket? = none) (span : Span ℕ)
    : (regionDetector matcher).step input span = span := by
  cases span with
  | closed => rfl
  | _ => simp [SpanDetector.step, regionDetector, bracketDetector, other]

/-- The region matcher is for region events only. -/
theorem bracket?_of_not_for [Matcher M] {input : Stamped θ}
    (other : Matcher.isMatcherFor (RegionMatcher M) input.event.type = false)
    : input.bracket? = none := by
  obtain ⟨moment, event⟩ := input
  cases event <;> first | rfl | cases other

/-- What opens the span is a push event that the matcher accepts. -/
theorem matchedPush_of_opens [Matcher M] {matcher : M} {input : Stamped θ} {span : Span ℕ}
    (waiting : span.begun = false)
    (changed : (regionDetector matcher).changes input span = true)
    : matchedPush matcher input = true := by
  have opens := SpanDetector.opens_of_changes waiting changed
  simp only [regionDetector, bracketDetector] at opens
  split at opens
  · assumption
  · cases opens

/-- A push event can only open the span. -/
theorem begun_eq_false_of_push [Matcher M] {matcher : M} {input : Stamped θ} {span : Span ℕ}
    (push : input.bracket? = some .opening)
    (changed : (regionDetector matcher).changes input span = true)
    : span.begun = false := by
  cases span with
  | waiting => rfl
  | inside above => simp [SpanDetector.changes, regionDetector, bracketDetector, push] at changed
  | closed => cases changed

/-- A pop event can only close the span. -/
theorem begun_of_pop [Matcher M] {matcher : M} {input : Stamped θ} {span : Span ℕ}
    (pop : input.bracket? = some .closing)
    (changed : (regionDetector matcher).changes input span = true)
    : span.begun = true := by
  cases span with
  | waiting => simp [SpanDetector.changes, regionDetector, bracketDetector, pop] at changed
  | inside above => rfl
  | closed => cases changed

/-- How a region timer listener is expected to act, given what the calls make of its timer. -/
def regionTiming [Matcher M] (matcher : M) (initial : T) (started : θ → T) (stopped : θ → T → T)
    (startCalls stopCalls : List TimerCall)
    : SpanTiming θ (RegionMatcher M) T ℕ where
  detector := regionDetector matcher
  follows := followsRegion matcher
  initial := initial
  started := started
  stopped := stopped
  startCalls := startCalls
  stopCalls := stopCalls

/-- A listener that has matched nothing since its construction or its last reset, outside the
regions that its matcher accepts.
-/
structure RegionTimerListener.Fresh [Matcher M] (matcher : M) (listener : RegionTimerListener M T)
    : Prop where
  begun : listener.matchedBegin = false
  ended : listener.matchedEnd = false
  idle : followsRegion matcher .waiting listener.matcher

theorem RegionTimerListener.fresh_new [Matcher M] (matcher : M) (timer : T)
    : (RegionTimerListener.new matcher timer).Fresh matcher :=
  ⟨rfl, rfl, rfl, rfl⟩

/-- A fresh listener acts as expected on a stream, when the calls on its timer do what they are
expected to do.
-/
theorem regionTiming_run [StatelessMatcher M] [TimerType θ T] {matcher : M} {started : θ → T}
    {stopped : θ → T → T} {startCalls stopCalls : List TimerCall}
    {listener : RegionTimerListener M T} {stream : List (Stamped θ)}
    (starts
      : ∀ {input : Stamped θ},
          matchedPush matcher input = true
          → startTimer input.moment input.event listener.timer
            = some (started input.moment, startCalls))
    (stops
      : ∀ (input : Stamped θ) (timer : T),
          stopTimer input.moment input.event timer
          = some (stopped input.moment timer, stopCalls))
    (fresh : listener.Fresh matcher) (depth : NestedBelow UInt32.size stream)
    : ∃ final report,
        runSteps TimerListener.receive stream listener = some (final, report)
        ∧ (regionTiming matcher listener.timer started stopped startCalls stopCalls).Tracks stream
            final report := by
  refine SpanTiming.run ⟨fresh.begun, fresh.ended, fresh.idle, rfl, rfl⟩
    fun {history input} extended => ?_
  refine ⟨fun other => regionDetector_step_of_other (bracket?_of_not_for other) _, ?_, ?_,
    stops input⟩
  · intro self _ unfinished follows
    refine followsRegion_call input follows unfinished fun above seen => ?_
    have earlier : history <+: stream := (List.prefix_append ..).trans extended
    exact Nat.lt_trans (lt_nestingDepth_of_inside seen)
      (depth history ((List.mem_inits history stream).mpr earlier))
  · intro waiting changed
    exact starts (matchedPush_of_opens waiting changed)

/-- The expected actions on a `Timer<void>`. -/
def voidTiming [Matcher M] (matcher : M) (initial : Timers.Timer θ)
    : SpanTiming θ (RegionMatcher M) (Timers.Timer θ) ℕ :=
  regionTiming matcher initial (fun moment => initial.start moment) (fun moment => .stop moment)
    [.start] [.stop]

/-- A fresh listener with a `Timer<void>` starts and stops it as expected. -/
theorem voidTiming_run [StatelessMatcher M] {matcher : M}
    {listener : RegionTimerListener M (Timers.Timer θ)} {stream : List (Stamped θ)}
    (fresh : listener.Fresh matcher) (depth : NestedBelow UInt32.size stream)
    : ∃ final report,
        runSteps TimerListener.receive stream listener = some (final, report)
        ∧ (voidTiming matcher listener.timer).Tracks stream final report :=
  regionTiming_run (fun _ => rfl) (fun _ _ => rfl) fresh depth

end KokkosUtils.Callbacks
