import KokkosUtils.Callbacks.RegionResets
import KokkosUtils.Callbacks.SequenceTiming

/-! SequenceOfRegionTimerListener that is reset at any points of a stream. The reset goes back to
the first region and leaves all region matchers as they are. One that is inside its region stays
there and is met again when the sequence comes to it.
-/

namespace KokkosUtils.Callbacks

open KokkosUtils.Foundations

variable {θ M : Type}

/-- Whether some matcher of a sequence is inside its region. -/
def SequenceOfRegionTimerListener.insideRegion (self : SequenceOfRegionTimerListener M θ) : Bool :=
  self.matchers.any (fun inner => inner.matcher.matching)

section

variable [Matcher M]

/-- Delivers an event or resets the sequence. The report has one entry for each. -/
def SequenceOfRegionTimerListener.receiveOrReset
    : Resettable (Stamped θ) → SequenceOfRegionTimerListener M θ
      → Option (SequenceOfRegionTimerListener M θ × List (List (ℕ × TimerCall))) :=
  stepOrReset SequenceOfRegionTimerListener.receive SequenceOfRegionTimerListener.reset []

/-- A clean pass of a sequence: each timer is started exactly at the push event of its region
and stopped exactly at its pop event, and all regions are matched exactly from the last of these
pop events.
-/
structure CleanPass (matchers : List M) (stream : List (Stamped θ))
    (sequence : SequenceOfRegionTimerListener M θ)
    : Prop where
  calls
    : ∃ final,
        runSteps SequenceOfRegionTimerListener.receive stream sequence
        = some (final, sequenceCalls matchers stream)
  allMatched
    : ∀ history,
        history <+: stream
        → ∃ middle report,
            runSteps SequenceOfRegionTimerListener.receive history sequence
              = some (middle, report)
            ∧ (middle.allMatched = true
                ↔ ∀ matcher ∈ matchers, (correspondingPop matcher history).isSome = true)

/-- Whether a sequence is inside a region after a stream that it receives from the start: it
awaits one region after the other, the next one from the pop event of the one before.
-/
def awaitsInside : List M → List (Stamped θ) → Bool
  | [], _ => false
  | matcher :: later, stream =>
      match correspondingPop matcher stream with
      | none => (firstPush matcher stream).isSome
      | some pop => awaitsInside later (stream.drop (pop + 1))

end

-----------------------------------------------------------------------------------------
-- One event
-----------------------------------------------------------------------------------------

/-- The call that an accepted region event leads to. -/
def timerCallOf : Bracket → TimerCall
  | .opening => .start
  | .closing => .stop

/-- What a reached sequence is made of: one matcher and one timer for each region. -/
structure SequenceFor (matchers : List M) (sequence : SequenceOfRegionTimerListener M θ)
    : Prop where
  made : sequence.matchers.map (fun inner => inner.matcher.matcher) = matchers
  timers : sequence.timers.length = matchers.length
  current : sequence.current ≤ matchers.length

/-- What an event does to a sequence: nothing, or it calls the current matcher, whose verdict
decides on what becomes of the current timer and of the index.
-/
inductive Outcome [Matcher M] (input : Stamped θ) (sequence : SequenceOfRegionTimerListener M θ)
    : SequenceOfRegionTimerListener M θ → List (ℕ × TimerCall) → Prop
  | ignored (why : sequence.allMatched = true ∨ input.bracket? = none)
    : Outcome input sequence sequence []
  | called {next : SequenceOfRegionTimerListener M θ} {calls : List (ℕ × TimerCall)}
    (inner : RegionMatcher M) (side : Bracket)
    (unfinished : sequence.allMatched = false)
    (there : sequence.matchers[sequence.current]? = some inner)
    (region : input.bracket? = some side)
    (matchers
      : next.matchers
        = sequence.matchers.set sequence.current (Matcher.call input.event inner).2)
    (timers : next.timers.length = sequence.timers.length)
    (current
      : next.current
        = if (Matcher.call input.event inner).1 && side == .closing then
            sequence.current + 1
          else
            sequence.current)
    (shown
      : calls
        = if (Matcher.call input.event inner).1 then
            [(sequence.current, timerCallOf side)]
          else
            [])
    : Outcome input sequence next calls

section

variable {matchers : List M} {sequence next : SequenceOfRegionTimerListener M θ}
  {input : Stamped θ} {calls : List (ℕ × TimerCall)}

/-- An unfinished sequence has a current matcher. -/
theorem SequenceFor.exists_current (sound : SequenceFor matchers sequence)
    (unfinished : sequence.allMatched = false)
    : ∃ inner timer,
        sequence.matchers[sequence.current]? = some inner
        ∧ sequence.timers[sequence.current]? = some timer
        ∧ matchers[sequence.current]? = some inner.matcher.matcher := by
  have count : sequence.matchers.length = matchers.length := by
    rw [← sound.made, List.length_map]
  rw [SequenceOfRegionTimerListener.allMatched, beq_eq_false_iff_ne, sound.timers] at unfinished
  have bound : sequence.current < matchers.length :=
    Nat.lt_of_le_of_ne sound.current unfinished
  obtain ⟨inner, there⟩ : ∃ inner, sequence.matchers[sequence.current]? = some inner :=
    ⟨_, List.getElem?_eq_getElem (bound.trans_eq count.symm)⟩
  refine ⟨inner, _, there, List.getElem?_eq_getElem (bound.trans_eq sound.timers.symm), ?_⟩
  rw [← sound.made, List.getElem?_map, there]
  rfl

/-- With no matcher inside its region, a sequence has an idle matcher for each region. -/
theorem SequenceFor.exists_idle (sound : SequenceFor matchers sequence)
    (outside : sequence.insideRegion = false) {index : ℕ} {matcher : M}
    (there : matchers[index]? = some matcher)
    : ∃ inner,
        sequence.matchers[index]? = some inner
        ∧ inner.matcher.matcher = matcher
        ∧ inner.matcher.matching = false := by
  rw [← sound.made, List.getElem?_map, Option.map_eq_some_iff] at there
  obtain ⟨inner, placed, same⟩ := there
  have idle := List.any_eq_false.mp outside inner (List.mem_of_getElem? placed)
  exact ⟨inner, placed, same, Bool.eq_false_iff.mpr idle⟩

/-- A reached sequence deals with every event, by cases on whether it is finished, on the side of
the event and on the verdict of the current matcher.
-/
theorem SequenceFor.receive [Matcher M] (sound : SequenceFor matchers sequence) (input : Stamped θ)
    : ∃ next calls,
        sequence.receive input = some (next, [calls]) ∧ Outcome input sequence next calls := by
  cases unfinished : sequence.allMatched with
  | true =>
      exact ⟨_, _, SequenceOfRegionTimerListener.receive_of_allMatched unfinished,
        .ignored (.inl unfinished)⟩
  | false =>
      obtain ⟨inner, timer, there, timed, -⟩ := sound.exists_current unfinished
      rcases region : input.bracket? with _ | side
      · exact ⟨_, _, SequenceOfRegionTimerListener.receive_other region, .ignored (.inr region)⟩
      · cases verdict : (Matcher.call input.event inner).1 with
        | false =>
            refine ⟨_, _, SequenceOfRegionTimerListener.receive_of_not_matched unfinished there
              (Option.isSome_of_eq_some region) verdict,
              .called inner side unfinished there region rfl rfl ?_ ?_⟩ <;>
              simp [verdict]
        | true =>
            cases side with
            | opening =>
                refine ⟨_, _, SequenceOfRegionTimerListener.receive_push_of_matched unfinished
                  there timed region verdict,
                  .called inner .opening unfinished there region rfl List.length_set ?_ ?_⟩ <;>
                  simp [verdict, timerCallOf]
            | closing =>
                refine ⟨_, _, SequenceOfRegionTimerListener.receive_pop_of_matched unfinished
                  there timed region verdict,
                  .called inner .closing unfinished there region rfl List.length_set ?_ ?_⟩ <;>
                  simp [verdict, timerCallOf]

theorem SequenceFor.new (matchers : List M)
    : SequenceFor matchers (.new matchers : SequenceOfRegionTimerListener M θ) where
  made := (List.map_map ..).trans (List.map_id _)
  timers := List.length_replicate
  current := Nat.zero_le _

theorem SequenceFor.reset (sound : SequenceFor matchers sequence)
    : SequenceFor matchers sequence.reset :=
  { sound with current := Nat.zero_le _ }

/-- A region matcher without state inside keeps the matcher it was made with. -/
theorem regionMatcher_call_matcher [StatelessMatcher M] (event : KokkosEvent)
    (inner : RegionMatcher M)
    : (Matcher.call event inner).2.matcher.matcher = inner.matcher.matcher := by
  rw [regionMatcher_call]
  cases event with
  | pushRegionEvent name =>
      simp only [EventRegionMatcher.call, StatelessMatcher.call_eq]
      split
      · rfl
      · split <;> rfl
  | popRegionEvent =>
      simp only [EventRegionMatcher.call]
      split
      · split <;> rfl
      · rfl
  | _ => rfl

/-- No event changes what a sequence is made of. -/
theorem SequenceFor.of_outcome [StatelessMatcher M] (sound : SequenceFor matchers sequence)
    (outcome : Outcome input sequence next calls)
    : SequenceFor matchers next := by
  cases outcome with
  | ignored why => exact sound
  | called inner side unfinished there region called timers current shown =>
      refine ⟨?_, timers.trans sound.timers, ?_⟩
      · rw [called, List.map_set, regionMatcher_call_matcher, sound.made]
        obtain ⟨inner', timer, there', -, placed⟩ := sound.exists_current unfinished
        obtain rfl := Option.some.inj (there.symm.trans there')
        exact set_of_getElem?_eq_some placed
      · obtain ⟨_, _, -, -, placed⟩ := sound.exists_current unfinished
        have bound := (List.getElem?_eq_some_iff.mp placed).1
        rw [current]
        split
        · exact bound
        · exact Nat.le_of_lt bound

/-- A sequence receives any stream of events and resets without an exception. -/
theorem SequenceFor.run [StatelessMatcher M] (matchers : List M)
    (delivered : List (Resettable (Stamped θ)))
    : ∃ sequence report,
        runSteps SequenceOfRegionTimerListener.receiveOrReset delivered (.new matchers)
          = some (sequence, report)
        ∧ SequenceFor matchers sequence := by
  induction delivered using List.reverseRecOn with
  | nil => exact ⟨_, _, rfl, .new matchers⟩
  | append_singleton delivered entry ih =>
      obtain ⟨sequence, report, ran, sound⟩ := ih
      cases entry with
      | reset => exact ⟨_, _, runSteps_concat ran rfl, sound.reset⟩
      | input input =>
          obtain ⟨next, calls, received, outcome⟩ := sound.receive input
          exact ⟨_, _, runSteps_concat ran received, sound.of_outcome outcome⟩

end

-----------------------------------------------------------------------------------------
-- A matcher that is inside its region
-----------------------------------------------------------------------------------------

/-- The matcher at an index is inside its region. -/
def MatchingAt (sequence : SequenceOfRegionTimerListener M θ) (index : ℕ) : Prop :=
  ∃ inner, sequence.matchers[index]? = some inner ∧ inner.matcher.matching = true

theorem insideRegion_eq_true {sequence : SequenceOfRegionTimerListener M θ}
    : sequence.insideRegion = true ↔ ∃ index, MatchingAt sequence index := by
  simp only [SequenceOfRegionTimerListener.insideRegion, List.any_eq_true, MatchingAt]
  constructor
  · rintro ⟨inner, member, matching⟩
    obtain ⟨index, there⟩ := List.mem_iff_getElem?.mp member
    exact ⟨index, inner, there, matching⟩
  · rintro ⟨index, inner, there, matching⟩
    exact ⟨inner, List.mem_of_getElem? there, matching⟩

section

variable [Matcher M] {matchers : List M} {sequence next : SequenceOfRegionTimerListener M θ}
  {input : Stamped θ} {calls : List (ℕ × TimerCall)} {index : ℕ}

/-- A region matcher inside its region rejects push events, and accepts a pop event only when it
leaves the region.
-/
theorem regionMatcher_call_of_matching {inner : RegionMatcher M} {side : Bracket}
    (matching : inner.matcher.matching = true) (region : input.bracket? = some side)
    : ((Matcher.call input.event inner).1 = false
        ∧ (Matcher.call input.event inner).2.matcher.matching = true)
      ∨ (Matcher.call input.event inner).1 = true ∧ side = .closing := by
  obtain ⟨moment, event⟩ := input
  rw [regionMatcher_call]
  cases event with
  | pushRegionEvent name => exact .inl (by simp [EventRegionMatcher.call, matching])
  | popRegionEvent =>
      obtain rfl : .closing = side := Option.some.inj region
      by_cases last : inner.matcher.nestedLevel - 1 = 0
      · exact .inr (by simp [EventRegionMatcher.call, matching, last])
      · exact .inl (by simp [EventRegionMatcher.call, matching, last])
  | _ => cases region

/-- An event does not start the timer of a matcher that is inside its region. Unless it stops
that timer, the matcher stays inside.
-/
theorem MatchingAt.of_outcome (matching : MatchingAt sequence index)
    (outcome : Outcome input sequence next calls)
    : (index, .start) ∉ calls ∧ ((index, .stop) ∈ calls ∨ MatchingAt next index) := by
  obtain ⟨stuck, placed, inside⟩ := matching
  cases outcome with
  | ignored why => exact ⟨List.not_mem_nil, .inr ⟨stuck, placed, inside⟩⟩
  | called inner side unfinished there region called timers current shown =>
      by_cases same : sequence.current = index
      · subst same
        obtain rfl := Option.some.inj (placed.symm.trans there)
        have bound := (List.getElem?_eq_some_iff.mp placed).1
        rcases regionMatcher_call_of_matching inside region with
          ⟨verdict, still⟩ | ⟨verdict, rfl⟩
        · rw [verdict] at shown
          refine ⟨by simp [shown], .inr ⟨_, ?_, still⟩⟩
          rw [called, List.getElem?_set_self bound]
        · rw [verdict] at shown
          exact ⟨by simp [shown, timerCallOf], .inl (by simp [shown, timerCallOf])⟩
      · refine ⟨?_, .inr ⟨stuck, ?_, inside⟩⟩
        · rw [shown]
          split <;> simp [Ne.symm same]
        · rw [called, List.getElem?_set_ne same]
          exact placed

end

/-- Along a stream, the timer of a matcher that is inside its region is not started before it has
been stopped: induction on the stream.
-/
theorem MatchingAt.stop_before_start [StatelessMatcher M] {matchers : List M} {index : ℕ}
    {stream : List (Stamped θ)} {sequence final : SequenceOfRegionTimerListener M θ}
    {report : List (List (ℕ × TimerCall))} (sound : SequenceFor matchers sequence)
    (matching : MatchingAt sequence index)
    (ran
      : runSteps SequenceOfRegionTimerListener.receive stream sequence = some (final, report))
    {position : ℕ} {calls : List (ℕ × TimerCall)} (there : report[position]? = some calls)
    (started : (index, .start) ∈ calls)
    : ∃ earlier before,
        earlier < position ∧ report[earlier]? = some before ∧ (index, .stop) ∈ before := by
  induction stream generalizing sequence report position with
  | nil =>
      obtain ⟨-, rfl⟩ := Prod.mk.inj (Option.some.inj ran)
      cases there
  | cons input rest ih =>
      obtain ⟨next, shown, outcome⟩ := sound.receive input
      obtain ⟨received, outcome⟩ := outcome
      obtain ⟨next', shown', later, received', ranLater, rfl⟩ := runSteps_cons_eq_some.mp ran
      obtain ⟨rfl, rfl⟩ := Prod.mk.inj (Option.some.inj (received.symm.trans received'))
      obtain ⟨notStarted, stopped | still⟩ := matching.of_outcome outcome
      · cases position with
        | zero =>
            obtain rfl := Option.some.inj there
            exact (notStarted started).elim
        | succ position => exact ⟨0, shown, Nat.succ_pos _, rfl, stopped⟩
      · cases position with
        | zero =>
            obtain rfl := Option.some.inj there
            exact (notStarted started).elim
        | succ position =>
            obtain ⟨earlier, before, less, present, stopped⟩ :=
              ih (sound.of_outcome outcome) still ranLater there
            exact ⟨earlier + 1, before, Nat.succ_lt_succ less, present, stopped⟩

section

variable [Matcher M] {matchers : List M} {stream : List (Stamped θ)} {position index : ℕ}
  {calls : List (ℕ × TimerCall)}

/-- The calls expected of a sequence to one of its timers are those of that region. -/
theorem mem_sequenceCalls (there : (sequenceCalls matchers stream)[position]? = some calls)
    {call : TimerCall}
    : (index, call) ∈ calls
      ↔ ∃ matcher,
          matchers[index]? = some matcher
          ∧ (firstPush matcher stream = some position ∧ call = .start
              ∨ correspondingPop matcher stream = some position ∧ call = .stop) := by
  rw [sequenceCalls, List.getElem?_map, Option.map_eq_some_iff] at there
  obtain ⟨here, inRange, rfl⟩ := there
  obtain ⟨bound, same⟩ := List.getElem?_eq_some_iff.mp inRange
  obtain rfl : position = here := (List.getElem_range bound).symm.trans same
  simp only [List.mem_flatMap, Prod.exists, List.mk_mem_zipIdx_iff_getElem?, List.mem_append]
  constructor
  · rintro ⟨matcher, place, placed, started | stopped⟩
    · split at started
      · obtain ⟨rfl, rfl⟩ := Prod.mk.inj (List.mem_singleton.mp started)
        exact ⟨matcher, placed, .inl ⟨by assumption, rfl⟩⟩
      · cases started
    · split at stopped
      · obtain ⟨rfl, rfl⟩ := Prod.mk.inj (List.mem_singleton.mp stopped)
        exact ⟨matcher, placed, .inr ⟨by assumption, rfl⟩⟩
      · cases stopped
  · rintro ⟨matcher, placed, ⟨pushed, rfl⟩ | ⟨popped, rfl⟩⟩
    · exact ⟨matcher, index, placed, .inl (by simp [pushed])⟩
    · exact ⟨matcher, index, placed, .inr (by simp [popped])⟩

theorem correspondingPop_earlier {matcher : M} {history : List (Stamped θ)}
    (earlier : history <+: stream) (pop : ℕ)
    : correspondingPop matcher history = some pop
      ↔ correspondingPop matcher stream = some pop ∧ pop < history.length := by
  rw [← regionDetector_closedAt, ← regionDetector_closedAt]
  exact SpanDetector.closedAt_earlier earlier pop

/-- A region that is closed later, or not at all, has not been closed yet. -/
theorem correspondingPop_eq_none_of_earlier {matcher : M} {history : List (Stamped θ)}
    (earlier : history <+: stream)
    (notYet : ∀ pop, correspondingPop matcher stream = some pop → history.length ≤ pop)
    : correspondingPop matcher history = none := by
  refine Option.eq_none_iff_forall_ne_some.mpr fun pop popped => ?_
  obtain ⟨closed, before⟩ := (correspondingPop_earlier earlier pop).mp popped
  exact Nat.not_lt.mpr (notYet pop closed) before

/-- A region is closed after it has been opened. -/
theorem firstPush_lt_correspondingPop {matcher : M} {push pop : ℕ}
    (pushed : firstPush matcher stream = some push)
    (popped : correspondingPop matcher stream = some pop)
    : push < pop := by
  rw [correspondingPop, pushed] at popped
  exact lt_closingOf popped

end

section

variable [StatelessMatcher M] {matchers : List M} {stream : List (Stamped θ)}
  {sequence : SequenceOfRegionTimerListener M θ}

/-- A sequence with no matcher inside its region makes a clean pass from a reset on. -/
theorem SequenceFor.cleanPass (sound : SequenceFor matchers sequence)
    (outside : sequence.insideRegion = false) (ordered : RegionsInOrder matchers stream)
    (depth : NestedBelow UInt32.size stream)
    : CleanPass matchers stream sequence.reset := by
  have start : SequenceTracks matchers [] sequence.reset [] :=
    .of_idle rfl sound.timers fun _ _ there => sound.exists_idle outside there
  constructor
  · obtain ⟨final, report, ran, tracks⟩ := start.run ordered depth
    exact ⟨final, by rw [ran, tracks.report]⟩
  · intro history earlier
    have orderedEarlier := (regionsInOrder_iff.mp ordered).of_earlier earlier
    obtain ⟨middle, report, ran, tracks⟩ :=
      start.run (regionsInOrder_iff.mpr orderedEarlier) (depth.of_earlier earlier)
    exact ⟨middle, report, ran, tracks.allMatched_iff⟩

/-- The pass of a sequence with a matcher inside its region is not clean: the timer of that
region would have to be started first, but it is stopped first.
-/
theorem SequenceFor.not_cleanPass (sound : SequenceFor matchers sequence) {index : ℕ}
    (matching : MatchingAt sequence index)
    (occur : ∀ matcher ∈ matchers, (firstPush matcher stream).isSome = true)
    : ¬ CleanPass matchers stream sequence.reset := by
  rintro ⟨⟨final, ran⟩, -⟩
  obtain ⟨inner, placed, inside⟩ := matching
  have there : matchers[index]? = some inner.matcher.matcher := by
    rw [← sound.made, List.getElem?_map, placed]
    rfl
  obtain ⟨push, pushed⟩ := Option.isSome_iff_exists.mp (occur _ (List.mem_of_getElem? there))
  have bound : push < (sequenceCalls matchers stream).length := by
    rw [sequenceCalls, List.length_map, List.length_range]
    exact (List.findIdx?_eq_some_iff_findIdx_eq.mp pushed).1
  have started := (mem_sequenceCalls (List.getElem?_eq_getElem bound)).mpr
    ⟨_, there, .inl ⟨pushed, rfl⟩⟩
  obtain ⟨earlier, before, less, present, stopped⟩ :=
    MatchingAt.stop_before_start sound.reset ⟨inner, placed, inside⟩ ran
      (List.getElem?_eq_getElem bound) started
  obtain ⟨matcher, thereToo, ⟨-, absurd⟩ | ⟨popped, -⟩⟩ := (mem_sequenceCalls present).mp stopped
  · cases absurd
  · obtain rfl := Option.some.inj (there.symm.trans thereToo)
    exact Nat.lt_asymm less (firstPush_lt_correspondingPop pushed popped)

end

-----------------------------------------------------------------------------------------
-- The region that is awaited
-----------------------------------------------------------------------------------------

/-- A sequence since the moment at which it came to a region, up to the end of that region: the
current matcher follows the span of the region, and the others have not been called.
-/
structure Awaits [Matcher M] (matchers : List M) (matcher : M)
    (start : SequenceOfRegionTimerListener M θ) (history : List (Stamped θ))
    (sequence : SequenceOfRegionTimerListener M θ)
    : Prop where
  sound : SequenceFor matchers sequence
  current
    : sequence.current
      = if ((regionDetector matcher).after history).ended then
          start.current + 1
        else
          start.current
  follows
    : ∃ inner,
        sequence.matchers = start.matchers.set start.current inner
        ∧ followsRegion matcher ((regionDetector matcher).after history) inner

section

variable [StatelessMatcher M] {matchers : List M} {matcher : M} {history stream : List (Stamped θ)}
  {start sequence : SequenceOfRegionTimerListener M θ}

/-- An event that changes the span of a region closes it exactly when it is a pop event. -/
theorem ended_step_of_region {span : Span ℕ} {input : Stamped θ} {side : Bracket}
    (unended : span.ended = false) (region : input.bracket? = some side)
    : ((regionDetector matcher).step input span).ended
      = ((regionDetector matcher).changes input span && side == .closing) := by
  rw [SpanDetector.ended_step, unended, Bool.false_or]
  cases changed : (regionDetector matcher).changes input span with
  | false => exact Bool.and_false _
  | true =>
      cases side with
      | opening => rw [begun_eq_false_of_push region changed]; rfl
      | closing => rw [begun_of_pop region changed]; rfl

/-- An event before the end of the awaited region, by cases on whether it reaches the matcher. -/
theorem Awaits.receive (awaits : Awaits matchers matcher start history sequence)
    (there : matchers[start.current]? = some matcher)
    (notClosed : correspondingPop matcher history = none)
    (depth : nestingDepth Stamped.bracket? history < UInt32.size) (input : Stamped θ)
    : ∃ next calls,
        sequence.receive input = some (next, [calls])
        ∧ Awaits matchers matcher start (history ++ [input]) next := by
  obtain ⟨inner, placed, follows⟩ := awaits.follows
  obtain ⟨next, calls, received, outcome⟩ := awaits.sound.receive input
  have sound := awaits.sound.of_outcome outcome
  rw [← regionDetector_closedAt, SpanDetector.closedAt_eq_none] at notClosed
  have same : sequence.current = start.current := by
    rw [awaits.current, notClosed]
    rfl
  cases outcome with
  | ignored why =>
      have unfinished : sequence.allMatched ≠ true := by
        rw [SequenceOfRegionTimerListener.allMatched, same, awaits.sound.timers, beq_iff_eq.ne]
        exact Nat.ne_of_lt (List.getElem?_eq_some_iff.mp there).1
      have unchanged
          : (regionDetector matcher).after (history ++ [input])
            = (regionDetector matcher).after history := by
        rw [SpanDetector.after_concat]
        exact regionDetector_step_of_other (why.resolve_left unfinished) _
      refine ⟨sequence, [], received, sound, ?_, inner, placed, ?_⟩
      · rw [unchanged]
        exact awaits.current
      · rw [unchanged]
        exact follows
  | called current side unfinished present region called timers moved shown =>
      rw [placed, same, List.getElem?_set] at present
      obtain rfl : inner = current := by
        split at present <;> simp_all
      obtain ⟨verdict, followed⟩ := followsRegion_call input follows notClosed
        fun above seen => Nat.lt_trans (lt_nestingDepth_of_inside seen) depth
      refine ⟨next, calls, received, sound, ?_, (Matcher.call input.event inner).2, ?_, ?_⟩
      · rw [SpanDetector.after_concat, ended_step_of_region notClosed region, ← verdict, moved,
          same]
      · rw [called, placed, same, List.set_set]
      · rw [SpanDetector.after_concat]
        exact followed

/-- A sequence with no matcher inside its region awaits the region it has come to. -/
theorem SequenceFor.awaits (sound : SequenceFor matchers start)
    (there : matchers[start.current]? = some matcher) (outside : start.insideRegion = false)
    : Awaits matchers matcher start [] start := by
  obtain ⟨inner, placed, same, idle⟩ := sound.exists_idle outside there
  exact ⟨sound, rfl, inner, (set_of_getElem?_eq_some placed).symm, same, idle⟩

/-- A sequence receives a stream up to the end of the awaited region: induction on the stream
from its end.
-/
theorem Awaits.run (start : Awaits matchers matcher sequence [] sequence)
    (there : matchers[sequence.current]? = some matcher) (depth : NestedBelow UInt32.size stream)
    (notBefore
      : ∀ history input, history ++ [input] <+: stream → correspondingPop matcher history = none)
    : ∃ final report,
        runSteps SequenceOfRegionTimerListener.receive stream sequence = some (final, report)
        ∧ Awaits matchers matcher sequence stream final := by
  induction stream using List.reverseRecOn with
  | nil => exact ⟨_, _, rfl, start⟩
  | append_singleton history input ih =>
      have earlier : history <+: history ++ [input] := List.prefix_append ..
      obtain ⟨middle, report, ran, awaits⟩ :=
        ih (depth.of_earlier earlier)
          fun before next extended => notBefore before next (extended.trans earlier)
      obtain ⟨next, calls, received, later⟩ :=
        awaits.receive there (notBefore history input List.prefix_rfl)
          (depth history ((List.mem_inits ..).mpr earlier)) input
      exact ⟨next, _, runSteps_concat ran received, later⟩

/-- While a sequence awaits a region that it has found itself outside all others, it is inside a
region exactly when that one has begun and not ended.
-/
theorem Awaits.insideRegion_eq (awaits : Awaits matchers matcher start stream sequence)
    (there : matchers[start.current]? = some matcher) (outside : start.insideRegion = false)
    : sequence.insideRegion
      = (((regionDetector matcher).after stream).begun
          && !((regionDetector matcher).after stream).ended) := by
  obtain ⟨inner, placed, -, state⟩ := awaits.follows
  have bound : start.current < start.matchers.length := by
    have length := congrArg List.length awaits.sound.made
    rw [List.length_map, placed, List.length_set] at length
    rw [length]
    exact (List.getElem?_eq_some_iff.mp there).1
  have others : ∀ other ∈ start.matchers, other.matcher.matching = false := by
    simpa [SequenceOfRegionTimerListener.insideRegion] using outside
  have matching : sequence.insideRegion = inner.matcher.matching := by
    rw [SequenceOfRegionTimerListener.insideRegion, placed, Bool.eq_iff_iff, List.any_eq_true]
    constructor
    · rintro ⟨other, member, inside⟩
      rcases List.mem_or_eq_of_mem_set member with before | rfl
      · cases (others other before).symm.trans inside
      · exact inside
    · exact fun inside => ⟨inner, List.mem_set bound inner, inside⟩
  rw [matching]
  cases seen : (regionDetector matcher).after stream with
  | inside above =>
      rw [seen] at state
      exact state.1
  | _ =>
      rw [seen] at state
      exact state

/-- A finished sequence ignores a whole stream. -/
theorem run_of_allMatched (finished : sequence.allMatched = true) (stream : List (Stamped θ))
    : ∃ report,
        runSteps SequenceOfRegionTimerListener.receive stream sequence
        = some (sequence, report) := by
  induction stream using List.reverseRecOn with
  | nil => exact ⟨_, rfl⟩
  | append_singleton history input ih =>
      obtain ⟨report, ran⟩ := ih
      exact ⟨_, runSteps_concat ran
        (SequenceOfRegionTimerListener.receive_of_allMatched finished)⟩

/-- The bound holds in the last part of a stream. -/
theorem NestedBelow.drop {bound : ℕ} (depth : NestedBelow bound stream) (count : ℕ)
    : NestedBelow bound (stream.drop count) := by
  intro history member
  rw [List.mem_inits] at member
  have whole := (List.prefix_append_right_inj (stream.take count)).mpr member
  rw [List.take_append_drop] at whole
  exact Nat.lt_of_le_of_lt (nestingDepth_le_append (stream.take count) history)
    (depth _ ((List.mem_inits ..).mpr whole))

/-- A sequence outside all regions receives a stream that does not close the region it awaits, and
is then inside a region exactly when that one has been opened.
-/
theorem SequenceFor.run_of_not_closed (sound : SequenceFor matchers sequence)
    (outside : sequence.insideRegion = false)
    (there : matchers[sequence.current]? = some matcher) (depth : NestedBelow UInt32.size stream)
    (notClosed : correspondingPop matcher stream = none)
    : ∃ final report,
        runSteps SequenceOfRegionTimerListener.receive stream sequence = some (final, report)
        ∧ final.insideRegion = (firstPush matcher stream).isSome := by
  obtain ⟨final, report, ran, still⟩ :=
    (sound.awaits there outside).run there depth fun history input extended => by
      refine correspondingPop_eq_none_of_earlier ((List.prefix_append ..).trans extended) ?_
      intro pop closed
      cases notClosed.symm.trans closed
  refine ⟨final, report, ran, ?_⟩
  rw [still.insideRegion_eq there outside, SpanDetector.begun_after, SpanDetector.ended_after,
    regionDetector_openedAt, regionDetector_closedAt, notClosed]
  exact Bool.and_true _

/-- A sequence outside all regions is so again at the pop event of the region it awaits, and has
come to the next one.
-/
theorem SequenceFor.run_to_pop (sound : SequenceFor matchers sequence)
    (outside : sequence.insideRegion = false)
    (there : matchers[sequence.current]? = some matcher) (depth : NestedBelow UInt32.size stream)
    {pop : ℕ} (closed : correspondingPop matcher stream = some pop)
    : ∃ middle report,
        runSteps SequenceOfRegionTimerListener.receive (stream.take (pop + 1)) sequence
          = some (middle, report)
        ∧ SequenceFor matchers middle
        ∧ middle.insideRegion = false
        ∧ middle.current = sequence.current + 1 := by
  have earlier : stream.take (pop + 1) <+: stream := List.take_prefix ..
  have length : (stream.take (pop + 1)).length = pop + 1 :=
    List.length_take_of_le ((correspondingPop_earlier List.prefix_rfl pop).mp closed).2
  obtain ⟨middle, report, ran, passed⟩ :=
    (sound.awaits there outside).run there (depth.of_earlier earlier)
      fun history input extended => by
        have before := (List.prefix_append history [input]).trans extended
        refine correspondingPop_eq_none_of_earlier (before.trans earlier) ?_
        intro other closedToo
        obtain rfl := Option.some.inj (closed.symm.trans closedToo)
        have fits := extended.length_le
        rw [length, List.length_append, List.length_singleton] at fits
        exact Nat.le_of_succ_le_succ fits
  have ended : ((regionDetector matcher).after (stream.take (pop + 1))).ended = true := by
    rw [SpanDetector.ended_after, regionDetector_closedAt,
      (correspondingPop_earlier earlier pop).mpr ⟨closed, by simp [length]⟩]
    rfl
  refine ⟨middle, report, ran, passed.sound, ?_, ?_⟩
  · rw [passed.insideRegion_eq there outside, ended]
    exact Bool.and_false _
  · rw [passed.current, if_pos ended]

/-- A sequence that is outside all regions is inside one after a stream exactly when it is in the
region that it then awaits: induction on the regions still to come.
-/
theorem SequenceFor.run_insideRegion {later : List M} (sound : SequenceFor matchers sequence)
    (outside : sequence.insideRegion = false) (remaining : matchers.drop sequence.current = later)
    (depth : NestedBelow UInt32.size stream)
    : ∃ final report,
        runSteps SequenceOfRegionTimerListener.receive stream sequence = some (final, report)
        ∧ final.insideRegion = awaitsInside later stream := by
  induction later generalizing sequence stream with
  | nil =>
      have finished : sequence.allMatched = true := by
        rw [SequenceOfRegionTimerListener.allMatched, sound.timers, beq_iff_eq]
        exact Nat.le_antisymm sound.current (List.drop_eq_nil_iff.mp remaining)
      obtain ⟨report, ran⟩ := run_of_allMatched finished stream
      exact ⟨sequence, report, ran, outside⟩
  | cons matcher later ih =>
      have there : matchers[sequence.current]? = some matcher := by
        rw [← Nat.add_zero sequence.current, ← List.getElem?_drop, remaining]
        rfl
      cases closes : correspondingPop matcher stream with
      | none =>
          obtain ⟨final, report, ran, inside⟩ :=
            sound.run_of_not_closed outside there depth closes
          refine ⟨final, report, ran, ?_⟩
          rw [inside, awaitsInside, closes]
      | some pop =>
          obtain ⟨middle, report, ran, passed, outsideAgain, moved⟩ :=
            sound.run_to_pop outside there depth closes
          have movedOn : matchers.drop middle.current = later := by
            rw [moved, ← List.tail_drop, remaining]
            rfl
          obtain ⟨final, rest, finished, inside⟩ :=
            ih passed outsideAgain movedOn (depth.drop (pop + 1))
          refine ⟨final, report ++ rest, ?_, ?_⟩
          · rw [← List.take_append_drop (pop + 1) stream]
            exact runSteps_append_eq_some.mpr ⟨middle, report, rest, ran, finished, rfl⟩
          · rw [inside, awaitsInside, closes]

/-- A reset of a SequenceOfRegionTimerListener at any point of any run, with any resets before
it, starts a clean pass on each stream in which all regions of interest occur in order exactly
when no matcher is inside its region at the reset. Without earlier resets, that is when the
region awaited at that point is not open.
-/
theorem sequenceOfRegionTimerListener_reset_clean_iff (matchers : List M)
    (delivered : ResetTrace θ) (stream : List (Stamped θ))
    (ordered : RegionsInOrder matchers stream)
    (occur : ∀ matcher ∈ matchers, (firstPush matcher stream).isSome = true)
    (depth : NestedBelow UInt32.size stream)
    : ∃ sequence report,
        runSteps SequenceOfRegionTimerListener.receiveOrReset delivered (.new matchers)
          = some (sequence, report)
        ∧ (CleanPass matchers stream sequence.reset ↔ sequence.insideRegion = false)
        ∧ ∀ events,
            delivered = events.map .input
            → NestedBelow UInt32.size events
            → sequence.insideRegion = awaitsInside matchers events := by
  obtain ⟨sequence, report, ran, sound⟩ := SequenceFor.run matchers delivered
  refine ⟨sequence, report, ran, ⟨fun clean => ?_, fun outside => ?_⟩, ?_⟩
  · refine Bool.eq_false_iff.mpr fun inside => ?_
    obtain ⟨index, matching⟩ := insideRegion_eq_true.mp inside
    exact sound.not_cleanPass matching occur clean
  · exact sound.cleanPass outside ordered depth
  · rintro events rfl nested
    have outside : (SequenceOfRegionTimerListener.new matchers
        : SequenceOfRegionTimerListener M θ).insideRegion = false := by
      simp [SequenceOfRegionTimerListener.insideRegion, SequenceOfRegionTimerListener.new]
    obtain ⟨final, shown, ranToo, inside⟩ :=
      (SequenceFor.new matchers).run_insideRegion outside rfl nested
    rw [SequenceOfRegionTimerListener.receiveOrReset, runSteps_stepOrReset_map_input, ranToo] at ran
    obtain ⟨rfl, -⟩ := Prod.mk.inj (Option.some.inj ran)
    exact inside

end

/-- The rest of a pass over the two regions, from inside the second one on, and a whole pass. -/
def fromSecondRegion : List (Stamped ℕ) := twoRegions.drop 6 ++ twoRegions

theorem fromSecondRegion_inOrder : RegionsInOrder twoMatchers fromSecondRegion := by
  intro index first second push isFirst isSecond pushed
  cases index with
  | zero =>
      obtain rfl := Option.some.inj isFirst
      obtain rfl := Option.some.inj isSecond
      obtain rfl : 7 = push := Option.some.inj pushed
      exact ⟨6, rfl, by decide⟩
  | succ index => cases isSecond

theorem sequenceOfRegionTimerListener_reset_clean_iff_second_region
    : ∃ sequence report,
        runSteps SequenceOfRegionTimerListener.receiveOrReset ((twoRegions.take 6).map .input)
            (.new twoMatchers)
          = some (sequence, report)
        ∧ (CleanPass twoMatchers fromSecondRegion sequence.reset
            ↔ sequence.insideRegion = false)
        ∧ ∀ events : List (Stamped ℕ),
            (twoRegions.take 6).map Resettable.input = events.map .input
            → NestedBelow UInt32.size events
            → sequence.insideRegion = awaitsInside twoMatchers events :=
  sequenceOfRegionTimerListener_reset_clean_iff twoMatchers ((twoRegions.take 6).map .input)
    fromSecondRegion fromSecondRegion_inOrder (by decide) (by decide)

/-- After a reset inside the second region, the timer of that region is not started at its next
push event.
-/
theorem fromSecondRegion_not_clean
    : RegionsInOrder twoMatchers fromSecondRegion
      ∧ (∀ matcher ∈ twoMatchers, (firstPush matcher fromSecondRegion).isSome = true)
      ∧ NestedBelow UInt32.size fromSecondRegion
      ∧ nestingDepth Stamped.bracket? twoRegions = 0
      ∧ (∀ matcher ∈ twoMatchers, firstPush matcher (twoRegions.drop 6) = none)
      ∧ ∃ sequence report,
          runSteps SequenceOfRegionTimerListener.receiveOrReset ((twoRegions.take 6).map .input)
              (.new twoMatchers)
            = some (sequence, report)
          ∧ ¬ CleanPass twoMatchers fromSecondRegion sequence.reset := by
  have differs
      : ((runSteps SequenceOfRegionTimerListener.receiveOrReset ((twoRegions.take 6).map .input)
            (.new twoMatchers)).bind fun reached =>
          runSteps SequenceOfRegionTimerListener.receive fromSecondRegion reached.1.reset).map
            Prod.snd
        ≠ some (sequenceCalls twoMatchers fromSecondRegion) := by decide
  obtain ⟨sequence, report, reached, -⟩ :=
    SequenceFor.run (θ := ℕ) twoMatchers ((twoRegions.take 6).map .input)
  refine ⟨fromSecondRegion_inOrder, by decide, by decide, by decide, by decide, sequence, report,
    reached, ?_⟩
  rintro ⟨⟨final, ran⟩, -⟩
  rw [reached, Option.bind_some, ran] at differs
  exact differs rfl

end KokkosUtils.Callbacks
