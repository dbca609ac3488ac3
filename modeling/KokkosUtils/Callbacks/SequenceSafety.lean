import KokkosUtils.Callbacks.SequenceOfRegionTimerListener

/-! SequenceOfRegionTimerListener on streams that need not be well-formed.
Whatever the matchers do and however regions are nested, the timers are started and stopped one
after the other. The regions need not be in order for that, and the nested level may overflow.
-/

namespace KokkosUtils.Callbacks

open KokkosUtils.Foundations

variable {θ M : Type}

/-- A start and a stop of each of the first timers, one after the other. -/
def startsAndStops (count : ℕ) : List (ℕ × TimerCall) :=
  (List.range count).flatMap (fun index => [(index, .start), (index, .stop)])

theorem startsAndStops_succ (count : ℕ)
    : startsAndStops (count + 1)
      = startsAndStops count ++ [(count, .start), (count, .stop)] := by
  simp [startsAndStops, List.range_succ]

/-- The first calls are those for fewer timers. -/
theorem startsAndStops_earlier {first second : ℕ} (le : first ≤ second)
    : startsAndStops first <+: startsAndStops second := by
  induction second, le using Nat.le_induction with
  | base => exact List.prefix_refl _
  | succ second _ ih =>
      rw [startsAndStops_succ]
      exact ih.trans (List.prefix_append ..)

/-- Which timers are called, and how often, is known from the number of calls. -/
theorem length_startsAndStops (count : ℕ) : (startsAndStops count).length = 2 * count := by
  induction count with
  | zero => rfl
  | succ count ih =>
      rw [startsAndStops_succ, List.length_append, ih]
      simp only [List.length_cons, List.length_nil]
      omega

/-- A call that a report shows at a position, with the moment of the event. -/
structure CalledAt (stream : List (Stamped θ)) (report : List (List (ℕ × TimerCall)))
    (call : ℕ × TimerCall) (position : ℕ) (moment : θ)
    : Prop where
  shown : report[position]? = some [call]
  event : ∃ stamped, stream[position]? = some stamped ∧ stamped.moment = moment

/-- It is still shown when the stream goes on. -/
theorem CalledAt.append {stream : List (Stamped θ)} {report : List (List (ℕ × TimerCall))}
    {call : ℕ × TimerCall} {position : ℕ} {moment : θ}
    (called : CalledAt stream report call position moment) (input : Stamped θ)
    (calls : List (ℕ × TimerCall))
    : CalledAt (stream ++ [input]) (report ++ [calls]) call position moment where
  shown := List.getElem?_append_left (List.getElem?_eq_some_iff.mp called.shown).1 ▸ called.shown
  event := by
    obtain ⟨stamped, there, same⟩ := called.event
    exact ⟨stamped,
      List.getElem?_append_left (List.getElem?_eq_some_iff.mp there).1 ▸ there, same⟩

/-- The last event may be the one that a timer is called for. -/
theorem CalledAt.last {stream : List (Stamped θ)} {report : List (List (ℕ × TimerCall))}
    (aligned : report.length = stream.length) (input : Stamped θ) (call : ℕ × TimerCall)
    : CalledAt (stream ++ [input]) (report ++ [[call]]) call stream.length input.moment where
  shown := by rw [← aligned, List.getElem?_concat_length]
  event := ⟨input, List.getElem?_concat_length, rfl⟩

/-- A timer that was started at one event and stopped at a later one. -/
def TimedBetween (stream : List (Stamped θ)) (report : List (List (ℕ × TimerCall))) (index : ℕ)
    (timer : Timers.Timer θ)
    : Prop :=
  ∃ push pop started stopped,
    push < pop
    ∧ CalledAt stream report (index, .start) push started
    ∧ CalledAt stream report (index, .stop) pop stopped
    ∧ timer = { tick := some (.record started), tock := some (.record stopped) }

/-- A timer that was started at an event. -/
def TimedSince (stream : List (Stamped θ)) (report : List (List (ℕ × TimerCall))) (index : ℕ)
    (timer : Timers.Timer θ)
    : Prop :=
  ∃ push started,
    push < stream.length
    ∧ CalledAt stream report (index, .start) push started
    ∧ timer.tick = some (.record started)

/-- The region matcher of a sequence changes sides exactly where it accepts an event. -/
theorem regionMatcher_toggles [Matcher M] {stamped : Stamped θ} {side : Bracket}
    (region : stamped.bracket? = some side) (inner : RegionMatcher M)
    : (Matcher.call stamped.event inner).2.matcher.matching
        = xor inner.matcher.matching (Matcher.call stamped.event inner).1
      ∧ ((Matcher.call stamped.event inner).1 = true
        → inner.matcher.matching = (side == .closing)) := by
  obtain ⟨moment, event⟩ := stamped
  obtain ⟨⟨matcher, matching, level⟩⟩ := inner
  rw [regionMatcher_call]
  cases event with
  | pushRegionEvent name =>
      cases region
      cases matching with
      | true => simp [EventRegionMatcher.call]
      | false =>
          simp only [EventRegionMatcher.call]
          cases (Matcher.call (.pushRegionEvent name) matcher).1 <;> simp
  | popRegionEvent =>
      cases region
      cases matching with
      | false => simp [EventRegionMatcher.call]
      | true =>
          by_cases closes : level - 1 = 0 <;> simp [EventRegionMatcher.call, closes]
  | _ => cases region

/-- Whether the region of the current matcher is open. -/
def SequenceOfRegionTimerListener.timing (self : SequenceOfRegionTimerListener M θ) : Bool :=
  self.matchers[self.current]?.any fun inner => inner.matcher.matching

/-- A sequence for so many matchers has finished the timers before the current one, which it has
started if the region of the current matcher is open. It has not come to the later matchers.
-/
structure OneAfterTheOther (count : ℕ) (stream : List (Stamped θ))
    (sequence : SequenceOfRegionTimerListener M θ) (report : List (List (ℕ × TimerCall)))
    : Prop where
  matchers : sequence.matchers.length = count
  timers : sequence.timers.length = count
  current : sequence.current ≤ count
  aligned : report.length = stream.length
  later
    : ∀ index inner,
        sequence.current < index
        → sequence.matchers[index]? = some inner
        → inner.matcher.matching = false
  calls
    : report.flatten
      = startsAndStops sequence.current
        ++ (if sequence.timing then [(sequence.current, .start)] else [])
  finished
    : ∀ index < sequence.current,
        ∃ timer, sequence.timers[index]? = some timer ∧ TimedBetween stream report index timer
  started
    : sequence.timing = true
      → ∃ timer,
          sequence.timers[sequence.current]? = some timer
          ∧ TimedSince stream report sequence.current timer

namespace OneAfterTheOther

variable {count : ℕ} {stream : List (Stamped θ)} {sequence : SequenceOfRegionTimerListener M θ}
  {report : List (List (ℕ × TimerCall))} {input : Stamped θ}

/-- Nothing has happened to a new sequence. -/
theorem new {sequence : SequenceOfRegionTimerListener M θ} {matchers : List M}
    (made : sequence = .new matchers)
    : OneAfterTheOther matchers.length [] sequence [] := by
  subst made
  have outside {index : ℕ} {inner : RegionMatcher M}
      (there
        : (SequenceOfRegionTimerListener.new matchers
              : SequenceOfRegionTimerListener M θ).matchers[index]?
          = some inner)
      : inner.matcher.matching = false := by
    simp only [SequenceOfRegionTimerListener.new, List.getElem?_map, Option.map_eq_some_iff]
      at there
    obtain ⟨matcher, -, rfl⟩ := there
    rfl
  have idle
      : (SequenceOfRegionTimerListener.new matchers
            : SequenceOfRegionTimerListener M θ).timing
        = false := by
    unfold SequenceOfRegionTimerListener.timing
    rw [Option.any_eq_false]
    intro inner there
    rw [outside there]
  exact {
    matchers := by simp [SequenceOfRegionTimerListener.new]
    timers := by simp [SequenceOfRegionTimerListener.new]
    current := Nat.zero_le _
    aligned := rfl
    later := fun _ _ _ there => outside there
    calls := by
      rw [idle]
      rfl
    finished := fun index less => (Nat.not_lt_zero index less).elim
    started := by
      rw [idle]
      exact nofun
  }

/-- What a sequence has done for a timer stays done. -/
theorem finished_append (ordered : OneAfterTheOther count stream sequence report) {index : ℕ}
    (less : index < sequence.current) (calls : List (ℕ × TimerCall))
    : ∃ timer,
        sequence.timers[index]? = some timer
        ∧ TimedBetween (stream ++ [input]) (report ++ [calls]) index timer := by
  obtain ⟨timer, there, push, pop, started, stopped, before, pushed, popped, timed⟩ :=
    ordered.finished index less
  exact ⟨timer, there, push, pop, started, stopped, before, pushed.append input calls,
    popped.append input calls, timed⟩

/-- An event that calls no timer leaves all as it is. -/
theorem quiet (ordered : OneAfterTheOther count stream sequence report)
    {next : SequenceOfRegionTimerListener M θ} (matchers : next.matchers.length = count)
    (timers : next.timers = sequence.timers) (current : next.current = sequence.current)
    (timing : next.timing = sequence.timing)
    (later
      : ∀ index inner,
          sequence.current < index
          → next.matchers[index]? = some inner
          → inner.matcher.matching = false)
    : OneAfterTheOther count (stream ++ [input]) next (report ++ [[]]) where
  matchers := matchers
  timers := timers ▸ ordered.timers
  current := current ▸ ordered.current
  aligned := by simp [ordered.aligned]
  later := current ▸ later
  calls := by simp [ordered.calls, current, timing]
  finished := by
    rw [timers, current]
    exact fun index less => ordered.finished_append less []
  started := by
    rw [timing, timers, current]
    intro running
    obtain ⟨timer, there, push, started, before, pushed, timed⟩ := ordered.started running
    exact ⟨timer, there, push, started, by simp; omega, pushed.append input [], timed⟩

/-- A push event that the current matcher accepts starts the current timer. -/
theorem push (ordered : OneAfterTheOther count stream sequence report)
    {inner next : RegionMatcher M} {timer : Timers.Timer θ}
    (there : sequence.matchers[sequence.current]? = some inner)
    (timed : sequence.timers[sequence.current]? = some timer)
    (closed : inner.matcher.matching = false) (opened : next.matcher.matching = true)
    : OneAfterTheOther count (stream ++ [input])
        {
          sequence with
          matchers := sequence.matchers.set sequence.current next
          timers := sequence.timers.set sequence.current (timer.start input.moment)
        }
        (report ++ [[(sequence.current, .start)]]) := by
  have inMatchers := (List.getElem?_eq_some_iff.mp there).1
  have inTimers := (List.getElem?_eq_some_iff.mp timed).1
  have before : sequence.timing = false := by
    rw [SequenceOfRegionTimerListener.timing, there, Option.any_some, closed]
  have after
      : ({
          sequence with
          matchers := sequence.matchers.set sequence.current next
          timers := sequence.timers.set sequence.current (timer.start input.moment)
        } : SequenceOfRegionTimerListener M θ).timing
        = true := by
    simp [SequenceOfRegionTimerListener.timing, inMatchers, opened]
  exact {
    matchers := (List.length_set ..).trans ordered.matchers
    timers := (List.length_set ..).trans ordered.timers
    current := ordered.current
    aligned := by simp [ordered.aligned]
    later := by
      intro index other less found
      rw [List.getElem?_set_ne less.ne] at found
      exact ordered.later index other less found
    calls := by
      rw [after, List.flatten_concat, ordered.calls, before]
      simp
    finished := by
      intro index less
      rw [List.getElem?_set_ne less.ne']
      exact ordered.finished_append less _
    started := by
      intro _
      refine ⟨timer.start input.moment, List.getElem?_set_self inTimers, stream.length,
        input.moment, by simp, .last ordered.aligned input _, rfl⟩
  }

/-- A pop event that it accepts stops the timer and moves on. -/
theorem pop (ordered : OneAfterTheOther count stream sequence report)
    {inner next : RegionMatcher M} {timer : Timers.Timer θ}
    (there : sequence.matchers[sequence.current]? = some inner)
    (timed : sequence.timers[sequence.current]? = some timer)
    (opened : inner.matcher.matching = true)
    : OneAfterTheOther count (stream ++ [input])
        {
          sequence with
          matchers := sequence.matchers.set sequence.current next
          timers := sequence.timers.set sequence.current (timer.stop input.moment)
          current := sequence.current + 1
        }
        (report ++ [[(sequence.current, .stop)]]) := by
  have inMatchers := (List.getElem?_eq_some_iff.mp there).1
  have inTimers := (List.getElem?_eq_some_iff.mp timed).1
  have before : sequence.timing = true := by
    rw [SequenceOfRegionTimerListener.timing, there, Option.any_some, opened]
  have after
      : ({
          sequence with
          matchers := sequence.matchers.set sequence.current next
          timers := sequence.timers.set sequence.current (timer.stop input.moment)
          current := sequence.current + 1
        } : SequenceOfRegionTimerListener M θ).timing
        = false := by
    unfold SequenceOfRegionTimerListener.timing
    rw [Option.any_eq_false]
    intro other found
    rw [List.getElem?_set_ne (Nat.succ_ne_self _).symm] at found
    rw [ordered.later _ other (Nat.lt_succ_self _) found]
  exact {
    matchers := (List.length_set ..).trans ordered.matchers
    timers := (List.length_set ..).trans ordered.timers
    current := ordered.matchers ▸ inMatchers
    aligned := by simp [ordered.aligned]
    later := by
      intro index other less found
      have apart : sequence.current < index := (Nat.lt_succ_self _).trans less
      rw [List.getElem?_set_ne apart.ne] at found
      exact ordered.later index other apart found
    calls := by
      rw [after, List.flatten_concat, ordered.calls, before, startsAndStops_succ]
      simp
    finished := by
      intro index less
      by_cases last : index = sequence.current
      · subst last
        obtain ⟨_, again, push, started, early, pushed, held⟩ := ordered.started before
        obtain rfl := Option.some.inj (timed.symm.trans again)
        refine ⟨_, List.getElem?_set_self inTimers, push, stream.length, started, input.moment,
          early, pushed.append input _, .last ordered.aligned input _, ?_⟩
        rw [Timers.Timer.stop, held]
      · have earlier := lt_of_le_of_ne (Nat.lt_succ_iff.mp less) last
        rw [List.getElem?_set_ne earlier.ne']
        exact ordered.finished_append earlier _
    started := by
      rw [after]
      exact nofun
  }

/-- A finished sequence is one that has come to its end. -/
theorem allMatched_eq (ordered : OneAfterTheOther count stream sequence report)
    : sequence.allMatched = decide (sequence.current = count) := by
  rw [SequenceOfRegionTimerListener.allMatched, ordered.timers]
  rfl

/-- Each event keeps the order, by cases on whether the current matcher accepts it and its side. -/
theorem receive [Matcher M] (ordered : OneAfterTheOther count stream sequence report)
    (input : Stamped θ)
    : ∃ next shown,
        sequence.receive input = some (next, shown)
        ∧ OneAfterTheOther count (stream ++ [input]) next (report ++ shown) := by
  have unchanged : OneAfterTheOther count (stream ++ [input]) sequence (report ++ [[]]) :=
    ordered.quiet ordered.matchers rfl rfl rfl ordered.later
  cases finished : sequence.allMatched with
  | true =>
      exact ⟨sequence, [[]], SequenceOfRegionTimerListener.receive_of_allMatched finished,
        unchanged⟩
  | false =>
      rw [ordered.allMatched_eq, decide_eq_false_iff_not] at finished
      have unfinished : sequence.current < count := lt_of_le_of_ne ordered.current finished
      have idle : sequence.allMatched = false := by
        rw [ordered.allMatched_eq, decide_eq_false finished]
      obtain ⟨inner, there⟩ : ∃ inner, sequence.matchers[sequence.current]? = some inner :=
        ⟨_, List.getElem?_eq_getElem (ordered.matchers ▸ unfinished)⟩
      obtain ⟨timer, timed⟩ : ∃ timer, sequence.timers[sequence.current]? = some timer :=
        ⟨_, List.getElem?_eq_getElem (ordered.timers ▸ unfinished)⟩
      cases region : input.bracket? with
      | none =>
          exact ⟨sequence, [[]], SequenceOfRegionTimerListener.receive_other region, unchanged⟩
      | some side =>
          obtain ⟨toggled, sided⟩ := regionMatcher_toggles region inner
          cases matched : (Matcher.call input.event inner).1 with
          | false =>
              refine ⟨_, _, SequenceOfRegionTimerListener.receive_of_not_matched idle there
                (by rw [region]; rfl) matched, ordered.quiet ?_ rfl rfl ?_ ?_⟩
              · exact (List.length_set ..).trans ordered.matchers
              · rw [matched, Bool.xor_false] at toggled
                unfold SequenceOfRegionTimerListener.timing
                rw [List.getElem?_set_self (List.getElem?_eq_some_iff.mp there).1, there,
                  Option.any_some, Option.any_some, toggled]
              · intro index other less found
                rw [List.getElem?_set_ne less.ne] at found
                exact ordered.later index other less found
          | true =>
              have before := sided matched
              rw [matched, Bool.xor_true] at toggled
              cases side with
              | opening =>
                  exact ⟨_, _, SequenceOfRegionTimerListener.receive_push_of_matched idle there
                    timed region matched,
                    ordered.push there timed before (by rw [toggled, before]; rfl)⟩
              | closing =>
                  exact ⟨_, _, SequenceOfRegionTimerListener.receive_pop_of_matched idle there
                    timed region matched, ordered.pop there timed before⟩

/-- A timer that runs is one of the timers. -/
theorem lt_of_timing (ordered : OneAfterTheOther count stream sequence report)
    (running : sequence.timing = true)
    : sequence.current < count := by
  obtain ⟨timer, there, -⟩ := ordered.started running
  exact ordered.timers ▸ (List.getElem?_eq_some_iff.mp there).1

/-- The calls made so far are the first of those that a finished sequence has made. -/
theorem calls_earlier (ordered : OneAfterTheOther count stream sequence report)
    : report.flatten <+: startsAndStops count := by
  rw [ordered.calls]
  cases running : sequence.timing with
  | false =>
      rw [if_neg Bool.false_ne_true, List.append_nil]
      exact startsAndStops_earlier ordered.current
  | true =>
      refine List.IsPrefix.trans ?_ (startsAndStops_earlier (ordered.lt_of_timing running))
      rw [if_pos rfl, startsAndStops_succ, List.prefix_append_right_inj]
      exact List.prefix_append [_] [_]

/-- A sequence has come to its end exactly if all calls have been made. -/
theorem current_eq_iff (ordered : OneAfterTheOther count stream sequence report)
    : sequence.current = count ↔ report.flatten = startsAndStops count := by
  rw [ordered.calls]
  constructor
  · intro finished
    have idle : sequence.timing = false := by
      by_contra running
      exact (ordered.lt_of_timing (Bool.of_not_eq_false running)).ne finished
    rw [idle, if_neg Bool.false_ne_true, List.append_nil, finished]
  · intro same
    have lengths := congrArg List.length same
    rw [List.length_append, length_startsAndStops, length_startsAndStops] at lengths
    split at lengths
    · rw [List.length_singleton] at lengths
      omega
    · rw [List.length_nil] at lengths
      omega

/-- A timer that has been stopped is one of the finished ones. -/
theorem lt_of_stop_mem (ordered : OneAfterTheOther count stream sequence report) {index : ℕ}
    (stopped : (index, .stop) ∈ report.flatten)
    : index < sequence.current := by
  rw [ordered.calls, List.mem_append] at stopped
  rcases stopped with earlier | last
  · simpa [startsAndStops] using earlier
  · split at last
    · simp at last
    · simp at last

end OneAfterTheOther

/-- A sequence of region timers never loses its order. Whatever its matchers do, and for any stream
of events, also one in which regions overlap, are out of order, are popped without having been
pushed, or are nested too deeply: no access is out of bounds, the timers are started and stopped one
after the other, all of them exactly if `all_matched` says so, and a timer that has been stopped
holds the moments of its start and of its later stop.
-/
theorem sequenceOfRegionTimerListener_one_after_the_other [Matcher M] (matchers : List M)
    (stream : List (Stamped θ))
    : ∃ final report,
        runSteps SequenceOfRegionTimerListener.receive stream (.new matchers) = some (final, report)
        ∧ report.flatten <+: startsAndStops matchers.length
        ∧ (final.allMatched = true ↔ report.flatten = startsAndStops matchers.length)
        ∧ ∀ index,
            (index, .stop) ∈ report.flatten
            → ∃ timer,
                final.timers[index]? = some timer ∧ TimedBetween stream report index timer := by
  have kept
      : ∃ final report,
          runSteps SequenceOfRegionTimerListener.receive stream (.new matchers)
            = some (final, report)
          ∧ OneAfterTheOther matchers.length stream final report := by
    apply runSteps_history
    · exact .new rfl
    · intro history input middle report _ ordered
      exact ordered.receive input
  obtain ⟨final, report, ran, ordered⟩ := kept
  refine ⟨final, report, ran, ordered.calls_earlier, ?_, ?_⟩
  · rw [ordered.allMatched_eq, decide_eq_true_iff, ordered.current_eq_iff]
  · intro index stopped
    exact ordered.finished index (ordered.lt_of_stop_mem stopped)

end KokkosUtils.Callbacks
