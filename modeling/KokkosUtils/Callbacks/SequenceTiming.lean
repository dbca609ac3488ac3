import KokkosUtils.Callbacks.SequenceOfRegionTimerListener

/-! A SequenceOfRegionTimerListener agrees with one RegionTimerListener for each region.
The matchers that are not current follow their spans all the same, since regions in order
leave these spans as they are.
-/

namespace KokkosUtils.Callbacks

open KokkosUtils.Foundations

variable {θ M : Type}

section

variable [Matcher M]

/-- The spans of the regions of interest. -/
abbrev regionDetectors (matchers : List M) : List (SpanDetector (Stamped θ) ℕ) :=
  matchers.map regionDetector

/-- Regions in order have their spans in order. -/
theorem regionsInOrder_iff {matchers : List M} {stream : List (Stamped θ)}
    : RegionsInOrder matchers stream
      ↔ SpanDetector.InOrder (regionDetectors matchers) stream := by
  simp only [RegionsInOrder, SpanDetector.InOrder, List.getElem?_map, Option.map_eq_some_iff]
  constructor
  · rintro ordered index - - opened ⟨first, isFirst, rfl⟩ ⟨second, isSecond, rfl⟩ opens
    rw [regionDetector_openedAt] at opens
    rw [regionDetector_closedAt]
    exact ordered index first second opened isFirst isSecond opens
  · intro ordered index first second push isFirst isSecond pushed
    have closes := ordered index (regionDetector first) (regionDetector second) push
      ⟨first, isFirst, rfl⟩ ⟨second, isSecond, rfl⟩ (by rwa [regionDetector_openedAt])
    rwa [regionDetector_closedAt] at closes

/-- The calls expected of a sequence are the marks of the spans. -/
theorem sequenceCalls_eq_allMarks (matchers : List M) (stream : List (Stamped θ))
    : sequenceCalls matchers stream
      = SpanDetector.allMarks (fun index => [(index, TimerCall.start)])
          (fun index => [(index, TimerCall.stop)]) (regionDetectors matchers) stream := by
  unfold sequenceCalls SpanDetector.allMarks
  refine List.map_congr_left fun position _ => ?_
  rw [List.zipIdx_map, List.flatMap_map]
  simp only [Prod.map, regionDetector_openedAt, regionDetector_closedAt, id_eq]

/-- A sequence and its report after a stream are as expected: the current region is the first
that is not closed, and all matchers follow the spans of their regions.
-/
structure SequenceTracks (matchers : List M) (history : List (Stamped θ))
    (sequence : SequenceOfRegionTimerListener M θ) (report : List (List (ℕ × TimerCall)))
    : Prop where
  current : sequence.current = SpanDetector.firstUnfinished (regionDetectors matchers) history
  timers : sequence.timers.length = matchers.length
  follows
    : ∀ (index : ℕ) matcher,
        matchers[index]? = some matcher
        → ∃ inner,
            sequence.matchers[index]? = some inner
            ∧ followsRegion matcher ((regionDetector matcher).after history) inner
  report : report = sequenceCalls matchers history

variable {matchers : List M} {history : List (Stamped θ)} {input : Stamped θ}
  {sequence next : SequenceOfRegionTimerListener M θ} {report shown : List (List (ℕ × TimerCall))}
  {matcher : M}

/-- The current region of a sequence that is not finished. -/
theorem SequenceTracks.current_cases (tracks : SequenceTracks matchers history sequence report)
    : matchers[sequence.current]? = none ∧ sequence.allMatched = true
      ∨ ∃ matcher,
          matchers[sequence.current]? = some matcher ∧ sequence.allMatched = false := by
  have within : sequence.current ≤ matchers.length := by
    rw [tracks.current]
    exact List.findIdx_le_length.trans_eq (List.length_map ..)
  rw [SequenceOfRegionTimerListener.allMatched, tracks.timers, beq_iff_eq, beq_eq_false_iff_ne]
  rcases Nat.lt_or_eq_of_le within with below | finished
  · exact Or.inr ⟨_, List.getElem?_eq_getElem below, Nat.ne_of_lt below⟩
  · exact Or.inl ⟨List.getElem?_eq_none (Nat.le_of_eq finished.symm), finished⟩

/-- The matchers of the other regions follow their spans without being called. -/
theorem SequenceTracks.follows_of_ne (tracks : SequenceTracks matchers history sequence report)
    (ordered : RegionsInOrder matchers (history ++ [input])) {index : ℕ}
    (there : matchers[index]? = some matcher) (other : index ≠ sequence.current)
    : ∃ inner,
        sequence.matchers[index]? = some inner
        ∧ followsRegion matcher ((regionDetector matcher).after (history ++ [input])) inner := by
  rw [tracks.current] at other
  have mapped : (regionDetectors matchers)[index]? = some (regionDetector (θ := θ) matcher) := by
    rw [List.getElem?_map, there]
    rfl
  rw [SpanDetector.after_concat, (regionsInOrder_iff.mp ordered).step_of_ne mapped other]
  exact tracks.follows index matcher there

/-- The span of the current region is not closed. -/
theorem SequenceTracks.unended (tracks : SequenceTracks matchers history sequence report)
    (there : matchers[sequence.current]? = some matcher)
    (ordered : RegionsInOrder matchers (history ++ [input]))
    : ((regionDetector matcher).after history).ended = false := by
  have mapped
      : (regionDetectors matchers)[sequence.current]? = some (regionDetector (θ := θ) matcher) := by
    rw [List.getElem?_map, there]
    rfl
  have before := (regionsInOrder_iff.mp ordered).of_earlier (List.prefix_append history [input])
  refine Bool.eq_false_iff.mpr fun ended => ?_
  have below := (before.ended_iff mapped).mp ended
  rw [← tracks.current] at below
  exact Nat.lt_irrefl _ below

/-- A finished sequence stays as expected. -/
theorem SequenceTracks.concat_finished (tracks : SequenceTracks matchers history sequence report)
    (ordered : RegionsInOrder matchers (history ++ [input]))
    (finished : matchers[sequence.current]? = none)
    : SequenceTracks matchers (history ++ [input]) sequence (report ++ [[]]) := by
  have inOrder := regionsInOrder_iff.mp ordered
  have noneLeft
      : (regionDetectors (θ := θ) matchers)[SpanDetector.firstUnfinished
          (regionDetectors matchers) history]? = none := by
    rw [← tracks.current, List.getElem?_map, finished]
    rfl
  refine ⟨?_, tracks.timers, ?_, ?_⟩
  · rw [inOrder.firstUnfinished_concat_of_none noneLeft]
    exact tracks.current
  · intro index matcher there
    refine tracks.follows_of_ne ordered there ?_
    rintro rfl
    rw [there] at finished
    cases finished
  · rw [sequenceCalls_eq_allMarks, inOrder.allMarks_concat, noneLeft, tracks.report,
      sequenceCalls_eq_allMarks]

/-- A sequence stays as expected when its index, its current matcher and its report move on as
the current span does.
-/
theorem SequenceTracks.concat (tracks : SequenceTracks matchers history sequence report)
    (ordered : RegionsInOrder matchers (history ++ [input]))
    (there : matchers[sequence.current]? = some matcher)
    (current
      : next.current
        = if ((regionDetector matcher).after history).begun
            && (regionDetector matcher).changes input ((regionDetector matcher).after history) then
            sequence.current + 1
          else
            sequence.current)
    (timers : next.timers.length = sequence.timers.length) {inner : RegionMatcher M}
    (called : next.matchers = sequence.matchers.set sequence.current inner)
    (followed
      : followsRegion matcher
          ((regionDetector matcher).step input ((regionDetector matcher).after history)) inner)
    (marked
      : shown
        = [(regionDetector matcher).marksOf [(sequence.current, .start)]
            [(sequence.current, .stop)] input ((regionDetector matcher).after history)])
    : SequenceTracks matchers (history ++ [input]) next (report ++ shown) := by
  have inOrder := regionsInOrder_iff.mp ordered
  have mapped
      : (regionDetectors matchers)[SpanDetector.firstUnfinished
          (regionDetectors matchers) history]? = some (regionDetector (θ := θ) matcher) := by
    rw [← tracks.current, List.getElem?_map, there]
    rfl
  refine ⟨?_, timers.trans tracks.timers, ?_, ?_⟩
  · rw [current, inOrder.firstUnfinished_concat mapped, tracks.current]
  · intro index other placed
    rw [called, List.getElem?_set]
    by_cases same : sequence.current = index
    · subst same
      obtain rfl := Option.some.inj (there.symm.trans placed)
      obtain ⟨before, present, -⟩ := tracks.follows _ _ there
      have bound := (List.getElem?_eq_some_iff.mp present).1
      refine ⟨inner, by simp [bound], ?_⟩
      rw [SpanDetector.after_concat]
      exact followed
    · rw [if_neg same]
      exact tracks.follows_of_ne ordered placed (Ne.symm same)
  · rw [sequenceCalls_eq_allMarks, inOrder.allMarks_concat, mapped, tracks.report,
      sequenceCalls_eq_allMarks, marked, ← tracks.current]

end

/-- Writing back what a list holds changes nothing. -/
theorem set_of_getElem?_eq_some {α : Type} {list : List α} {index : ℕ} {value : α}
    (there : list[index]? = some value)
    : list.set index value = list := by
  obtain ⟨bound, rfl⟩ := List.getElem?_eq_some_iff.mp there
  exact List.set_getElem_self bound

section

variable [StatelessMatcher M] {matchers : List M} {history : List (Stamped θ)}
  {input : Stamped θ} {sequence : SequenceOfRegionTimerListener M θ}
  {report : List (List (ℕ × TimerCall))} {matcher : M}

/-- The current matcher accepts exactly the events that change the current span, and follows
that span.
-/
theorem SequenceTracks.current_call (tracks : SequenceTracks matchers history sequence report)
    (there : matchers[sequence.current]? = some matcher)
    (ordered : RegionsInOrder matchers (history ++ [input]))
    (depth : nestingDepth Stamped.bracket? history < UInt32.size)
    : ∃ inner timer,
        sequence.matchers[sequence.current]? = some inner
        ∧ sequence.timers[sequence.current]? = some timer
        ∧ (Matcher.call input.event inner).1
          = (regionDetector matcher).changes input ((regionDetector matcher).after history)
        ∧ followsRegion matcher
            ((regionDetector matcher).step input ((regionDetector matcher).after history))
            (Matcher.call input.event inner).2 := by
  obtain ⟨inner, present, follows⟩ := tracks.follows _ _ there
  have unended := tracks.unended there ordered
  have bounded
      : ∀ above, (regionDetector matcher).after history = .inside above → above < UInt32.size :=
    fun above seen => Nat.lt_trans (lt_nestingDepth_of_inside seen) depth
  have bound : sequence.current < sequence.timers.length := by
    rw [tracks.timers]
    exact (List.getElem?_eq_some_iff.mp there).1
  exact ⟨inner, _, present, List.getElem?_eq_getElem bound,
    followsRegion_call input follows unended bounded⟩

/-- An event of no region keeps a sequence as expected. -/
theorem SequenceTracks.receive_other (tracks : SequenceTracks matchers history sequence report)
    (there : matchers[sequence.current]? = some matcher)
    (ordered : RegionsInOrder matchers (history ++ [input])) (other : input.bracket? = none)
    : ∃ next shown,
        sequence.receive input = some (next, shown)
        ∧ SequenceTracks matchers (history ++ [input]) next (report ++ shown) := by
  obtain ⟨inner, present, follows⟩ := tracks.follows _ _ there
  have same
      : (regionDetector matcher).step input ((regionDetector matcher).after history)
        = (regionDetector matcher).after history :=
    regionDetector_step_of_other other _
  have nothing := SpanDetector.changes_eq_false same
  refine ⟨sequence, [[]], SequenceOfRegionTimerListener.receive_other other,
    tracks.concat ordered there ?_ rfl (set_of_getElem?_eq_some present).symm ?_ ?_⟩
  · rw [nothing, Bool.and_false]
    rfl
  · rw [same]
    exact follows
  · rw [SpanDetector.marksOf, nothing]
    rfl

/-- A region event keeps an unfinished sequence as expected, by cases on whether it changes the
current span and on its side.
-/
theorem SequenceTracks.receive_region (tracks : SequenceTracks matchers history sequence report)
    (there : matchers[sequence.current]? = some matcher)
    (unfinished : sequence.allMatched = false)
    (ordered : RegionsInOrder matchers (history ++ [input]))
    (depth : nestingDepth Stamped.bracket? history < UInt32.size)
    {side : Bracket} (region : input.bracket? = some side)
    : ∃ next shown,
        sequence.receive input = some (next, shown)
        ∧ SequenceTracks matchers (history ++ [input]) next (report ++ shown) := by
  obtain ⟨inner, timer, present, timed, verdict, followed⟩ :=
    tracks.current_call there ordered depth
  cases changed
      : (regionDetector matcher).changes input ((regionDetector matcher).after history) with
  | false =>
      refine ⟨_, _, SequenceOfRegionTimerListener.receive_of_not_matched unfinished present
        (Option.isSome_of_eq_some region) (verdict.trans changed),
        tracks.concat ordered there ?_ rfl rfl followed ?_⟩
      · rw [changed, Bool.and_false]
        rfl
      · rw [SpanDetector.marksOf, changed]
        rfl
  | true =>
      cases side with
      | opening =>
          have waiting := begun_eq_false_of_push region changed
          refine ⟨_, _, SequenceOfRegionTimerListener.receive_push_of_matched unfinished
            present timed region (verdict.trans changed),
            tracks.concat ordered there ?_ List.length_set rfl followed ?_⟩
          · rw [waiting, Bool.false_and]
            rfl
          · rw [SpanDetector.marksOf, changed, waiting]
            rfl
      | closing =>
          have begun := begun_of_pop region changed
          refine ⟨_, _, SequenceOfRegionTimerListener.receive_pop_of_matched unfinished
            present timed region (verdict.trans changed),
            tracks.concat ordered there ?_ List.length_set rfl followed ?_⟩
          · rw [begun, changed]
            rfl
          · rw [SpanDetector.marksOf, changed, begun]
            rfl

/-- One event keeps a sequence as expected, by cases on whether the sequence is finished and on
whether the event is one of a region.
-/
theorem SequenceTracks.receive (tracks : SequenceTracks matchers history sequence report)
    (ordered : RegionsInOrder matchers (history ++ [input]))
    (depth : nestingDepth Stamped.bracket? history < UInt32.size)
    : ∃ next shown,
        sequence.receive input = some (next, shown)
        ∧ SequenceTracks matchers (history ++ [input]) next (report ++ shown) := by
  rcases tracks.current_cases with ⟨finished, allMatched⟩ | ⟨matcher, there, unfinished⟩
  · exact ⟨sequence, [[]], SequenceOfRegionTimerListener.receive_of_allMatched allMatched,
      tracks.concat_finished ordered finished⟩
  · cases region : input.bracket? with
    | none => exact tracks.receive_other there ordered region
    | some side => exact tracks.receive_region there unfinished ordered depth region

end

/-- A sequence that is as expected before a stream of regions in order is so after it. -/
theorem SequenceTracks.run [StatelessMatcher M] {matchers : List M} {stream : List (Stamped θ)}
    {sequence : SequenceOfRegionTimerListener M θ} (start : SequenceTracks matchers [] sequence [])
    (ordered : RegionsInOrder matchers stream) (depth : NestedBelow UInt32.size stream)
    : ∃ final report,
        runSteps SequenceOfRegionTimerListener.receive stream sequence = some (final, report)
        ∧ SequenceTracks matchers stream final report := by
  refine runSteps_history start fun {history input middle report} extended tracks => ?_
  have earlier : history <+: stream := (List.prefix_append ..).trans extended
  refine tracks.receive ?_ (depth history ((List.mem_inits ..).mpr earlier))
  exact regionsInOrder_iff.mpr ((regionsInOrder_iff.mp ordered).of_earlier extended)

section

variable [Matcher M] {matchers : List M} {stream : List (Stamped θ)}
  {sequence : SequenceOfRegionTimerListener M θ}

/-- A sequence has matched all regions exactly when each has been closed. -/
theorem SequenceTracks.allMatched_iff {report : List (List (ℕ × TimerCall))}
    (tracks : SequenceTracks matchers stream sequence report)
    : sequence.allMatched = true
      ↔ ∀ matcher ∈ matchers, (correspondingPop matcher stream).isSome = true := by
  have count : (regionDetectors (θ := θ) matchers).length = matchers.length := List.length_map ..
  rw [SequenceOfRegionTimerListener.allMatched, tracks.timers, tracks.current, beq_iff_eq, ← count,
    SpanDetector.firstUnfinished, List.findIdx_eq_length]
  simp only [List.forall_mem_map, Bool.not_eq_false', SpanDetector.ended_after,
    regionDetector_closedAt]

/-- A sequence at its first region, with no matcher inside its region, is as expected before any
event.
-/
theorem SequenceTracks.of_idle (first : sequence.current = 0)
    (timers : sequence.timers.length = matchers.length)
    (idle
      : ∀ (index : ℕ) (matcher : M),
          matchers[index]? = some matcher
          → ∃ inner : RegionMatcher M,
              sequence.matchers[index]? = some inner
              ∧ inner.matcher.matcher = matcher
              ∧ inner.matcher.matching = false)
    : SequenceTracks matchers [] sequence [] where
  current := by
    rw [first]
    cases matchers <;> rfl
  timers := timers
  follows := idle
  report := rfl

theorem SequenceTracks.new (matchers : List M)
    : SequenceTracks matchers [] (.new matchers : SequenceOfRegionTimerListener M θ) [] := by
  refine .of_idle rfl List.length_replicate fun index matcher there => ?_
  refine ⟨{ matcher := { matcher := matcher } }, ?_, rfl, rfl⟩
  simp [SequenceOfRegionTimerListener.new, there]

/-- A sequence that is reset once all regions are closed is as it was before. -/
theorem SequenceTracks.reset {report : List (List (ℕ × TimerCall))}
    (tracks : SequenceTracks matchers stream sequence report)
    (complete : ∀ matcher ∈ matchers, (correspondingPop matcher stream).isSome = true)
    : SequenceTracks matchers [] sequence.reset [] := by
  refine .of_idle rfl tracks.timers fun index matcher there => ?_
  obtain ⟨inner, present, follows⟩ := tracks.follows index matcher there
  have ended := complete matcher (List.mem_of_getElem? there)
  rw [← regionDetector_closedAt, ← SpanDetector.ended_after] at ended
  rw [Span.eq_closed_of_ended ended] at follows
  exact ⟨inner, present, follows⟩

/-- A region timer listener that is reset once its region is closed is fresh again. -/
theorem RegionTimerListener.fresh_reset {matcher : M} {initial : Timers.Timer θ}
    {listener : RegionTimerListener M (Timers.Timer θ)} {report : List (List TimerCall)}
    (tracks : (voidTiming matcher initial).Tracks stream listener report)
    (complete : (correspondingPop matcher stream).isSome = true)
    : RegionTimerListener.Fresh matcher listener.reset where
  begun := rfl
  ended := rfl
  idle := by
    have follows : followsRegion matcher ((regionDetector matcher).after stream) listener.matcher :=
      tracks.matcher
    rw [← regionDetector_closedAt, ← SpanDetector.ended_after] at complete
    rwa [Span.eq_closed_of_ended complete] at follows

/-- Among the calls expected of a sequence, those to one timer are the calls expected of the
listener of that region.
-/
theorem map_callsTo_sequenceCalls {index : ℕ} {matcher : M}
    (there : matchers[index]? = some matcher)
    : (sequenceCalls matchers stream).map (callsTo index)
      = (regionDetector matcher).marks [.start] [.stop] stream := by
  unfold sequenceCalls SpanDetector.marks
  rw [List.map_map]
  refine List.map_congr_left fun position _ => ?_
  rw [Function.comp_apply, callsTo, List.filterMap_flatMap, flatMap_zipIdx_of_only there]
  · simp only [Nat.zero_add, regionDetector_openedAt, regionDetector_closedAt]
    split <;> split <;> simp
  · intro other position _ different
    simp only [Nat.zero_add]
    split <;> split <;> simp [different]

end

/-- After passes that each keep a property through the reset at their end, it still holds. -/
theorem afterPasses_eq_some {σ ω : Type} {receive : Stamped θ → σ → Option (σ × List ω)}
    {reset : σ → σ} {passes : List (List (Stamped θ))} {listener : σ} (good : σ → Prop)
    (start : good listener)
    (kept
      : ∀ pass ∈ passes,
          ∀ state,
            good state
            → ∃ final report,
                runSteps receive pass state = some (final, report) ∧ good (reset final))
    : ∃ state, afterPasses receive reset passes listener = some state ∧ good state := by
  induction passes generalizing listener with
  | nil => exact ⟨listener, rfl, start⟩
  | cons pass rest ih =>
      obtain ⟨final, report, ran, again⟩ := kept pass (by simp) listener start
      obtain ⟨state, finished, holds⟩ :=
        ih again (fun later member => kept later (List.mem_cons_of_mem _ member))
      refine ⟨state, ?_, holds⟩
      rw [afterPasses, List.foldlM_cons, ran]
      exact finished

/-- A SequenceOfRegionTimerListener agrees with independent RegionTimerListeners, in any pass
that follows any number of complete passes with a reset after each: on a stream of regions in
order it starts and stops each timer exactly where the listener of that region does, at the
first push event that the region's matcher accepts and at the corresponding pop event, and it
has matched all regions exactly from the last of these pop events.
-/
theorem sequenceOfRegionTimerListener_agrees [StatelessMatcher M] (matchers : List M)
    (passes : List (List (Stamped θ))) (stream : List (Stamped θ))
    (ordered : ∀ pass ∈ stream :: passes, RegionsInOrder matchers pass)
    (depth : ∀ pass ∈ stream :: passes, NestedBelow UInt32.size pass)
    (complete
      : ∀ pass ∈ passes, ∀ matcher ∈ matchers, (correspondingPop matcher pass).isSome = true)
    : ∃ sequence,
        afterPasses SequenceOfRegionTimerListener.receive SequenceOfRegionTimerListener.reset
            passes (.new matchers)
          = some sequence
        ∧ (∃ final,
            runSteps SequenceOfRegionTimerListener.receive stream sequence
            = some (final, sequenceCalls matchers stream))
        ∧ (∀ history,
            history <+: stream
            → ∃ middle report,
                runSteps SequenceOfRegionTimerListener.receive history sequence
                  = some (middle, report)
                ∧ (middle.allMatched = true
                    ↔ ∀ matcher ∈ matchers, (correspondingPop matcher history).isSome = true))
        ∧ ∀ index matcher,
            matchers[index]? = some matcher
            → ∃ listener final,
                afterPasses TimerListener.receive TimerListener.reset passes
                    (RegionTimerListener.new matcher ({} : Timers.Timer θ))
                  = some listener
                ∧ runSteps TimerListener.receive stream listener
                  = some (final, (sequenceCalls matchers stream).map (callsTo index)) := by
  obtain ⟨sequence, reached, start⟩ :=
    afterPasses_eq_some (fun state => SequenceTracks matchers [] state [])
      (SequenceTracks.new matchers) fun pass member state tracks => by
      obtain ⟨final, report, ran, tracked⟩ :=
        tracks.run (ordered pass (List.mem_cons_of_mem _ member))
          (depth pass (List.mem_cons_of_mem _ member))
      exact ⟨final, report, ran, tracked.reset (complete pass member)⟩
  have orderedHere := ordered stream List.mem_cons_self
  have depthHere := depth stream List.mem_cons_self
  refine ⟨sequence, reached, ?_, ?_, ?_⟩
  · obtain ⟨final, report, ran, tracks⟩ := start.run orderedHere depthHere
    exact ⟨final, by rw [ran, tracks.report]⟩
  · intro history earlier
    have orderedEarlier := (regionsInOrder_iff.mp orderedHere).of_earlier earlier
    obtain ⟨middle, report, ran, tracks⟩ :=
      start.run (regionsInOrder_iff.mpr orderedEarlier) (depthHere.of_earlier earlier)
    exact ⟨middle, report, ran, tracks.allMatched_iff⟩
  · intro index matcher there
    obtain ⟨listener, reachedToo, fresh⟩ :=
      afterPasses_eq_some (RegionTimerListener.Fresh matcher)
        (RegionTimerListener.fresh_new matcher ({} : Timers.Timer θ))
        fun pass member state fresh => by
          obtain ⟨final, report, ran, tracks⟩ :=
            voidTiming_run fresh (depth pass (List.mem_cons_of_mem _ member))
          exact ⟨final, report, ran,
            RegionTimerListener.fresh_reset tracks
              (complete pass member matcher (List.mem_of_getElem? there))⟩
    obtain ⟨final, report, ran, tracks⟩ := voidTiming_run fresh depthHere
    refine ⟨listener, final, reachedToo, ?_⟩
    rw [ran, tracks.report, map_callsTo_sequenceCalls there]
    rfl

/-- Two regions of interest, with unrelated ones before, inside and around them. -/
def twoRegions : List (Stamped ℕ) :=
  [
    { moment := 1, event := .pushRegionEvent "around" },
    { moment := 2, event := .pushRegionEvent "first" },
    { moment := 3, event := .pushRegionEvent "nested" },
    { moment := 4, event := .popRegionEvent },
    { moment := 5, event := .popRegionEvent },
    { moment := 6, event := .pushRegionEvent "second" },
    { moment := 7, event := .popRegionEvent },
    { moment := 8, event := .popRegionEvent }
  ]

/-- The matchers of the two regions of interest. -/
def twoMatchers : List EventNameMatcher := [{ name := "first" }, { name := "second" }]

theorem twoRegions_inOrder : RegionsInOrder twoMatchers twoRegions := by
  intro index first second push isFirst isSecond pushed
  cases index with
  | zero =>
      obtain rfl := Option.some.inj isFirst
      obtain rfl := Option.some.inj isSecond
      obtain rfl : 5 = push := Option.some.inj pushed
      exact ⟨4, rfl, by decide⟩
  | succ index => cases isSecond

theorem sequenceOfRegionTimerListener_agrees_second_pass
    : ∃ sequence,
        afterPasses SequenceOfRegionTimerListener.receive SequenceOfRegionTimerListener.reset
            [twoRegions] (.new twoMatchers)
          = some sequence
        ∧ (∃ final,
            runSteps SequenceOfRegionTimerListener.receive twoRegions sequence
            = some (final, sequenceCalls twoMatchers twoRegions))
        ∧ (∀ history,
            history <+: twoRegions
            → ∃ middle report,
                runSteps SequenceOfRegionTimerListener.receive history sequence
                  = some (middle, report)
                ∧ (middle.allMatched = true
                    ↔ ∀ matcher ∈ twoMatchers,
                        (correspondingPop matcher history).isSome = true))
        ∧ ∀ index matcher,
            twoMatchers[index]? = some matcher
            → ∃ listener final,
                afterPasses TimerListener.receive TimerListener.reset [twoRegions]
                    (RegionTimerListener.new matcher ({} : Timers.Timer ℕ))
                  = some listener
                ∧ runSteps TimerListener.receive twoRegions listener
                  = some (final, (sequenceCalls twoMatchers twoRegions).map (callsTo index)) :=
  sequenceOfRegionTimerListener_agrees twoMatchers [twoRegions] twoRegions
    (by simp [twoRegions_inOrder]) (by decide) (by decide)

end KokkosUtils.Callbacks
