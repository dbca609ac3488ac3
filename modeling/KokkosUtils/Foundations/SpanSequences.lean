import KokkosUtils.Foundations.Spans

/-! Several spans of one stream that come one after the other.
At each point of the stream the spans before some index are closed, and those after it have
not begun; so only the span at that index can change.
-/

namespace KokkosUtils.Foundations

variable {α β ι κ ω : Type*}

/-- Pieces of a list that are all empty but one flatten to that one, by induction on the list
with the index of its head.
-/
theorem flatMap_zipIdx_of_only {list : List α} {pieces : α × ℕ → List β} {start index : ℕ}
    {chosen : α} (there : list[index]? = some chosen)
    (others
      : ∀ other position,
          list[position]? = some other → position ≠ index → pieces (other, start + position) = [])
    : (list.zipIdx start).flatMap pieces = pieces (chosen, start + index) := by
  induction list generalizing start index with
  | nil => cases there
  | cons head tail ih =>
      rw [List.zipIdx_cons, List.flatMap_cons]
      cases index with
      | zero =>
          obtain rfl : head = chosen := Option.some.inj there
          have rest : (tail.zipIdx (start + 1)).flatMap pieces = [] := by
            rw [List.flatMap_eq_nil_iff]
            rintro ⟨other, position⟩ member
            obtain ⟨bound, placed⟩ := List.mk_mem_zipIdx_iff_le_and_getElem?_sub.mp member
            have shifted := others other (position - (start + 1) + 1) placed (Nat.succ_ne_zero _)
            rwa [show start + (position - (start + 1) + 1) = position by omega] at shifted
          rw [rest, List.append_nil]
          rfl
      | succ index =>
          have first : pieces (head, start) = [] := others head 0 rfl (Nat.succ_ne_zero index).symm
          rw [first, List.nil_append, ih there, Nat.add_right_comm, Nat.add_assoc]
          intro other position placed different
          rw [Nat.add_right_comm, Nat.add_assoc]
          exact others other (position + 1) placed (mt Nat.succ.inj different)

/-- Pieces of a list that are all empty flatten to nothing. -/
theorem flatMap_zipIdx_of_none {list : List α} {pieces : α × ℕ → List β}
    (all : ∀ other position, list[position]? = some other → pieces (other, position) = [])
    : list.zipIdx.flatMap pieces = [] := by
  rw [List.flatMap_eq_nil_iff]
  rintro ⟨other, position⟩ member
  exact all other position (List.mk_mem_zipIdx_iff_getElem?.mp member)

namespace SpanDetector

/-- The spans of a stream come one after the other: each opens only after the one before has
closed.
-/
def InOrder (detectors : List (SpanDetector ι κ)) (stream : List ι) : Prop :=
  ∀ index first second opened,
    detectors[index]? = some first
    → detectors[index + 1]? = some second
    → second.openedAt stream = some opened
    → ∃ closed, first.closedAt stream = some closed ∧ closed < opened

/-- The index of the first span of a stream that is not closed. -/
def firstUnfinished (detectors : List (SpanDetector ι κ)) (stream : List ι) : ℕ :=
  detectors.findIdx (fun detector => !(detector.after stream).ended)

/-- The marks that all spans leave along a stream. -/
def allMarks (opening closing : ℕ → List ω) (detectors : List (SpanDetector ι κ))
    (stream : List ι)
    : List (List ω) :=
  (List.range stream.length).map
    (fun position =>
      detectors.zipIdx.flatMap
        (fun (detector, index) =>
          (if detector.openedAt stream = some position then opening index else [])
          ++ (if detector.closedAt stream = some position then closing index else [])))

variable {detectors : List (SpanDetector ι κ)} {history stream : List ι} {input : ι}

theorem InOrder.of_earlier (ordered : InOrder detectors stream) (earlier : history <+: stream)
    : InOrder detectors history := by
  intro index first second opened isFirst isSecond opens
  obtain ⟨opensLater, bound⟩ := (openedAt_earlier earlier opened).mp opens
  obtain ⟨closed, closes, before⟩ := ordered index first second opened isFirst isSecond opensLater
  exact ⟨closed, (closedAt_earlier earlier closed).mpr ⟨closes, Nat.lt_trans before bound⟩, before⟩

/-- A span that has begun by an input was preceded by one that had ended before it. -/
theorem InOrder.ended_of_begun (ordered : InOrder detectors (history ++ [input])) {index : ℕ}
    {first second : SpanDetector ι κ} (isFirst : detectors[index]? = some first)
    (isSecond : detectors[index + 1]? = some second)
    (begun : (second.after (history ++ [input])).begun = true)
    : (first.after history).ended = true := by
  rw [begun_after, Option.isSome_iff_exists] at begun
  obtain ⟨opened, opens⟩ := begun
  obtain ⟨closed, closes, before⟩ := ordered index first second opened isFirst isSecond opens
  have bound := openedAt_lt opens
  rw [List.length_append, List.length_singleton] at bound
  rw [ended_after, Option.isSome_iff_exists]
  refine ⟨closed, (closedAt_earlier (List.prefix_append history [input]) closed).mpr ⟨closes, ?_⟩⟩
  exact Nat.lt_of_lt_of_le before (Nat.le_of_lt_succ bound)

/-- A span that has begun was preceded by one that has ended. -/
theorem InOrder.ended_of_begun_after (ordered : InOrder detectors history) {index : ℕ}
    {first second : SpanDetector ι κ} (isFirst : detectors[index]? = some first)
    (isSecond : detectors[index + 1]? = some second)
    (begun : (second.after history).begun = true)
    : (first.after history).ended = true := by
  rw [begun_after, Option.isSome_iff_exists] at begun
  obtain ⟨opened, opens⟩ := begun
  obtain ⟨closed, closes, -⟩ := ordered index first second opened isFirst isSecond opens
  rw [ended_after, closes]
  rfl

/-- The spans before a closed one are closed, by induction on the index of the closed one. -/
theorem InOrder.ended_of_le (ordered : InOrder detectors history) {index later : ℕ}
    {first second : SpanDetector ι κ} (isFirst : detectors[index]? = some first)
    (isSecond : detectors[later]? = some second) (le : index ≤ later)
    (ended : (second.after history).ended = true)
    : (first.after history).ended = true := by
  induction later generalizing second with
  | zero =>
      obtain rfl := Nat.le_zero.mp le
      obtain rfl := Option.some.inj (isFirst.symm.trans isSecond)
      exact ended
  | succ later ih =>
      rcases Nat.le_succ_iff.mp le with below | rfl
      · have bound := (List.getElem?_eq_some_iff.mp isSecond).1
        have middle := List.getElem?_eq_getElem (Nat.lt_of_succ_lt bound)
        exact ih middle below
          (ordered.ended_of_begun_after middle isSecond (Span.begun_of_ended ended))
      · obtain rfl := Option.some.inj (isFirst.symm.trans isSecond)
        exact ended

/-- The closed spans are those before the first one that is not. -/
theorem InOrder.ended_iff (ordered : InOrder detectors history) {index : ℕ}
    {detector : SpanDetector ι κ} (there : detectors[index]? = some detector)
    : (detector.after history).ended = true ↔ index < firstUnfinished detectors history := by
  obtain ⟨bound, rfl⟩ := List.getElem?_eq_some_iff.mp there
  constructor
  · intro ended
    by_contra beyond
    have unfinished : firstUnfinished detectors history < detectors.length :=
      Nat.lt_of_le_of_lt (Nat.le_of_not_lt beyond) bound
    have endedToo := ordered.ended_of_le (List.getElem?_eq_getElem unfinished) there
      (Nat.le_of_not_lt beyond) ended
    have unended := List.findIdx_getElem (w := unfinished)
    rw [Bool.not_eq_true'] at unended
    exact absurd endedToo (Bool.eq_false_iff.mp unended)
  · intro below
    have ended := List.not_of_lt_findIdx below
    rwa [Bool.not_eq_false'] at ended

/-- The spans after the first one that is not closed have not begun and do not begin. -/
theorem InOrder.waiting_of_lt (ordered : InOrder detectors (history ++ [input])) {index : ℕ}
    {detector : SpanDetector ι κ} (there : detectors[index]? = some detector)
    (later : firstUnfinished detectors history < index)
    : detector.after (history ++ [input]) = .waiting := by
  refine Span.eq_waiting_of_not_begun (Bool.eq_false_iff.mpr fun begun => ?_)
  obtain ⟨previous, rfl⟩ : ∃ previous, index = previous + 1 :=
    Nat.exists_eq_succ_of_ne_zero (Nat.ne_zero_of_lt later)
  have bound := (List.getElem?_eq_some_iff.mp there).1
  have before := List.getElem?_eq_getElem (Nat.lt_of_succ_lt bound)
  have ended := ordered.ended_of_begun before there begun
  have earlier := (ordered.of_earlier (List.prefix_append ..)).ended_iff before
  exact Nat.lt_irrefl _ (Nat.lt_of_lt_of_le later (earlier.mp ended))

/-- An input changes at most the first unfinished span. -/
theorem InOrder.step_of_ne (ordered : InOrder detectors (history ++ [input])) {index : ℕ}
    {detector : SpanDetector ι κ} (there : detectors[index]? = some detector)
    (other : index ≠ firstUnfinished detectors history)
    : detector.step input (detector.after history) = detector.after history := by
  rcases Nat.lt_or_gt_of_ne other with before | later
  · have ended := ((ordered.of_earlier (List.prefix_append ..)).ended_iff there).mpr before
    rw [Span.eq_closed_of_ended ended]
    rfl
  · have waits := ordered.waiting_of_lt there later
    rw [after_concat] at waits
    have begun : (detector.step input (detector.after history)).begun = false := by
      rw [waits]
      rfl
    rw [begun_step, Bool.or_eq_false_iff] at begun
    rw [waits, Span.eq_waiting_of_not_begun begun.1]

/-- The first span that is not closed is the only boundary between the closed spans and the
others.
-/
theorem InOrder.firstUnfinished_eq (ordered : InOrder detectors history) {bound : ℕ}
    (within : bound ≤ detectors.length)
    (boundary
      : ∀ index detector,
          detectors[index]? = some detector
          → ((detector.after history).ended = true ↔ index < bound))
    : firstUnfinished detectors history = bound := by
  rcases Nat.lt_trichotomy (firstUnfinished detectors history) bound with below | same | beyond
  · have there := List.getElem?_eq_getElem (Nat.lt_of_lt_of_le below within)
    exact absurd ((ordered.ended_iff there).mp ((boundary _ _ there).mpr below))
      (Nat.lt_irrefl _)
  · exact same
  · have there := List.getElem?_eq_getElem (Nat.lt_of_lt_of_le beyond List.findIdx_le_length)
    exact absurd ((boundary _ _ there).mp ((ordered.ended_iff there).mpr beyond))
      (Nat.lt_irrefl _)

/-- The first unfinished span stays so until an input closes it. -/
theorem InOrder.firstUnfinished_concat (ordered : InOrder detectors (history ++ [input]))
    {detector : SpanDetector ι κ}
    (current : detectors[firstUnfinished detectors history]? = some detector)
    : firstUnfinished detectors (history ++ [input])
      = if (detector.after history).begun && detector.changes input (detector.after history) then
          firstUnfinished detectors history + 1
        else
          firstUnfinished detectors history := by
  have before := ordered.of_earlier (List.prefix_append history [input])
  have bound := (List.getElem?_eq_some_iff.mp current).1
  have unended : (detector.after history).ended = false :=
    Bool.eq_false_iff.mpr fun ended =>
      Nat.lt_irrefl _ ((before.ended_iff current).mp ended)
  refine ordered.firstUnfinished_eq (by split <;> omega) fun index other there => ?_
  rw [after_concat]
  by_cases same : index = firstUnfinished detectors history
  · subst same
    obtain rfl := Option.some.inj (current.symm.trans there)
    rw [ended_step, unended, Bool.false_or]
    split <;> simp_all
  · rw [ordered.step_of_ne there same, before.ended_iff there]
    split <;> omega

/-- When all spans are closed, no input changes that. -/
theorem InOrder.firstUnfinished_concat_of_none (ordered : InOrder detectors (history ++ [input]))
    (finished : detectors[firstUnfinished detectors history]? = none)
    : firstUnfinished detectors (history ++ [input]) = firstUnfinished detectors history := by
  have before := ordered.of_earlier (List.prefix_append history [input])
  refine ordered.firstUnfinished_eq List.findIdx_le_length fun index other there => ?_
  rw [after_concat, ordered.step_of_ne there ?_, before.ended_iff there]
  rintro rfl
  rw [there] at finished
  cases finished

/-- The marks of an input are those it leaves on the first unfinished span. -/
theorem InOrder.allMarks_concat (ordered : InOrder detectors (history ++ [input]))
    {opening closing : ℕ → List ω}
    : allMarks opening closing detectors (history ++ [input])
      = allMarks opening closing detectors history
        ++ [match detectors[firstUnfinished detectors history]? with
            | some detector =>
                detector.marksOf (opening (firstUnfinished detectors history))
                  (closing (firstUnfinished detectors history)) input (detector.after history)
            | none => []] := by
  have earlier : history <+: history ++ [input] := List.prefix_append ..
  unfold allMarks
  refine map_range_concat (fun position bound => ?_) ?_
  · simp only [openedAt_earlier earlier position, closedAt_earlier earlier position, bound,
      and_true]
  · simp only [marks_last]
    have others
        : ∀ detector index,
            detectors[index]? = some detector
            → index ≠ firstUnfinished detectors history
            → detector.marksOf (opening index) (closing index) input (detector.after history) = []
        := by
      intro detector index there other
      rw [marksOf, changes_eq_false (ordered.step_of_ne there other)]
      rfl
    cases current : detectors[firstUnfinished detectors history]? with
    | some detector =>
        rw [flatMap_zipIdx_of_only current]
        · rw [Nat.zero_add]
        · intro detector index there other
          rw [Nat.zero_add]
          exact others detector index there other
    | none =>
        refine flatMap_zipIdx_of_none fun detector index there => ?_
        refine others detector index there ?_
        rintro rfl
        rw [there] at current
        cases current

end SpanDetector

end KokkosUtils.Foundations
