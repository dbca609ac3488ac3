import KokkosUtils.Foundations.Histories

/-! Detection of one span of a stream: it opens at some input, lasts while the inputs keep
it open, and closes for good.
-/

namespace KokkosUtils.Foundations

variable {ι κ ω : Type*}

/-- What has been seen of the span so far, with the data it carries while it is open. -/
inductive Span (κ : Type*)
  | waiting
  | inside (data : κ)
  | closed
  deriving DecidableEq, Repr

namespace Span

/-- Whether the span has opened. -/
def begun : Span κ → Bool
  | waiting => false
  | inside _ => true
  | closed => true

/-- Whether the span has closed. -/
def ended : Span κ → Bool
  | waiting => false
  | inside _ => false
  | closed => true

/-- A span that has not begun is waiting. -/
theorem eq_waiting_of_not_begun {span : Span κ} (before : span.begun = false)
    : span = .waiting := by
  cases span with
  | waiting => rfl
  | inside data => cases before
  | closed => cases before

/-- A span that has ended is closed. -/
theorem eq_closed_of_ended {span : Span κ} (finished : span.ended = true) : span = .closed := by
  cases span with
  | waiting => cases finished
  | inside data => cases finished
  | closed => rfl

/-- A span that has ended has begun. -/
theorem begun_of_ended {span : Span κ} (finished : span.ended = true) : span.begun = true := by
  rw [eq_closed_of_ended finished]
  rfl

end Span

/-- Which inputs open a span, and what is left of the data of an open span after an input;
nothing is left when the input closes the span.
-/
structure SpanDetector (ι κ : Type*) where
  opens : ι → Option κ
  within : ι → κ → Option κ

namespace SpanDetector

variable (detector : SpanDetector ι κ)

/-- The effect of an input. -/
def step (input : ι) : Span κ → Span κ
  | .waiting => (detector.opens input).elim .waiting .inside
  | .inside data => (detector.within input data).elim .closed .inside
  | .closed => .closed

/-- Whether an input opens the span or closes it. -/
def changes (input : ι) : Span κ → Bool
  | .waiting => (detector.opens input).isSome
  | .inside data => (detector.within input data).isNone
  | .closed => false

/-- What is seen of the span in a stream. -/
def after (history : List ι) : Span κ :=
  history.foldl (fun span input => detector.step input span) .waiting

/-- The position at which the span opens. -/
def openedAt (history : List ι) : Option ℕ :=
  firstWhen (fun before input => !(detector.after before).begun
    && detector.changes input (detector.after before)) history

/-- The position at which the span closes. -/
def closedAt (history : List ι) : Option ℕ :=
  firstWhen (fun before input => (detector.after before).begun
    && detector.changes input (detector.after before)) history

/-- The input at which the span opens. -/
def openingInput (history : List ι) : Option ι :=
  (detector.openedAt history).bind (fun position => history[position]?)

/-- The input at which the span closes. -/
def closingInput (history : List ι) : Option ι :=
  (detector.closedAt history).bind (fun position => history[position]?)

/-- The marks left along a stream: `opening` where the span opens, `closing` where it closes. -/
def marks (opening closing : List ω) (history : List ι) : List (List ω) :=
  (List.range history.length).map
    (fun position =>
      (if detector.openedAt history = some position then opening else [])
      ++ (if detector.closedAt history = some position then closing else []))

/-- The marks left by one input. -/
def marksOf (opening closing : List ω) (input : ι) (span : Span κ) : List ω :=
  if detector.changes input span then (if span.begun then closing else opening) else []

variable {detector}

@[simp] theorem after_nil : detector.after [] = .waiting := rfl

@[simp] theorem after_concat (history : List ι) (input : ι)
    : detector.after (history ++ [input]) = detector.step input (detector.after history) := by
  simp [after]

/-- An input that leaves the span as it is changes nothing. -/
theorem changes_eq_false {input : ι} {span : Span κ} (same : detector.step input span = span)
    : detector.changes input span = false := by
  cases span with
  | waiting => cases opened : detector.opens input <;> simp_all [step, changes]
  | inside data => cases kept : detector.within input data <;> simp_all [step, changes]
  | closed => rfl

theorem begun_step (input : ι) (span : Span κ)
    : (detector.step input span).begun = (span.begun || detector.changes input span) := by
  cases span with
  | waiting => cases opened : detector.opens input <;> simp [step, changes, Span.begun, opened]
  | inside data => cases kept : detector.within input data <;> simp [step, Span.begun, kept]
  | closed => rfl

theorem ended_step (input : ι) (span : Span κ)
    : (detector.step input span).ended
      = (span.ended || span.begun && detector.changes input span) := by
  cases span with
  | waiting => cases opened : detector.opens input <;> simp [step, Span.ended, Span.begun, opened]
  | inside data =>
      cases kept : detector.within input data <;>
        simp [step, changes, Span.ended, Span.begun, kept]
  | closed => rfl

/-- Nothing changes once the span has closed. -/
theorem not_ended_of_changes {input : ι} {span : Span κ}
    (changed : detector.changes input span = true)
    : span.ended = false := by
  cases span with
  | waiting => rfl
  | inside data => rfl
  | closed => cases changed

/-- What changes a span that has not begun opens it. -/
theorem opens_of_changes {input : ι} {span : Span κ} (waiting : span.begun = false)
    (changed : detector.changes input span = true)
    : (detector.opens input).isSome = true := by
  cases span with
  | waiting => exact changed
  | inside data => cases waiting
  | closed => cases waiting

/-- The span has begun exactly when it has an opening position. -/
theorem begun_after (history : List ι)
    : (detector.after history).begun = (detector.openedAt history).isSome := by
  induction history using List.reverseRecOn with
  | nil => rfl
  | append_singleton history input ih =>
      rw [openedAt, firstWhen_concat, ← openedAt, after_concat, begun_step, Option.isSome_or, ← ih]
      cases (detector.after history).begun <;> cases detector.changes input _ <;> rfl

/-- The span has ended exactly when it has a closing position. -/
theorem ended_after (history : List ι)
    : (detector.after history).ended = (detector.closedAt history).isSome := by
  induction history using List.reverseRecOn with
  | nil => rfl
  | append_singleton history input ih =>
      rw [closedAt, firstWhen_concat, ← closedAt, after_concat, ended_step, Option.isSome_or, ← ih]
      congr 1
      cases (detector.after history).begun && detector.changes input _ <;> rfl

theorem openedAt_eq_none {history : List ι}
    : detector.openedAt history = none ↔ (detector.after history).begun = false := by
  rw [begun_after, Option.isSome_eq_false_iff, Option.isNone_iff_eq_none]

theorem closedAt_eq_none {history : List ι}
    : detector.closedAt history = none ↔ (detector.after history).ended = false := by
  rw [ended_after, Option.isSome_eq_false_iff, Option.isNone_iff_eq_none]

/-- The opening position is that of the first input that can open the span. -/
theorem openedAt_eq_findIdx? (history : List ι)
    : detector.openedAt history
      = history.findIdx? (fun input => (detector.opens input).isSome) := by
  induction history using List.reverseRecOn with
  | nil => rfl
  | append_singleton history input ih =>
      rw [findIdx?_eq_firstWhen, firstWhen_concat, ← findIdx?_eq_firstWhen, ← ih, openedAt,
        firstWhen_concat, ← openedAt]
      cases opened : detector.openedAt history with
      | some position => rfl
      | none =>
          have waits := openedAt_eq_none.mp opened
          cases seen : detector.after history with
          | waiting => rfl
          | inside data =>
              rw [seen] at waits
              cases waits
          | closed =>
              rw [seen] at waits
              cases waits

theorem openedAt_lt {history : List ι} {position : ℕ}
    (opened : detector.openedAt history = some position)
    : position < history.length :=
  firstWhen_lt opened

theorem openedAt_earlier {history inputs : List ι} (earlier : history <+: inputs) (position : ℕ)
    : detector.openedAt history = some position
      ↔ detector.openedAt inputs = some position ∧ position < history.length :=
  firstWhen_earlier earlier position

theorem closedAt_earlier {history inputs : List ι} (earlier : history <+: inputs) (position : ℕ)
    : detector.closedAt history = some position
      ↔ detector.closedAt inputs = some position ∧ position < history.length :=
  firstWhen_earlier earlier position

theorem openingInput_concat (history : List ι) (input : ι)
    : detector.openingInput (history ++ [input])
      = (detector.openingInput history).or
          (if !(detector.after history).begun && detector.changes input (detector.after history)
            then some input else none) :=
  firstInput_concat history input

theorem closingInput_concat (history : List ι) (input : ι)
    : detector.closingInput (history ++ [input])
      = (detector.closingInput history).or
          (if (detector.after history).begun && detector.changes input (detector.after history)
            then some input else none) :=
  firstInput_concat history input

theorem isSome_openingInput (history : List ι)
    : (detector.openingInput history).isSome = (detector.after history).begun := by
  rw [begun_after]
  exact isSome_firstInput history

theorem isSome_closingInput (history : List ι)
    : (detector.closingInput history).isSome = (detector.after history).ended := by
  rw [ended_after]
  exact isSome_firstInput history

/-- The span opens at the last input exactly when that input opens it. -/
theorem openedAt_concat_eq_length {history : List ι} {input : ι}
    : detector.openedAt (history ++ [input]) = some history.length
      ↔ (detector.after history).begun = false
        ∧ detector.changes input (detector.after history) = true := by
  rw [openedAt, firstWhen_concat_eq_length, ← openedAt, openedAt_eq_none]
  cases (detector.after history).begun <;> simp

/-- The span closes at the last input exactly when that input closes it. -/
theorem closedAt_concat_eq_length {history : List ι} {input : ι}
    : detector.closedAt (history ++ [input]) = some history.length
      ↔ (detector.after history).begun = true
        ∧ detector.changes input (detector.after history) = true := by
  rw [closedAt, firstWhen_concat_eq_length, ← closedAt, closedAt_eq_none, Bool.and_eq_true]
  exact and_iff_right_of_imp fun closes => not_ended_of_changes closes.2

/-- The marks left at the last input are those that it leaves. -/
theorem marks_last (opening closing : List ω) (history : List ι) (input : ι)
    : (if detector.openedAt (history ++ [input]) = some history.length then opening else [])
      ++ (if detector.closedAt (history ++ [input]) = some history.length then closing else [])
      = detector.marksOf opening closing input (detector.after history) := by
  simp only [openedAt_concat_eq_length, closedAt_concat_eq_length, marksOf]
  cases (detector.after history).begun <;>
    cases detector.changes input (detector.after history) <;> simp

/-- The marks of an extended stream are the earlier ones and those of the last input. -/
theorem marks_concat (opening closing : List ω) (history : List ι) (input : ι)
    : detector.marks opening closing (history ++ [input])
      = detector.marks opening closing history
        ++ [detector.marksOf opening closing input (detector.after history)] := by
  have earlier : history <+: history ++ [input] := List.prefix_append ..
  unfold marks
  refine map_range_concat (fun position bound => ?_) ?_
  · simp only [openedAt_earlier earlier position, closedAt_earlier earlier position, bound,
      and_true]
  · rw [marks_last]

end SpanDetector

end KokkosUtils.Foundations
