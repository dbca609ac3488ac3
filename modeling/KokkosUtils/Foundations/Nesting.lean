import KokkosUtils.Foundations.Spans

/-! Nested brackets in a stream. The bracket that closes an opening one is found by a stack
of open positions; a detector that only counts the brackets opened inside finds the same.
-/

namespace KokkosUtils.Foundations

variable {ι : Type*}

/-- The two sides of a pair of brackets. -/
inductive Bracket
  | opening
  | closing
  deriving DecidableEq, Repr

section

variable (kind : ι → Option Bracket)

/-- The effect of the input at a position on the open positions, innermost first. A closing
bracket is ignored when nothing is open.
-/
def openStep (positions : List ℕ) (entry : ι × ℕ) : List ℕ :=
  match kind entry.1 with
  | some .opening => entry.2 :: positions
  | some .closing => positions.tail
  | none => positions

/-- The positions of the brackets of a stream that are left open, innermost first. -/
def openAfter (inputs : List ι) : List ℕ := inputs.zipIdx.foldl (openStep kind) []

/-- The number of brackets of a stream that are left open. -/
def nestingDepth (inputs : List ι) : ℕ := (openAfter kind inputs).length

/-- The position of the closing bracket that corresponds to the opening one at a position. -/
def closingOf (position : ℕ) (inputs : List ι) : Option ℕ :=
  firstWhen
    (fun before input =>
      kind input == some .closing && (openAfter kind before).head? == some position)
    inputs

/-- Detects the span from the first opening bracket of interest to its closing bracket. The
data of an open span is the number of brackets opened inside it and still open.
-/
def bracketDetector (interesting : ι → Bool) : SpanDetector ι ℕ where
  opens := fun input => if kind input == some .opening && interesting input then some 0 else none
  within := fun input above =>
    match kind input, above with
    | some .opening, above => some (above + 1)
    | some .closing, 0 => none
    | some .closing, above + 1 => some above
    | none, above => some above

end

variable {kind : ι → Option Bracket} {interesting : ι → Bool}

@[simp] theorem openAfter_nil : openAfter kind [] = [] := rfl

theorem openAfter_concat (history : List ι) (input : ι)
    : openAfter kind (history ++ [input])
      = openStep kind (openAfter kind history) (input, history.length) := by
  simp [openAfter, List.zipIdx_append]

theorem openAfter_of_opening {history : List ι} {input : ι} (bracket : kind input = some .opening)
    : openAfter kind (history ++ [input]) = history.length :: openAfter kind history := by
  simp [openAfter_concat, openStep, bracket]

theorem openAfter_of_closing {history : List ι} {input : ι} (bracket : kind input = some .closing)
    : openAfter kind (history ++ [input]) = (openAfter kind history).tail := by
  simp [openAfter_concat, openStep, bracket]

theorem openAfter_of_other {history : List ι} {input : ι} (bracket : kind input = none)
    : openAfter kind (history ++ [input]) = openAfter kind history := by
  simp [openAfter_concat, openStep, bracket]

/-- Open positions lie inside the stream. -/
theorem lt_of_mem_openAfter {history : List ι} {position : ℕ}
    (member : position ∈ openAfter kind history)
    : position < history.length := by
  induction history using List.reverseRecOn with
  | nil => cases member
  | append_singleton history input ih =>
      rw [List.length_append, List.length_singleton]
      rw [openAfter_concat, openStep] at member
      split at member
      · rcases List.mem_cons.mp member with rfl | earlier
        · exact Nat.lt_succ_self _
        · exact Nat.lt_succ_of_lt (ih earlier)
      · exact Nat.lt_succ_of_lt (ih (List.mem_of_mem_tail member))
      · exact Nat.lt_succ_of_lt (ih member)

/-- No more brackets are open in the last part of a stream than in the whole: a closing bracket
closes one of the last part, if one is open there.
-/
theorem nestingDepth_le_append (passed since : List ι)
    : nestingDepth kind since ≤ nestingDepth kind (passed ++ since) := by
  induction since using List.reverseRecOn with
  | nil => exact Nat.zero_le _
  | append_singleton since input ih =>
      rw [← List.append_assoc]
      simp only [nestingDepth] at ih ⊢
      rcases bracket : kind input with _ | _ | _
      · rw [openAfter_of_other bracket, openAfter_of_other bracket]
        exact ih
      · rw [openAfter_of_opening bracket, openAfter_of_opening bracket]
        exact Nat.succ_le_succ ih
      · rw [openAfter_of_closing bracket, openAfter_of_closing bracket, List.length_tail,
          List.length_tail]
        exact Nat.sub_le_sub_right ih 1

/-- A closing bracket comes after the one it corresponds to. -/
theorem lt_closingOf {position closing : ℕ} {inputs : List ι}
    (closes : closingOf kind position inputs = some closing)
    : position < closing := by
  obtain ⟨history, input, -, rfl, closesHere⟩ := exists_of_firstWhen closes
  obtain ⟨-, happens⟩ := (firstWhen_concat_eq_length history input).mp closesHere
  rw [Bool.and_eq_true, beq_iff_eq, beq_iff_eq] at happens
  exact lt_of_mem_openAfter (List.mem_of_mem_head? happens.2)

theorem closingOf_concat (position : ℕ) (history : List ι) (input : ι)
    : closingOf kind position (history ++ [input])
      = (closingOf kind position history).or
          (if kind input == some .closing && (openAfter kind history).head? == some position
            then some history.length else none) :=
  firstWhen_concat history input

theorem closingOf_earlier {history inputs : List ι} (earlier : history <+: inputs)
    (position closing : ℕ)
    : closingOf kind position history = some closing
      ↔ closingOf kind position inputs = some closing ∧ closing < history.length :=
  firstWhen_earlier earlier closing

/-- Nothing inside a stream closes a bracket that lies beyond it. -/
theorem closingOf_eq_none_of_le {history : List ι} {position : ℕ}
    (beyond : history.length ≤ position)
    : closingOf kind position history = none := by
  induction history using List.reverseRecOn with
  | nil => rfl
  | append_singleton history input ih =>
      rw [List.length_append, List.length_singleton] at beyond
      rw [closingOf_concat, ih (Nat.le_of_succ_le beyond), Option.none_or, if_neg]
      intro closes
      rw [Bool.and_eq_true, beq_iff_eq, beq_iff_eq] at closes
      have inside := lt_of_mem_openAfter (List.mem_of_mem_head? closes.2)
      exact Nat.lt_irrefl _ (Nat.lt_of_lt_of_le inside (Nat.le_of_succ_le beyond))

/-- A position stays without its closing bracket if an input does not close it. -/
theorem closingOf_concat_eq_none {position : ℕ} {history : List ι} {input : ι}
    (notClosed : closingOf kind position history = none)
    (keeps : kind input = some .closing → (openAfter kind history).head? ≠ some position)
    : closingOf kind position (history ++ [input]) = none := by
  rw [closingOf_concat, notClosed, Option.none_or, if_neg]
  intro closes
  rw [Bool.and_eq_true, beq_iff_eq, beq_iff_eq] at closes
  exact keeps closes.1 closes.2

/-- The bracket at a position is open, and so are some opened inside it: their number. -/
def OpenAbove (kind : ι → Option Bracket) (history : List ι) (position above : ℕ) : Prop :=
  ∃ inner outer,
    openAfter kind history = inner ++ position :: outer
    ∧ inner.length = above
    ∧ position ∉ inner
    ∧ closingOf kind position history = none

namespace OpenAbove

variable {history : List ι} {input : ι} {position above : ℕ}

/-- A bracket is open once it has been opened. -/
theorem of_opening (bracket : kind input = some .opening)
    : OpenAbove kind (history ++ [input]) history.length 0 := by
  refine ⟨[], openAfter kind history, openAfter_of_opening bracket, rfl, List.not_mem_nil, ?_⟩
  refine closingOf_concat_eq_none (closingOf_eq_none_of_le (Nat.le_refl _)) fun closing => ?_
  rw [bracket] at closing
  cases closing

theorem concat_other (opened : OpenAbove kind history position above) (bracket : kind input = none)
    : OpenAbove kind (history ++ [input]) position above := by
  obtain ⟨inner, outer, stack, depth, distinct, notClosed⟩ := opened
  refine ⟨inner, outer, (openAfter_of_other bracket).trans stack, depth, distinct, ?_⟩
  exact closingOf_concat_eq_none notClosed (by simp [bracket])

/-- Another bracket opens inside. -/
theorem concat_opening (opened : OpenAbove kind history position above)
    (bracket : kind input = some .opening)
    : OpenAbove kind (history ++ [input]) position (above + 1) := by
  obtain ⟨inner, outer, stack, depth, distinct, notClosed⟩ := opened
  have inside : position < history.length :=
    lt_of_mem_openAfter (by rw [stack]; simp)
  refine ⟨history.length :: inner, outer, ?_, ?_, ?_, ?_⟩
  · rw [openAfter_of_opening bracket, stack, List.cons_append]
  · rw [List.length_cons, depth]
  · simp [distinct, Nat.ne_of_lt inside]
  · exact closingOf_concat_eq_none notClosed (by simp [bracket])

/-- A bracket opened inside closes. -/
theorem concat_closing (opened : OpenAbove kind history position (above + 1))
    (bracket : kind input = some .closing)
    : OpenAbove kind (history ++ [input]) position above := by
  obtain ⟨inner, outer, stack, depth, distinct, notClosed⟩ := opened
  cases inner with
  | nil => cases depth
  | cons latest inner =>
      obtain ⟨notLatest, notInner⟩ := not_or.mp (mt List.mem_cons.mpr distinct)
      refine ⟨inner, outer, ?_, Nat.succ.inj depth, notInner, ?_⟩
      · rw [openAfter_of_closing bracket, stack, List.cons_append, List.tail_cons]
      · refine closingOf_concat_eq_none notClosed fun _ => ?_
        rw [stack, List.cons_append, List.head?_cons]
        exact fun same => notLatest (Option.some.inj same).symm

/-- With nothing open inside, the bracket itself closes. -/
theorem closingOf_concat (opened : OpenAbove kind history position 0)
    (bracket : kind input = some .closing)
    : closingOf kind position (history ++ [input]) = some history.length := by
  obtain ⟨inner, outer, stack, depth, -, notClosed⟩ := opened
  obtain rfl := List.eq_nil_of_length_eq_zero depth
  simp [Foundations.closingOf_concat, notClosed, bracket, stack]

theorem closingOf_eq_none (opened : OpenAbove kind history position above)
    : closingOf kind position history = none := by
  obtain ⟨inner, outer, -, -, -, notClosed⟩ := opened
  exact notClosed

/-- Fewer brackets are open inside than in the stream. -/
theorem lt_nestingDepth (opened : OpenAbove kind history position above)
    : above < nestingDepth kind history := by
  obtain ⟨inner, outer, stack, depth, -, -⟩ := opened
  rw [nestingDepth, stack, List.length_append, List.length_cons]
  omega

end OpenAbove

section

variable {input : ι} {above : ℕ}

/-- The detector opens a span at opening brackets of interest, with nothing open inside. -/
theorem bracketDetector_opens_eq_some
    : (bracketDetector kind interesting).opens input = some above
      ↔ kind input = some .opening ∧ interesting input = true ∧ above = 0 := by
  constructor
  · intro opens
    simp only [bracketDetector, Option.ite_none_right_eq_some, Bool.and_eq_true, beq_iff_eq,
      Option.some.injEq] at opens
    exact ⟨opens.1.1, opens.1.2, opens.2.symm⟩
  · rintro ⟨bracket, wanted, rfl⟩
    simp [bracketDetector, bracket, wanted]

theorem bracketDetector_within_of_opening (bracket : kind input = some .opening)
    : (bracketDetector kind interesting).within input above = some (above + 1) := by
  simp only [bracketDetector, bracket]

theorem bracketDetector_within_of_closing (bracket : kind input = some .closing)
    : (bracketDetector kind interesting).within input (above + 1) = some above := by
  simp only [bracketDetector, bracket]

theorem bracketDetector_within_of_last (bracket : kind input = some .closing)
    : (bracketDetector kind interesting).within input 0 = none := by
  simp only [bracketDetector, bracket]

theorem bracketDetector_within_of_other (bracket : kind input = none)
    : (bracketDetector kind interesting).within input above = some above := by
  simp only [bracketDetector, bracket]

end

/-- What a detector's span says about the stack of open positions. -/
def SpanOnStack (kind : ι → Option Bracket) (interesting : ι → Bool) (history : List ι)
    : Span ℕ → Prop
  | .waiting => True
  | .inside above =>
      ∃ opened inner outer,
        (bracketDetector kind interesting).openedAt history = some opened
        ∧ openAfter kind history = inner ++ opened :: outer
        ∧ inner.length = above
        ∧ opened ∉ inner
        ∧ closingOf kind opened history = none
  | .closed =>
      ∃ opened closed,
        (bracketDetector kind interesting).openedAt history = some opened
        ∧ (bracketDetector kind interesting).closedAt history = some closed
        ∧ closingOf kind opened history = some closed

theorem spanOnStack_inside {history : List ι} {above : ℕ}
    : SpanOnStack kind interesting history (.inside above)
      ↔ ∃ opened,
          (bracketDetector kind interesting).openedAt history = some opened
          ∧ OpenAbove kind history opened above := by
  constructor
  · rintro ⟨opened, inner, outer, openedHere, openAbove⟩
    exact ⟨opened, openedHere, inner, outer, openAbove⟩
  · rintro ⟨opened, openedHere, inner, outer, openAbove⟩
    exact ⟨opened, inner, outer, openedHere, openAbove⟩

/-- An input keeps the span and the stack in step before the span: an opening bracket of
interest is the innermost one.
-/
theorem SpanOnStack.concat_waiting {history : List ι} (input : ι)
    (seen : (bracketDetector kind interesting).after history = .waiting)
    : SpanOnStack kind interesting (history ++ [input])
        ((bracketDetector kind interesting).step input .waiting) := by
  cases opens : (bracketDetector kind interesting).opens input with
  | none => simp [SpanDetector.step, opens, SpanOnStack]
  | some above =>
      obtain ⟨bracket, -, rfl⟩ := bracketDetector_opens_eq_some.mp opens
      simp only [SpanDetector.step, opens, Option.elim_some]
      refine spanOnStack_inside.mpr ⟨history.length, ?_, .of_opening bracket⟩
      rw [SpanDetector.openedAt_concat_eq_length, seen]
      exact ⟨rfl, by simp [SpanDetector.changes, opens]⟩

/-- An input keeps an open span and the stack in step, by cases on the bracket: the span stays
above the outer positions until the bracket that closes it.
-/
theorem SpanOnStack.concat_inside {history : List ι} (input : ι) {above : ℕ}
    (seen : (bracketDetector kind interesting).after history = .inside above)
    (onStack : SpanOnStack kind interesting history (.inside above))
    : SpanOnStack kind interesting (history ++ [input])
        ((bracketDetector kind interesting).step input (.inside above)) := by
  obtain ⟨opened, openedHere, openAbove⟩ := spanOnStack_inside.mp onStack
  have earlier : history <+: history ++ [input] := List.prefix_append ..
  have openedStill := ((SpanDetector.openedAt_earlier earlier opened).mp openedHere).1
  rcases bracket : kind input with _ | _ | _
  · rw [SpanDetector.step, bracketDetector_within_of_other bracket, Option.elim_some]
    exact spanOnStack_inside.mpr ⟨opened, openedStill, openAbove.concat_other bracket⟩
  · rw [SpanDetector.step, bracketDetector_within_of_opening bracket, Option.elim_some]
    exact spanOnStack_inside.mpr ⟨opened, openedStill, openAbove.concat_opening bracket⟩
  · cases above with
    | zero =>
        rw [SpanDetector.step, bracketDetector_within_of_last bracket, Option.elim_none]
        refine ⟨opened, history.length, openedStill, ?_, openAbove.closingOf_concat bracket⟩
        rw [SpanDetector.closedAt_concat_eq_length, seen]
        exact ⟨rfl, by simp [SpanDetector.changes, bracketDetector_within_of_last bracket]⟩
    | succ above =>
        rw [SpanDetector.step, bracketDetector_within_of_closing bracket, Option.elim_some]
        exact spanOnStack_inside.mpr ⟨opened, openedStill, openAbove.concat_closing bracket⟩

/-- One more input keeps the span and the stack in step, by cases on the span. -/
theorem SpanOnStack.concat {history : List ι} (input : ι)
    (onStack
      : SpanOnStack kind interesting history
          ((bracketDetector kind interesting).after history))
    : SpanOnStack kind interesting (history ++ [input])
        ((bracketDetector kind interesting).after (history ++ [input])) := by
  rw [SpanDetector.after_concat]
  cases seen : (bracketDetector kind interesting).after history with
  | waiting => exact .concat_waiting input seen
  | inside above =>
      rw [seen] at onStack
      exact onStack.concat_inside input seen
  | closed =>
      have earlier : history <+: history ++ [input] := List.prefix_append ..
      rw [seen] at onStack
      obtain ⟨opened, closed, openedHere, closedHere, closing⟩ := onStack
      exact ⟨opened, closed, ((SpanDetector.openedAt_earlier earlier opened).mp openedHere).1,
        ((SpanDetector.closedAt_earlier earlier closed).mp closedHere).1,
        ((closingOf_earlier earlier opened closed).mp closing).1⟩

/-- A bracket detector follows the stack of open positions through any stream. -/
theorem bracketDetector_onStack (kind : ι → Option Bracket) (interesting : ι → Bool)
    (history : List ι)
    : SpanOnStack kind interesting history
        ((bracketDetector kind interesting).after history) := by
  induction history using List.reverseRecOn with
  | nil => trivial
  | append_singleton history input ih => exact ih.concat input

/-- The span opens at the first opening bracket of interest. -/
theorem bracketDetector_openedAt (history : List ι)
    : (bracketDetector kind interesting).openedAt history
      = history.findIdx? (fun input => kind input == some .opening && interesting input) := by
  rw [SpanDetector.openedAt_eq_findIdx?]
  congr 1
  funext input
  simp only [bracketDetector]
  split <;> simp_all

/-- The span closes at the bracket that corresponds to the one that opened it. -/
theorem bracketDetector_closedAt (history : List ι)
    : (bracketDetector kind interesting).closedAt history
      = ((bracketDetector kind interesting).openedAt history).bind
          (fun opened => closingOf kind opened history) := by
  have onStack := bracketDetector_onStack kind interesting history
  cases seen : (bracketDetector kind interesting).after history with
  | waiting =>
      rw [SpanDetector.closedAt_eq_none.mpr (by rw [seen]; rfl),
        SpanDetector.openedAt_eq_none.mpr (by rw [seen]; rfl)]
      rfl
  | inside above =>
      rw [seen] at onStack
      obtain ⟨opened, inner, outer, openedHere, -, -, -, notClosed⟩ := onStack
      rw [SpanDetector.closedAt_eq_none.mpr (by rw [seen]; rfl), openedHere]
      exact notClosed.symm
  | closed =>
      rw [seen] at onStack
      obtain ⟨opened, closed, openedHere, closedHere, closing⟩ := onStack
      rw [openedHere, closedHere]
      exact closing.symm

/-- Inside a span, fewer brackets are open above its opening one than in the stream. -/
theorem lt_nestingDepth_of_inside {history : List ι} {above : ℕ}
    (seen : (bracketDetector kind interesting).after history = .inside above)
    : above < nestingDepth kind history := by
  have onStack := bracketDetector_onStack kind interesting history
  rw [seen] at onStack
  obtain ⟨opened, -, openAbove⟩ := spanOnStack_inside.mp onStack
  exact openAbove.lt_nestingDepth

end KokkosUtils.Foundations
