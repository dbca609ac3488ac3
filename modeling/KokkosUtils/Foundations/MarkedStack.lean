import KokkosUtils.Foundations.Nesting

/-! Stacks on which at most one frame is marked, and the stack of the open brackets of a stream
that marks an opening bracket of interest while no other is marked.
-/

namespace KokkosUtils.Foundations

variable {ι : Type*}

/-- A stack of frames, innermost first, at most one of which is marked. -/
structure MarkedStack (ι : Type*) where
  frames : List (ι × Bool)
  single : frames.Pairwise (fun inner outer => inner.2 = true → outer.2 = false)

namespace MarkedStack

def empty : MarkedStack ι := { frames := [], single := .nil }

/-- Whether a frame is marked. -/
def marked (stack : MarkedStack ι) : Bool := stack.frames.any (fun frame => frame.2)

/-- Whether the innermost frame is marked. -/
def topMarked (stack : MarkedStack ι) : Bool := stack.frames.head?.any (fun frame => frame.2)

def depth (stack : MarkedStack ι) : ℕ := stack.frames.length

/-- The number of frames inside the marked one. -/
def above (stack : MarkedStack ι) : Option ℕ := stack.frames.findIdx? (fun frame => frame.2)

/-- Pushes a frame and marks it if that is wanted and no frame is marked. -/
def push (input : ι) (wanted : Bool) (stack : MarkedStack ι) : MarkedStack ι where
  frames := (input, wanted && !stack.marked) :: stack.frames
  single := by
    refine List.Pairwise.cons ?_ stack.single
    intro frame member marks
    have unmarked := ((Bool.and_eq_true ..).mp marks).2
    simp only [marked, Bool.not_eq_true', List.any_eq_false] at unmarked
    exact Bool.eq_false_iff.mpr (unmarked frame member)

/-- Pops the innermost frame, if there is one. -/
def pop (stack : MarkedStack ι) : MarkedStack ι where
  frames := stack.frames.tail
  single := stack.single.tail

variable {stack : MarkedStack ι} {above : ℕ}

theorem marked_eq_isSome_above : stack.marked = stack.above.isSome := by
  rw [above, List.findIdx?_isSome]
  rfl

theorem above_lt_depth (marks : stack.above = some above) : above < stack.depth :=
  (List.findIdx?_eq_some_iff_findIdx_eq.mp marks).1

/-- The innermost frame is marked exactly when no frame is inside the marked one. -/
theorem topMarked_eq : stack.topMarked = (stack.above == some 0) := by
  obtain ⟨frames, single⟩ := stack
  cases frames with
  | nil => rfl
  | cons frame outer =>
      cases marks : frame.2 <;> simp [topMarked, MarkedStack.above, List.findIdx?_cons, marks]

/-- A pushed frame is marked, or else it is one more frame inside the marked one. -/
theorem above_push (input : ι) (wanted : Bool)
    : (stack.push input wanted).above
      = match stack.above with
        | some above => some (above + 1)
        | none => if wanted then some 0 else none := by
  have marks := stack.marked_eq_isSome_above
  rw [push, MarkedStack.above, List.findIdx?_cons, marks, MarkedStack.above]
  cases found : stack.frames.findIdx? (fun frame => frame.2) with
  | none => cases wanted <;> rfl
  | some above => simp

/-- A pop removes the marked frame or one of those inside it. -/
theorem above_pop
    : stack.pop.above
      = match stack.above with
        | some (above + 1) => some above
        | _ => none := by
  obtain ⟨frames, single⟩ := stack
  cases frames with
  | nil => rfl
  | cons frame outer =>
      simp only [pop, MarkedStack.above, List.tail_cons, List.findIdx?_cons]
      cases marks : frame.2 with
      | true =>
          -- the frames outside the marked one are unmarked
          have unmarked : outer.findIdx? (fun frame => frame.2) = none := by
            rw [List.findIdx?_eq_none_iff]
            exact fun other member => (List.pairwise_cons.mp single).1 other member marks
          rw [unmarked]
          rfl
      | false =>
          cases outer.findIdx? (fun frame => frame.2) <;> rfl

end MarkedStack

section

variable (kind : ι → Option Bracket) (interesting : ι → Bool)

/-- The effect of an input on the stack of open brackets. -/
def markStep (stack : MarkedStack ι) (input : ι) : MarkedStack ι :=
  match kind input with
  | some .opening => stack.push input (interesting input)
  | some .closing => stack.pop
  | none => stack

/-- The open brackets of a stream. -/
def marksAfter (history : List ι) : MarkedStack ι :=
  history.foldl (markStep kind interesting) .empty

end

variable {kind : ι → Option Bracket} {interesting : ι → Bool}

@[simp] theorem marksAfter_nil : marksAfter kind interesting [] = .empty := rfl

@[simp] theorem marksAfter_concat (history : List ι) (input : ι)
    : marksAfter kind interesting (history ++ [input])
      = markStep kind interesting (marksAfter kind interesting history) input := by
  simp [marksAfter]

end KokkosUtils.Foundations
