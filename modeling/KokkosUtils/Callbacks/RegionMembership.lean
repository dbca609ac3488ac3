import KokkosUtils.Callbacks.RegionTimerListener
import KokkosUtils.Foundations.MarkedStack

/-! EventRegionMatcher on events of any types.
Its flag and its counter stand for the stack of open regions on which a push event that the
inner matcher accepts is marked while no other is.
-/

namespace KokkosUtils.Callbacks

open KokkosUtils.Foundations

variable {ν M : Type} {trueOnBoundary : Bool}

/-- The side of a pair of region events that an event of any type is, if it is one. -/
def Event.bracket? : Event ν → Option Bracket
  | .kokkos event => event.bracket?
  | .custom .. => none

section

variable [Matcher M]

/-- `operator()` for events of any type; the one for custom events is the template. -/
def EventRegionMatcher.callEvent (event : Event ν) (self : EventRegionMatcher M trueOnBoundary)
    : Bool × EventRegionMatcher M trueOnBoundary :=
  match event with
  | .kokkos event => EventRegionMatcher.call event self
  | .custom .. => (if trueOnBoundary then false else self.matching, self)

/-- A newly constructed EventRegionMatcher that is called with events of any types. -/
def EventRegionMatcher.acceptor (ν : Type) (trueOnBoundary : Bool) (matcher : M)
    : Acceptor (Event ν) (EventRegionMatcher M trueOnBoundary) where
  start := { matcher := matcher }
  step := EventRegionMatcher.callEvent

/-- The stack of open regions, on which a push event that the matcher accepts is marked if no
other is.
-/
def openRegions (matcher : M) (history : List (Event ν)) : MarkedStack (Event ν) :=
  marksAfter Event.bracket? (Event.acceptedBy matcher) history

/-- At each point of a stream, fewer regions than the bound are open. -/
def OpenBelow (bound : ℕ) (matcher : M) (history : List (Event ν)) : Prop :=
  ∀ before ∈ history.inits, (openRegions matcher before).depth < bound

instance (bound : ℕ) (matcher : M) (history : List (Event ν))
    : Decidable (OpenBelow bound matcher history) :=
  inferInstanceAs (Decidable (∀ before ∈ history.inits, _))

/-- The bound holds for the counter at the end of any first part of a stream. -/
theorem OpenBelow.above_lt {bound : ℕ} {matcher : M} {history stream : List (Event ν)}
    (depth : OpenBelow bound matcher stream) (earlier : history <+: stream) {above : ℕ}
    (open? : (openRegions matcher history).above = some above)
    : above < bound :=
  Nat.lt_trans (MarkedStack.above_lt_depth open?)
    (depth history ((List.mem_inits history stream).mpr earlier))

/-- An EventRegionMatcher whose flag and counter stand for a stack of regions. -/
structure EventRegionMatcher.StandsFor (matcher : M) (stack : MarkedStack (Event ν))
    (self : EventRegionMatcher M trueOnBoundary)
    : Prop where
  inner : self.matcher = matcher
  matching : self.matching = stack.above.isSome
  level : ∀ above, stack.above = some above → self.nestedLevel = UInt32.ofNat (above + 1)

end

/-- The verdict on an event between two stacks of regions: inside the marked region, or at its
boundary.
-/
def regionVerdict (trueOnBoundary : Bool) (event : Event ν) (before after : MarkedStack (Event ν))
    : Bool :=
  if trueOnBoundary then
    event.bracket? == some .opening && after.topMarked
    || event.bracket? == some .closing && before.topMarked
  else
    before.marked && after.marked

section

attribute [local simp] EventRegionMatcher.callEvent EventRegionMatcher.call regionVerdict markStep
  Event.bracket? KokkosEvent.bracket? Event.acceptedBy MarkedStack.marked_eq_isSome_above
  MarkedStack.topMarked_eq MarkedStack.above_push MarkedStack.above_pop

/-- A call gives the verdict and keeps the flag and the counter in step with the stack, by cases
on the event and on the frames inside the marked one.
-/
theorem EventRegionMatcher.StandsFor.call [StatelessMatcher M] {matcher : M}
    {stack : MarkedStack (Event ν)} {self : EventRegionMatcher M trueOnBoundary}
    (stands : self.StandsFor matcher stack) (event : Event ν)
    (bounded : ∀ above, stack.above = some above → above < UInt32.size)
    : (EventRegionMatcher.callEvent event self).1
        = regionVerdict trueOnBoundary event stack
            (markStep Event.bracket? (Event.acceptedBy matcher) stack event)
      ∧ (EventRegionMatcher.callEvent event self).2.StandsFor matcher
          (markStep Event.bracket? (Event.acceptedBy matcher) stack event) := by
  obtain ⟨inner, matching, level⟩ := self
  obtain ⟨same, flag, counter⟩ := stands
  dsimp only at same flag counter
  subst inner
  cases open? : stack.above with
  | none =>
      obtain rfl : matching = false := by rw [flag, open?]; rfl
      cases event with
      | custom type value => exact ⟨by simp [open?], rfl, flag, counter⟩
      | kokkos event =>
          cases event with
          | pushRegionEvent name =>
              have inert := StatelessMatcher.call_eq (.pushRegionEvent name) matcher
              cases accepted : Matcher.accepts matcher (.pushRegionEvent name) with
              | false =>
                  refine ⟨by simp [open?, inert, accepted], ?_, ?_, ?_⟩
                  all_goals simp [open?, inert, accepted]
              | true =>
                  refine ⟨by simp [open?, inert, accepted], ?_, ?_, ?_⟩
                  all_goals simp [open?, inert, accepted]
          | popRegionEvent =>
              refine ⟨by simp [open?], ?_, ?_, ?_⟩
              all_goals simp [open?]
          | _ => exact ⟨by simp [open?], rfl, flag, counter⟩
  | some above =>
      obtain rfl : matching = true := by rw [flag, open?]; rfl
      obtain rfl : level = UInt32.ofNat (above + 1) := counter above open?
      cases event with
      | custom type value => exact ⟨by simp [open?], rfl, flag, counter⟩
      | kokkos event =>
          cases event with
          | pushRegionEvent name =>
              refine ⟨by simp [open?], ?_, ?_, ?_⟩
              all_goals simp [open?]
          | popRegionEvent =>
              cases above with
              | zero =>
                  refine ⟨by simp [open?], ?_, ?_, ?_⟩
                  all_goals simp [open?]
              | succ above =>
                  have inside := nestedLevel_ne_zero (bounded (above + 1) open?)
                  refine ⟨by simp [open?, inside], ?_, ?_, ?_⟩
                  all_goals simp [open?, inside]
          | _ => exact ⟨by simp [open?], rfl, flag, counter⟩

end

variable [StatelessMatcher M] {matcher : M} {history stream : List (Event ν)} {event : Event ν}

/-- Through any stream with fewer open regions than the counter can count, the flag and the
counter stand for the stack: induction on the stream from its end.
-/
theorem acceptor_standsFor (depth : OpenBelow UInt32.size matcher stream)
    (earlier : history <+: stream)
    : ((EventRegionMatcher.acceptor ν trueOnBoundary matcher).after history).StandsFor matcher
        (openRegions matcher history) := by
  induction history using List.reverseRecOn with
  | nil => exact ⟨rfl, rfl, fun _ absurd => nomatch absurd⟩
  | append_singleton history event ih =>
      have before : history <+: stream := (List.prefix_append ..).trans earlier
      rw [Acceptor.after_concat, openRegions, marksAfter_concat]
      exact ((ih before).call event fun _ => depth.above_lt before).2

/-- Each verdict is that between the stacks before and after the event. -/
theorem acceptor_verdict (depth : OpenBelow UInt32.size matcher stream)
    (earlier : history <+: stream)
    : (EventRegionMatcher.acceptor ν trueOnBoundary matcher).verdict history event
      = regionVerdict trueOnBoundary event (openRegions matcher history)
          (openRegions matcher (history ++ [event])) := by
  rw [openRegions, openRegions, marksAfter_concat]
  exact ((acceptor_standsFor depth earlier).call event fun _ => depth.above_lt earlier).1

/-- The push event that marks a region finds none marked, and the pop event that removes the
marked region leaves none.
-/
theorem not_within_of_boundary (matcher : M) (history : List (Event ν)) (event : Event ν)
    : regionVerdict true event (openRegions matcher history)
        (openRegions matcher (history ++ [event])) = true
      → regionVerdict false event (openRegions matcher history)
          (openRegions matcher (history ++ [event])) = false := by
  rw [openRegions, openRegions, marksAfter_concat]
  cases open? : (marksAfter Event.bracket? (Event.acceptedBy matcher) history).above with
  | none => simp [regionVerdict, MarkedStack.marked_eq_isSome_above, open?]
  | some above =>
      rcases bracket : event.bracket? with _ | _ | _
      · simp [regionVerdict, bracket]
      · simp [regionVerdict, bracket, markStep, MarkedStack.topMarked_eq, MarkedStack.above_push,
          open?]
      · cases above <;>
          simp [regionVerdict, bracket, markStep, MarkedStack.topMarked_eq,
            MarkedStack.marked_eq_isSome_above, MarkedStack.above_pop, open?]

/-- EventRegionMatcher matches the events inside the marked region or, if it is to be true on
the boundary, the push event that opens it and the pop event that closes it; never both.
-/
theorem eventRegionMatcher_membership (matcher : M) (history : List (Event ν)) (event : Event ν)
    (depth : OpenBelow UInt32.size matcher (history ++ [event]))
    : let before := openRegions matcher history
      let after := openRegions matcher (history ++ [event])
      let within := (EventRegionMatcher.acceptor ν false matcher).verdict history event
      let boundary := (EventRegionMatcher.acceptor ν true matcher).verdict history event
      (within = true ↔ before.marked = true ∧ after.marked = true)
      ∧ (boundary = true
          ↔ event.bracket? = some .opening ∧ after.topMarked = true
            ∨ event.bracket? = some .closing ∧ before.topMarked = true)
      ∧ ¬ (within = true ∧ boundary = true) := by
  intro before after within boundary
  have inside : within = regionVerdict false event before after :=
    acceptor_verdict depth (List.prefix_append ..)
  have atBoundary : boundary = regionVerdict true event before after :=
    acceptor_verdict depth (List.prefix_append ..)
  refine ⟨?_, ?_, ?_⟩
  · simp [inside, regionVerdict]
  · simp [atBoundary, regionVerdict]
  · rintro ⟨matchedInside, matchedAt⟩
    rw [inside] at matchedInside
    rw [atBoundary] at matchedAt
    cases matchedInside.symm.trans (not_within_of_boundary matcher history event matchedAt)

/-- A region of the name that is looked for, nested in another one of that name, stays inside:
the last pop event is the boundary.
-/
theorem eventRegionMatcher_membership_nested
    : let matcher : EventNameMatcher := { name := "region" }
      let push : Event Unit := .kokkos (.pushRegionEvent "region")
      let pop : Event Unit := .kokkos .popRegionEvent
      let history := [pop, .kokkos (.pushRegionEvent "outer"), push, .custom "user" (), push, pop]
      (EventRegionMatcher.acceptor Unit true matcher).verdict history pop = true
      ∧ ¬ (EventRegionMatcher.acceptor Unit false matcher).verdict history pop = true := by
  intro matcher push pop history
  have membership := eventRegionMatcher_membership matcher history pop (by decide)
  have boundary := membership.2.1.mpr (by decide)
  exact ⟨boundary, fun within => membership.2.2 ⟨within, boundary⟩⟩

end KokkosUtils.Callbacks
