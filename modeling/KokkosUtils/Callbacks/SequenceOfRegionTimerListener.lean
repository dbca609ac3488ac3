import KokkosUtils.Callbacks.RegionTimerListener
import KokkosUtils.Foundations.SpanSequences

/-! SequenceOfRegionTimerListener, which looks at the matcher of its current region only.
Regions in order are those that a sequence is made for: each is first pushed after the one
before it has been popped.
-/

namespace KokkosUtils.Callbacks

open KokkosUtils.Foundations

variable {θ M : Type}

/-- `SequenceOfRegionTimerListener`. -/
structure SequenceOfRegionTimerListener (M θ : Type) where
  matchers : List (RegionMatcher M)
  timers : List (Timers.Timer θ)
  current : ℕ := 0

namespace SequenceOfRegionTimerListener

/-- The constructor. -/
def new (matchers : List M) : SequenceOfRegionTimerListener M θ :=
  {
    matchers := matchers.map (fun matcher => { matcher := { matcher := matcher } })
    timers := List.replicate matchers.length {}
  }

/-- `reset`. -/
def reset (self : SequenceOfRegionTimerListener M θ) : SequenceOfRegionTimerListener M θ :=
  { self with current := 0 }

/-- `all_matched`. -/
def allMatched (self : SequenceOfRegionTimerListener M θ) : Bool :=
  self.current == self.timers.length

variable [Matcher M]

/-- `operator()` for push events, with the calls it makes to the timers, each with the index of
its timer. A missing result stands for the exception thrown by `at`.
-/
def callPush (now : θ) (event : KokkosEvent) (self : SequenceOfRegionTimerListener M θ)
    : Option (SequenceOfRegionTimerListener M θ × List (ℕ × TimerCall)) :=
  if self.allMatched then
    some (self, [])
  else
    self.matchers[self.current]?.bind fun matcher =>
      let (matched, matcher) := Matcher.call event matcher
      let self := { self with matchers := self.matchers.set self.current matcher }
      if matched then
        self.timers[self.current]?.map fun timer =>
          (
            { self with timers := self.timers.set self.current (timer.start now) },
            [(self.current, .start)]
          )
      else
        some (self, [])

/-- `operator()` for pop events. -/
def callPop (now : θ) (event : KokkosEvent) (self : SequenceOfRegionTimerListener M θ)
    : Option (SequenceOfRegionTimerListener M θ × List (ℕ × TimerCall)) :=
  if self.allMatched then
    some (self, [])
  else
    self.matchers[self.current]?.bind fun matcher =>
      let (matched, matcher) := Matcher.call event matcher
      let self := { self with matchers := self.matchers.set self.current matcher }
      if matched then
        self.timers[self.current]?.map fun timer =>
          (
            {
              self with
              timers := self.timers.set self.current (timer.stop now)
              current := self.current + 1
            },
            [(self.current, .stop)]
          )
      else
        some (self, [])

/-- Delivers an event to a sequence, which is invocable with region events only. The report has
one entry for each event.
-/
def receive (stamped : Stamped θ) (self : SequenceOfRegionTimerListener M θ)
    : Option (SequenceOfRegionTimerListener M θ × List (List (ℕ × TimerCall))) :=
  match stamped.event with
  | .pushRegionEvent _ =>
      (self.callPush stamped.moment stamped.event).map (fun (next, calls) => (next, [calls]))
  | .popRegionEvent =>
      (self.callPop stamped.moment stamped.event).map (fun (next, calls) => (next, [calls]))
  | _ => some (self, [[]])

variable {stamped : Stamped θ} {self : SequenceOfRegionTimerListener M θ} {inner : RegionMatcher M}

/-- A finished sequence ignores all events. -/
theorem receive_of_allMatched (finished : self.allMatched = true)
    : self.receive stamped = some (self, [[]]) := by
  unfold receive callPush callPop
  split
  · rw [if_pos finished]
    rfl
  · rw [if_pos finished]
    rfl
  · rfl

/-- A region event that the current matcher does not accept changes that matcher only. -/
theorem receive_of_not_matched (unfinished : self.allMatched = false)
    (there : self.matchers[self.current]? = some inner) (region : stamped.bracket?.isSome = true)
    (matched : (Matcher.call stamped.event inner).1 = false)
    : self.receive stamped
      = some
          (
            {
              self with
              matchers := self.matchers.set self.current (Matcher.call stamped.event inner).2
            },
            [[]]
          ) := by
  obtain ⟨moment, event⟩ := stamped
  cases event with
  | pushRegionEvent name => simp_all [receive, callPush]
  | popRegionEvent => simp_all [receive, callPop]
  | _ => cases region

/-- A push event that the current matcher accepts starts the current timer. -/
theorem receive_push_of_matched {timer : Timers.Timer θ} (unfinished : self.allMatched = false)
    (there : self.matchers[self.current]? = some inner)
    (timed : self.timers[self.current]? = some timer) (push : stamped.bracket? = some .opening)
    (matched : (Matcher.call stamped.event inner).1 = true)
    : self.receive stamped
      = some
          (
            {
              self with
              matchers := self.matchers.set self.current (Matcher.call stamped.event inner).2
              timers := self.timers.set self.current (timer.start stamped.moment)
            },
            [[(self.current, .start)]]
          ) := by
  obtain ⟨moment, event⟩ := stamped
  cases event with
  | pushRegionEvent name => simp_all [receive, callPush]
  | _ => cases push

/-- A pop event that the current matcher accepts stops the current timer and moves on. -/
theorem receive_pop_of_matched {timer : Timers.Timer θ} (unfinished : self.allMatched = false)
    (there : self.matchers[self.current]? = some inner)
    (timed : self.timers[self.current]? = some timer) (pop : stamped.bracket? = some .closing)
    (matched : (Matcher.call stamped.event inner).1 = true)
    : self.receive stamped
      = some
          (
            {
              self with
              matchers := self.matchers.set self.current (Matcher.call stamped.event inner).2
              timers := self.timers.set self.current (timer.stop stamped.moment)
              current := self.current + 1
            },
            [[(self.current, .stop)]]
          ) := by
  obtain ⟨moment, event⟩ := stamped
  cases event with
  | popRegionEvent => simp_all [receive, callPop]
  | _ => cases pop

/-- Only region events reach a sequence. -/
theorem receive_other (other : stamped.bracket? = none)
    : self.receive stamped = some (self, [[]]) := by
  obtain ⟨moment, event⟩ := stamped
  cases event <;> first | rfl | cases other

end SequenceOfRegionTimerListener

section

variable [Matcher M]

/-- Each region of interest is first pushed after the one before it has been popped. -/
def RegionsInOrder (matchers : List M) (stream : List (Stamped θ)) : Prop :=
  ∀ index first second push,
    matchers[index]? = some first
    → matchers[index + 1]? = some second
    → firstPush second stream = some push
    → ∃ pop, correspondingPop first stream = some pop ∧ pop < push

/-- The calls expected of a sequence: each timer is started exactly at the first push event
that its matcher accepts and stopped exactly at the corresponding pop event.
-/
def sequenceCalls (matchers : List M) (stream : List (Stamped θ))
    : List (List (ℕ × TimerCall)) :=
  (List.range stream.length).map
    (fun position =>
      matchers.zipIdx.flatMap
        (fun (matcher, index) =>
          (if firstPush matcher stream = some position then [(index, .start)] else [])
          ++ (if correspondingPop matcher stream = some position then [(index, .stop)] else [])))

/-- The calls that a sequence makes to one of its timers. -/
def callsTo (index : ℕ) (calls : List (ℕ × TimerCall)) : List TimerCall :=
  calls.filterMap (fun (timer, call) => if timer = index then some call else none)

end

/-- The listener after some complete passes, with a reset after each. -/
def afterPasses {σ ω : Type} (receive : Stamped θ → σ → Option (σ × List ω)) (reset : σ → σ)
    (passes : List (List (Stamped θ))) (listener : σ)
    : Option σ :=
  passes.foldlM
    (fun state pass => (runSteps receive pass state).map (fun (final, _) => reset final)) listener

end KokkosUtils.Callbacks
