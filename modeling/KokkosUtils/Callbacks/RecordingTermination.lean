import KokkosUtils.Callbacks.ConcurrentRecording
import KokkosUtils.Foundations.BoundedRuns
import Mathlib.Algebra.BigOperators.Ring.Finset
import Mathlib.Algebra.Order.BigOperators.Group.Finset

/-! Threads that deliver events to one RecorderListener never wait for each other forever.
Each step of a thread brings it closer to its end, and some thread can step until all are done.
-/

namespace KokkosUtils.Callbacks

open KokkosUtils.Foundations

variable {τ ν μ : Type}

/-- The steps that a thread has still to make for the event that it delivers. -/
def RecorderFrame.remaining : RecorderFrame ν → ℕ
  | .outside => 0
  | .matched _ => 4
  | .locked _ => 3
  | .appending _ _ => 2
  | .appended => 1

/-- The steps that a thread may still make. -/
def RecorderThread.remaining (self : RecorderThread ν) : ℕ :=
  5 * self.pending.length + self.frame.remaining

namespace ConcurrentRecording

variable [Fintype τ] {state next : ConcurrentRecording τ ν μ} {thread : τ}
  {report : List (τ × Event ν)}

/-- The steps that all threads together may still make. -/
def remaining (state : ConcurrentRecording τ ν μ) : ℕ := ∑ thread, (state.threads thread).remaining

variable [DecidableEq τ]

/-- The others have the same steps before them as before. -/
theorem remaining_lt_of_update {moved : RecorderThread ν}
    (threads : next.threads = Function.update state.threads thread moved)
    (less : moved.remaining < (state.threads thread).remaining)
    : next.remaining < state.remaining := by
  unfold remaining
  refine Finset.sum_lt_sum (fun other _ => ?_) ⟨thread, Finset.mem_univ thread, ?_⟩
  · rw [threads]
    by_cases same : other = thread
    · rw [same, Function.update_self]
      exact less.le
    · rw [Function.update_of_ne same]
  · rw [threads, Function.update_self]
    exact less

/-- Each step is one of those that remained, by cases on the step. -/
theorem remaining_step (stepped : state.step thread = some (next, report))
    : next.remaining < state.remaining := by
  rcases step_cases stepped with
    ⟨event, rest, known, rfl, -⟩ | ⟨event, known, free, rfl, -⟩ | ⟨event, known, rfl, -⟩
      | ⟨event, contents, known, rfl, -⟩ | ⟨known, rfl, -⟩
  · refine remaining_lt_of_update rfl ?_
    rw [known]
    cases (state.recorder.test event).1 <;>
      simp only [RecorderThread.remaining, RecorderFrame.remaining, List.length_cons, if_true,
        Bool.false_eq_true, if_false] <;>
      omega
  · refine remaining_lt_of_update rfl ?_
    simp [RecorderThread.remaining, RecorderFrame.remaining, known]
  · refine remaining_lt_of_update rfl ?_
    simp [RecorderThread.remaining, RecorderFrame.remaining, known]
  · refine remaining_lt_of_update rfl ?_
    simp [RecorderThread.remaining, RecorderFrame.remaining, known]
  · refine remaining_lt_of_update rfl ?_
    simp [RecorderThread.remaining, RecorderFrame.remaining, known]

end ConcurrentRecording

/-- Threads that record at the same time never block each other forever. However they have been
scheduled so far, they have made at most five steps for each event, some schedule of the remaining
steps delivers all events, and a state in which no thread can step is one in which all have been
delivered.
-/
theorem concurrentRecording_completes [Fintype τ] [DecidableEq τ]
    {recorderClass : RecorderClass ν μ} {matcher : μ} {queues : τ → List (Event ν)}
    {schedule : List τ} {state : ConcurrentRecording τ ν μ} {report : List (τ × Event ν)}
    (ran
      : ConcurrentRecording.run schedule (.start recorderClass matcher queues)
        = some (state, report))
    : schedule.length ≤ 5 * ∑ thread, (queues thread).length
      ∧ (∃ later final shown,
          ConcurrentRecording.run later state = some (final, shown) ∧ final.Finished)
      ∧ ((∀ thread, state.step thread = none) → state.Finished) := by
  have kept
      : ∀ {thread} {state next : ConcurrentRecording τ ν μ} {report},
          state.Exclusive
          → state.step thread = some (next, report)
          → next.Exclusive ∧ next.remaining < state.remaining :=
    fun exclusive stepped =>
      ⟨exclusive.step stepped, ConcurrentRecording.remaining_step stepped⟩
  have outside
      : (ConcurrentRecording.start recorderClass matcher queues).Exclusive :=
    fun thread => .of_outside rfl nofun
  have exclusive : state.Exclusive :=
    runSteps_preserves (fun exclusive stepped => (kept exclusive stepped).1) outside ran
  refine ⟨?_, runSteps_completes kept (fun exclusive => exclusive.progress) exclusive, ?_⟩
  · have bounded := runSteps_length_le kept outside ran
    have work : (ConcurrentRecording.start recorderClass matcher queues).remaining
        = 5 * ∑ thread, (queues thread).length := by
      rw [Finset.mul_sum]
      rfl
    omega
  · intro stuck
    by_contra unfinished
    obtain ⟨thread, next, shown, stepped⟩ := exclusive.progress unfinished
    rw [stuck] at stepped
    cases stepped

/-- Recorders of markers and fences that accept the markers. -/
private def markers : RecorderClass Unit Unit where
  name := "Markers"
  eventTypes := [.kokkos .profileEvent, .kokkos .beginFenceEvent]
  distinct := by decide
  matcher := { start := (), step := fun event _ => (event.type == .kokkos .profileEvent, ()) }

/-- Two threads with a marker each. -/
private def marks : Bool → List (Event Unit)
  | false => [.kokkos (.profileEvent "left")]
  | true => [.kokkos (.profileEvent "right")]

/-- A thread that is suspended inside the critical section does not keep the others from finishing
for good.
-/
theorem concurrentRecording_completes_suspended
    : ∃ (state : ConcurrentRecording Bool Unit Unit) (report : List (Bool × Event Unit)),
        ConcurrentRecording.run [false, true, false, false] (.start markers () marks)
          = some (state, report)
        ∧ state.step true = none
        ∧ ∃ later final shown,
            ConcurrentRecording.run later state = some (final, shown) ∧ final.Finished := by
  have ran : ConcurrentRecording.run [false, true, false, false] (.start markers () marks)
      = some (_, _) := rfl
  exact ⟨_, _, ran, rfl, (concurrentRecording_completes ran).2.1⟩

end KokkosUtils.Callbacks
