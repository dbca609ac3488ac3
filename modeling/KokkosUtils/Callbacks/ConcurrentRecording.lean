import KokkosUtils.Callbacks.RecorderListener
import KokkosUtils.Foundations.Interleavings

/-! Threads that deliver events to one RecorderListener at the same time.
The matcher is called outside the critical section. Inside, `push_back` is not atomic: it reads
the container before it writes it, so that only the mutex keeps events of other threads from
being lost.
-/

namespace KokkosUtils.Callbacks

open KokkosUtils.Foundations KokkosUtils.Impl

variable {τ ν μ : Type}

/-- The condition of `operator()`: whether the matcher returns true for an event of the class. -/
def RecorderListener.test (event : Event ν) (recorder : RecorderListener ν μ)
    : Bool × RecorderListener ν μ :=
  if typeListContains event.type recorder.recorderClass.eventTypes then
    let (matched, next) := recorder.recorderClass.matcher.step event recorder.matcher
    (matched, { recorder with matcher := next })
  else
    (false, recorder)

/-- Whether recorders of a class with a matcher in the given state accept an event. -/
def RecorderClass.accepts (recorderClass : RecorderClass ν μ) (matcher : μ) (event : Event ν)
    : Bool :=
  typeListContains event.type recorderClass.eventTypes
  && (recorderClass.matcher.step event matcher).1

/-- Where a thread is in `operator()`: outside, after the matcher has returned true, after it has
locked the mutex, inside `push_back` with the contents that it has read, or after `push_back`.
-/
inductive RecorderFrame (ν : Type)
  | outside
  | matched (event : Event ν)
  | locked (event : Event ν)
  | appending (event : Event ν) (contents : List (Event ν))
  | appended

/-- Whether a thread is inside the critical section. -/
def RecorderFrame.critical : RecorderFrame ν → Bool
  | .outside => false
  | .matched _ => false
  | _ => true

/-- The event that the matcher has accepted and that has not been recorded yet. -/
def RecorderFrame.accepted : RecorderFrame ν → List (Event ν)
  | .matched event => [event]
  | .locked event => [event]
  | .appending event _ => [event]
  | _ => []

/-- A thread, with the events that it has still to deliver. -/
structure RecorderThread (ν : Type) where
  pending : List (Event ν)
  frame : RecorderFrame ν := .outside

/-- What a thread has still to record: the event that it is about to record, and the acceptable ones
of the events that it has still to deliver.
-/
def RecorderThread.unrecorded (accepts : Event ν → Bool) (self : RecorderThread ν)
    : List (Event ν) :=
  self.frame.accepted ++ self.pending.filter accepts

/-- A recorder, the thread that holds its mutex, and all threads. -/
structure ConcurrentRecording (τ ν μ : Type) where
  recorder : RecorderListener ν μ
  mutex : Option τ := none
  threads : τ → RecorderThread ν

namespace ConcurrentRecording

/-- A new recorder with the given matcher, to which each thread delivers a sequence of events. -/
def start (recorderClass : RecorderClass ν μ) (matcher : μ) (queues : τ → List (Event ν))
    : ConcurrentRecording τ ν μ where
  recorder := { recorderClass := recorderClass, matcher := matcher }
  threads := fun thread => { pending := queues thread }

/-- Whether all threads have delivered all their events. -/
def Finished (state : ConcurrentRecording τ ν μ) : Prop :=
  ∀ thread, (state.threads thread).pending = [] ∧ (state.threads thread).frame = .outside

variable [DecidableEq τ]

/-- The state in which a thread has moved on to another place. -/
def moveTo (thread : τ) (frame : RecorderFrame ν) (state : ConcurrentRecording τ ν μ)
    : ConcurrentRecording τ ν μ :=
  {
    state with
    threads :=
      Function.update state.threads thread { state.threads thread with frame := frame }
  }

/-- A step of a thread. It is impossible if the thread has no event left, and while it waits for
the mutex. The report shows what the thread has recorded.
-/
def step (thread : τ) (state : ConcurrentRecording τ ν μ)
    : Option (ConcurrentRecording τ ν μ × List (τ × Event ν)) :=
  match (state.threads thread).frame with
  | .outside =>
      match (state.threads thread).pending with
      | [] => none
      | event :: rest =>
          let (matched, recorder) := state.recorder.test event
          let frame := if matched then RecorderFrame.matched event else .outside
          some (
            {
              state with
              recorder := recorder
              threads :=
                Function.update state.threads thread { pending := rest, frame := frame }
            },
            []
          )
  | .matched event =>
      if state.mutex.isNone then
        some ({ state with mutex := some thread }.moveTo thread (.locked event), [])
      else
        none
  | .locked event =>
      some (state.moveTo thread (.appending event state.recorder.recordedEvents), [])
  | .appending event contents =>
      let recorder := { state.recorder with recordedEvents := contents ++ [event] }
      some ({ state with recorder := recorder }.moveTo thread .appended, [(thread, event)])
  | .appended => some ({ state with mutex := none }.moveTo thread .outside, [])

/-- A schedule names the thread that makes each step. -/
def run : List τ → ConcurrentRecording τ ν μ
    → Option (ConcurrentRecording τ ν μ × List (τ × Event ν)) :=
  runSteps step

/-- A thread that steps tests its next event, locks the mutex, reads the container, writes it, or
unlocks the mutex.
-/
theorem step_cases {thread : τ} {state next : ConcurrentRecording τ ν μ}
    {report : List (τ × Event ν)} (stepped : state.step thread = some (next, report))
    : (∃ event rest,
        state.threads thread = { pending := event :: rest, frame := .outside }
        ∧ next
          = {
            state with
            recorder := (state.recorder.test event).2
            threads :=
              Function.update state.threads thread
                {
                  pending := rest
                  frame := if (state.recorder.test event).1 then .matched event else .outside
                }
          }
        ∧ report = [])
      ∨ (∃ event,
        (state.threads thread).frame = .matched event
        ∧ state.mutex = none
        ∧ next = { state with mutex := some thread }.moveTo thread (.locked event)
        ∧ report = [])
      ∨ (∃ event,
        (state.threads thread).frame = .locked event
        ∧ next = state.moveTo thread (.appending event state.recorder.recordedEvents)
        ∧ report = [])
      ∨ (∃ event contents,
        (state.threads thread).frame = .appending event contents
        ∧ next
          = {
              state with
              recorder := { state.recorder with recordedEvents := contents ++ [event] }
            }.moveTo thread .appended
        ∧ report = [(thread, event)])
      ∨ (state.threads thread).frame = .appended
        ∧ next = { state with mutex := none }.moveTo thread .outside
        ∧ report = [] := by
  unfold step at stepped
  cases known : (state.threads thread).frame with
  | outside =>
      simp only [known] at stepped
      cases waiting : (state.threads thread).pending with
      | nil => simp [waiting] at stepped
      | cons event rest =>
          simp only [waiting, Option.some.injEq, Prod.mk.injEq] at stepped
          obtain ⟨rfl, rfl⟩ := stepped
          refine .inl ⟨event, rest, ?_, rfl, rfl⟩
          rw [← known, ← waiting]
  | matched event =>
      simp only [known, Option.isNone_iff_eq_none] at stepped
      split at stepped
      · obtain ⟨rfl, rfl⟩ := Prod.mk.inj (Option.some.inj stepped)
        exact .inr (.inl ⟨event, rfl, ‹_›, rfl, rfl⟩)
      · cases stepped
  | locked event =>
      simp only [known, Option.some.injEq, Prod.mk.injEq] at stepped
      obtain ⟨rfl, rfl⟩ := stepped
      exact .inr (.inr (.inl ⟨event, rfl, rfl, rfl⟩))
  | appending event contents =>
      simp only [known, Option.some.injEq, Prod.mk.injEq] at stepped
      obtain ⟨rfl, rfl⟩ := stepped
      exact .inr (.inr (.inr (.inl ⟨event, contents, rfl, rfl, rfl⟩)))
  | appended =>
      simp only [known, Option.some.injEq, Prod.mk.injEq] at stepped
      obtain ⟨rfl, rfl⟩ := stepped
      exact .inr (.inr (.inr (.inr ⟨rfl, rfl, rfl⟩)))

end ConcurrentRecording

/-- The test of an event leaves what has been recorded as it is. -/
@[simp] theorem RecorderListener.test_recordedEvents (event : Event ν)
    (recorder : RecorderListener ν μ)
    : (recorder.test event).2.recordedEvents = recorder.recordedEvents := by
  unfold RecorderListener.test
  split <;> rfl

/-- The test leaves a recorder whose matcher has no state as it is. -/
theorem RecorderListener.test_eq {event : Event ν} {recorder : RecorderListener ν μ}
    (stateless
      : ∀ event current, (recorder.recorderClass.matcher.step event current).2 = current)
    : recorder.test event
      = (recorder.recorderClass.accepts recorder.matcher event, recorder) := by
  unfold RecorderListener.test RecorderClass.accepts
  cases typeListContains event.type recorder.recorderClass.eventTypes with
  | false => rfl
  | true =>
      have kept
          : recorder.recorderClass.matcher.step event recorder.matcher
            = ((recorder.recorderClass.matcher.step event recorder.matcher).1, recorder.matcher) :=
        Prod.ext rfl (stateless event recorder.matcher)
      rw [if_pos rfl, kept]
      rfl

/-- The call of a recorder tests the event and records it. -/
theorem RecorderListener.call_eq_test (event : Event ν) (recorder : RecorderListener ν μ)
    : recorder.call event
      = if (recorder.test event).1 then
          { (recorder.test event).2 with recordedEvents := recorder.recordedEvents ++ [event] }
        else
          (recorder.test event).2 := by
  unfold RecorderListener.call RecorderListener.test
  split
  · obtain ⟨⟨matched, next⟩, stepped⟩
        : ∃ result, recorder.recorderClass.matcher.step event recorder.matcher = result :=
      ⟨_, rfl⟩
    rw [stepped]
    cases matched <;> rfl
  · rfl

section

variable {state next : ConcurrentRecording τ ν μ} {thread : τ}
variable {report : List (τ × Event ν)}

/-- A thread is inside the critical section exactly if it holds the mutex, and what it has read is
what the container holds.
-/
structure RecorderFrame.Fits (thread : τ) (mutex : Option τ) (recordedEvents : List (Event ν))
    (frame : RecorderFrame ν)
    : Prop where
  holds : frame.critical = true ↔ mutex = some thread
  read : ∀ event contents, frame = .appending event contents → contents = recordedEvents

section

variable {mutex : Option τ} {recordedEvents : List (Event ν)} {frame : RecorderFrame ν}

/-- Outside the critical section a thread fits as long as it does not hold the mutex. -/
theorem RecorderFrame.Fits.of_outside (outside : frame.critical = false)
    (unheld : mutex ≠ some thread)
    : frame.Fits thread mutex recordedEvents where
  holds := by simp [outside, unheld]
  read := by
    rintro event contents rfl
    cases outside

/-- Inside the critical section it fits if it holds the mutex and has read what is recorded. -/
theorem RecorderFrame.Fits.of_inside (inside : frame.critical = true) (held : mutex = some thread)
    (read : ∀ event contents, frame = .appending event contents → contents = recordedEvents)
    : frame.Fits thread mutex recordedEvents where
  holds := by simp [inside, held]
  read := read

end

namespace ConcurrentRecording

/-- All threads fit, so that at most one is inside the critical section. -/
def Exclusive (state : ConcurrentRecording τ ν μ) : Prop :=
  ∀ thread,
    (state.threads thread).frame.Fits thread state.mutex state.recorder.recordedEvents

/-- While a thread is inside the critical section, no other is. -/
theorem Exclusive.alone (exclusive : state.Exclusive)
    (inside : (state.threads thread).frame.critical = true) {other : τ} (apart : other ≠ thread)
    : (state.threads other).frame.critical = false ∧ state.mutex ≠ some other := by
  have held := (exclusive thread).holds.mp inside
  have unheld : state.mutex ≠ some other := by
    rw [held]
    exact fun same => apart (Option.some.inj same).symm
  rw [← Bool.not_eq_true, (exclusive other).holds]
  exact ⟨unheld, unheld⟩

/-- Without a thread inside the critical section the mutex is free. -/
theorem Exclusive.free (exclusive : state.Exclusive)
    (outside : ∀ thread, (state.threads thread).frame.critical = false)
    : state.mutex = none := by
  rw [Option.eq_none_iff_forall_ne_some]
  intro thread held
  have inside := (exclusive thread).holds.mpr held
  rw [outside thread] at inside
  cases inside

/-- The critical section stays exclusive if the thread that has moved fits and the others do. -/
theorem Exclusive.of_update [DecidableEq τ] {moved : RecorderThread ν}
    (threads : next.threads = Function.update state.threads thread moved)
    (here : moved.frame.Fits thread next.mutex next.recorder.recordedEvents)
    (others
      : ∀ other,
          other ≠ thread
          → (state.threads other).frame.Fits other next.mutex next.recorder.recordedEvents)
    : next.Exclusive := by
  intro other
  rw [threads]
  by_cases same : other = thread
  · subst same
    rwa [Function.update_self]
  · rw [Function.update_of_ne same]
    exact others other same

/-- Each step keeps the critical section exclusive, by cases on the step. -/
theorem Exclusive.step [DecidableEq τ] (exclusive : state.Exclusive)
    (stepped : state.step thread = some (next, report))
    : next.Exclusive := by
  rcases step_cases stepped with
    ⟨event, rest, known, rfl, -⟩ | ⟨event, known, free, rfl, -⟩ | ⟨event, known, rfl, -⟩
      | ⟨event, contents, known, rfl, -⟩ | ⟨known, rfl, -⟩
  · have unheld : state.mutex ≠ some thread := by
      refine (exclusive thread).holds.not.mp ?_
      rw [known]
      exact Bool.false_ne_true
    refine .of_update rfl (.of_outside ?_ unheld) fun other _ => ?_
    · cases (state.recorder.test event).1 <;> rfl
    · simpa using exclusive other
  · refine .of_update rfl (.of_inside rfl rfl fun _ _ appending => nomatch appending) ?_
    intro other apart
    have outside : (state.threads other).frame.critical = false := by
      rw [← Bool.not_eq_true, (exclusive other).holds, free]
      exact nofun
    exact .of_outside outside fun same => apart (Option.some.inj same).symm
  · have held := (exclusive thread).holds.mp (by rw [known]; rfl)
    refine .of_update rfl (.of_inside rfl held ?_) fun other _ => exclusive other
    rintro _ _ ⟨⟩
    rfl
  · have inside : (state.threads thread).frame.critical = true := by rw [known]; rfl
    have held := (exclusive thread).holds.mp inside
    refine .of_update rfl (.of_inside rfl held fun _ _ appending => nomatch appending) ?_
    intro other apart
    obtain ⟨outside, unheld⟩ := exclusive.alone inside apart
    exact .of_outside outside unheld
  · have inside : (state.threads thread).frame.critical = true := by rw [known]; rfl
    refine .of_update rfl (.of_outside rfl nofun) ?_
    intro other apart
    exact .of_outside (exclusive.alone inside apart).1 nofun

/-- Nothing is lost: what has been recorded interleaves sequences of the threads, each of which
continues with what its thread has still to record.
-/
structure Accounted [DecidableEq τ] (recorderClass : RecorderClass ν μ) (matcher : μ)
    (queues : τ → List (Event ν)) (state : ConcurrentRecording τ ν μ)
    : Prop where
  sameClass : state.recorder.recorderClass = recorderClass
  sameMatcher : state.recorder.matcher = matcher
  recorded
    : ∃ sequences,
        Interleaves sequences state.recorder.recordedEvents
        ∧ ∀ thread,
            sequences thread
              ++ (state.threads thread).unrecorded (recorderClass.accepts matcher)
            = (queues thread).filter (recorderClass.accepts matcher)

variable [DecidableEq τ] {recorderClass : RecorderClass ν μ} {matcher : μ}
variable {queues : τ → List (Event ν)}

/-- Nothing is recorded at the start. -/
theorem Accounted.start
    : (ConcurrentRecording.start recorderClass matcher queues).Accounted recorderClass matcher
        queues where
  sameClass := rfl
  sameMatcher := rfl
  recorded := ⟨_, interleaves_nil, fun _ => rfl⟩

/-- Nothing is lost when a thread moves on with the same events before it. -/
theorem Accounted.of_update {moved : RecorderThread ν}
    (accounted : state.Accounted recorderClass matcher queues)
    (recorder : next.recorder = state.recorder)
    (threads : next.threads = Function.update state.threads thread moved)
    (same
      : moved.unrecorded (recorderClass.accepts matcher)
        = (state.threads thread).unrecorded (recorderClass.accepts matcher))
    : next.Accounted recorderClass matcher queues := by
  obtain ⟨sequences, interleaves, shares⟩ := accounted.recorded
  rw [← recorder] at interleaves
  refine ⟨recorder ▸ accounted.sameClass, recorder ▸ accounted.sameMatcher, sequences,
    interleaves, ?_⟩
  intro other
  rw [threads, ← shares other]
  by_cases here : other = thread
  · subst here
    rw [Function.update_self, same]
  · rw [Function.update_of_ne here]

/-- Nothing is lost when a thread records the event that it has accepted. -/
theorem Accounted.record {event : Event ν}
    (accounted : state.Accounted recorderClass matcher queues)
    (recorder
      : next.recorder
        = {
          state.recorder with
          recordedEvents := state.recorder.recordedEvents ++ [event]
        })
    (threads
      : next.threads
        = Function.update state.threads thread
            { state.threads thread with frame := .appended })
    (accepted : (state.threads thread).frame.accepted = [event])
    : next.Accounted recorderClass matcher queues := by
  obtain ⟨sequences, interleaves, shares⟩ := accounted.recorded
  refine ⟨?_, ?_, Function.update sequences thread (sequences thread ++ [event]), ?_, ?_⟩
  · rw [recorder]
    exact accounted.sameClass
  · rw [recorder]
    exact accounted.sameMatcher
  · rw [recorder]
    exact interleaves.concat thread event
  intro other
  rw [threads, ← shares other]
  by_cases here : other = thread
  · subst here
    rw [Function.update_self, Function.update_self, RecorderThread.unrecorded,
      RecorderThread.unrecorded, accepted, List.append_assoc]
    rfl
  · rw [Function.update_of_ne here, Function.update_of_ne here]

/-- Each step loses nothing, by cases on the step. -/
theorem Accounted.step (accounted : state.Accounted recorderClass matcher queues)
    (exclusive : state.Exclusive)
    (stateless : ∀ event current, (recorderClass.matcher.step event current).2 = current)
    (stepped : state.step thread = some (next, report))
    : next.Accounted recorderClass matcher queues := by
  rcases step_cases stepped with
    ⟨event, rest, known, rfl, -⟩ | ⟨event, known, free, rfl, -⟩ | ⟨event, known, rfl, -⟩
      | ⟨event, contents, known, rfl, -⟩ | ⟨known, rfl, -⟩
  · have tested
        : state.recorder.test event = (recorderClass.accepts matcher event, state.recorder) := by
      rw [← accounted.sameClass, ← accounted.sameMatcher]
      exact RecorderListener.test_eq (accounted.sameClass ▸ stateless)
    rw [tested]
    refine accounted.of_update rfl rfl ?_
    rw [RecorderThread.unrecorded, RecorderThread.unrecorded, known, List.filter_cons]
    cases recorderClass.accepts matcher event <;> rfl
  · refine accounted.of_update rfl rfl ?_
    rw [RecorderThread.unrecorded, RecorderThread.unrecorded, known]
    rfl
  · refine accounted.of_update rfl rfl ?_
    rw [RecorderThread.unrecorded, RecorderThread.unrecorded, known]
    rfl
  · obtain rfl := (exclusive thread).read event contents known
    refine accounted.record rfl rfl ?_
    rw [known]
    rfl
  · refine accounted.of_update rfl rfl ?_
    rw [RecorderThread.unrecorded, RecorderThread.unrecorded, known]
    rfl

/-- In each state of a run the critical section is exclusive and nothing is lost, by induction on
the run.
-/
theorem run_invariants {schedule : List τ} {final : ConcurrentRecording τ ν μ}
    (stateless : ∀ event current, (recorderClass.matcher.step event current).2 = current)
    (ran : run schedule (start recorderClass matcher queues) = some (final, report))
    : final.Exclusive ∧ final.Accounted recorderClass matcher queues := by
  have kept
      : ∀ {thread state next report},
          Exclusive state ∧ Accounted recorderClass matcher queues state
          → step thread state = some (next, report)
          → next.Exclusive ∧ next.Accounted recorderClass matcher queues := by
    rintro thread state next report ⟨exclusive, accounted⟩ stepped
    exact ⟨exclusive.step stepped, accounted.step exclusive stateless stepped⟩
  have outside : (start recorderClass matcher queues).Exclusive := by
    intro thread
    refine .of_outside rfl ?_
    rintro ⟨⟩
  exact runSteps_preserves kept ⟨outside, .start⟩ ran

/-- Some thread can step unless all threads are done: one inside the critical section can, and
if there is none then the mutex is free.
-/
theorem Exclusive.progress (exclusive : state.Exclusive) (unfinished : ¬state.Finished)
    : ∃ thread next report, state.step thread = some (next, report) := by
  by_cases inside : ∃ thread, (state.threads thread).frame.critical = true
  · obtain ⟨thread, critical⟩ := inside
    refine ⟨thread, ?_⟩
    unfold ConcurrentRecording.step
    cases known : (state.threads thread).frame <;> simp_all [RecorderFrame.critical]
  · have outside : ∀ thread, (state.threads thread).frame.critical = false := by
      simpa using inside
    have free := exclusive.free outside
    obtain ⟨thread, undone⟩ := not_forall.mp unfinished
    refine ⟨thread, ?_⟩
    have noncritical := outside thread
    unfold ConcurrentRecording.step
    cases known : (state.threads thread).frame with
    | outside =>
        cases waiting : (state.threads thread).pending with
        | nil => exact absurd ⟨waiting, known⟩ undone
        | cons event rest => simp
    | matched event => simp [free]
    | locked event => simp [known, RecorderFrame.critical] at noncritical
    | appending event contents => simp [known, RecorderFrame.critical] at noncritical
    | appended => simp [known, RecorderFrame.critical] at noncritical

/-- A thread that is not interrupted calls the recorder. -/
theorem run_replicate_call {event : Event ν} {rest : List (Event ν)}
    (waiting : state.threads thread = { pending := event :: rest }) (free : state.mutex = none)
    : ∃ steps report,
        run (List.replicate steps thread) state
          = some (
            {
              state with
              recorder := state.recorder.call event
              threads := Function.update state.threads thread { pending := rest }
            },
            report
          ) := by
  obtain ⟨recorder, mutex, threads⟩ := state
  obtain rfl : mutex = none := free
  rw [RecorderListener.call_eq_test]
  cases matched : (recorder.test event).1 with
  | false =>
      refine ⟨1, [], ?_⟩
      simp only at waiting
      simp [run, runSteps, step, waiting, matched]
  | true =>
      refine ⟨5, [(thread, event)], ?_⟩
      simp only at waiting
      simp [run, List.replicate, runSteps, step, moveTo, waiting, matched]

end ConcurrentRecording

/-- Concurrent recording loses nothing: when all threads are done, the recorded events interleave
the accepted ones of each thread. Each is recorded once, no other event is, and the events of a
thread keep their order.
-/
theorem concurrentRecording_interleaves [DecidableEq τ] {recorderClass : RecorderClass ν μ}
    {matcher : μ} {queues : τ → List (Event ν)} {schedule : List τ}
    {final : ConcurrentRecording τ ν μ} {report : List (τ × Event ν)}
    (stateless : ∀ event current, (recorderClass.matcher.step event current).2 = current)
    (ran
      : ConcurrentRecording.run schedule (.start recorderClass matcher queues)
        = some (final, report))
    (finished : final.Finished)
    : Interleaves (fun thread => (queues thread).filter (recorderClass.accepts matcher))
          final.recorder.recordedEvents
      ∧ (∀ event ∈ final.recorder.recordedEvents, recorderClass.accepts matcher event = true)
      ∧ ∀ thread,
          ((queues thread).filter (recorderClass.accepts matcher)).Sublist
            final.recorder.recordedEvents := by
  obtain ⟨sequences, interleaves, shares⟩ :=
    (ConcurrentRecording.run_invariants stateless ran).2.recorded
  have complete
      : sequences = fun thread => (queues thread).filter (recorderClass.accepts matcher) := by
    funext thread
    obtain ⟨delivered, outside⟩ := finished thread
    rw [← shares thread, RecorderThread.unrecorded, delivered, outside]
    simp [RecorderFrame.accepted]
  rw [complete] at interleaves
  refine ⟨interleaves, ?_, interleaves.sublist⟩
  intro event recorded
  obtain ⟨thread, accepted⟩ := interleaves.exists_of_mem recorded
  exact (List.mem_filter.mp accepted).2

end

/-- Recorders of region events that accept the push events. -/
private def pushes : RecorderClass Unit Unit where
  name := "Pushes"
  eventTypes := [.kokkos .pushRegionEvent, .kokkos .popRegionEvent]
  distinct := by decide
  matcher :=
    { start := (), step := fun event _ => (event.type == .kokkos .pushRegionEvent, ()) }

/-- Two threads, the first of which delivers two events. -/
private def regions : Bool → List (Event Unit)
  | false => [.kokkos (.pushRegionEvent "first"), .kokkos .popRegionEvent]
  | true => [.kokkos (.pushRegionEvent "second")]

/-- The first thread is suspended after its event has been accepted, until the second thread has
recorded its own.
-/
theorem concurrentRecording_interleaves_suspended
    : ∃ (final : ConcurrentRecording Bool Unit Unit) (report : List (Bool × Event Unit)),
        ConcurrentRecording.run
            [false, true, true, true, true, true, false, false, false, false, false]
            (.start pushes () regions)
          = some (final, report)
        ∧ final.recorder.recordedEvents
          = [.kokkos (.pushRegionEvent "second"), .kokkos (.pushRegionEvent "first")]
        ∧ Interleaves (fun thread => (regions thread).filter (pushes.accepts ()))
            final.recorder.recordedEvents := by
  have ran
      : ConcurrentRecording.run
            [false, true, true, true, true, true, false, false, false, false, false]
            (.start pushes () regions)
          = some (_, _) := rfl
  have finished := concurrentRecording_interleaves (fun _ _ => rfl) ran fun thread => by
    cases thread <;> exact ⟨rfl, rfl⟩
  exact ⟨_, _, ran, rfl, finished.1⟩

end KokkosUtils.Callbacks
