import Mathlib.Data.List.FinRange
import KokkosUtils.Callbacks.Matchers
import KokkosUtils.Foundations.Histories
import KokkosUtils.Foundations.ShortCircuit

/-! ConjunctionMatcher of any number of matchers with any states.
It is a cascade: each matcher sees the events that all matchers before it accepted, and behaves
as it does alone on these.
-/

namespace KokkosUtils.Callbacks

open KokkosUtils.Foundations

variable {ε : Type} {n : ℕ} {MatcherTypes : Fin n → Type}

/-- `ConjunctionMatcher`, for events of any type. A matcher is its initial state and its call
operator.
-/
structure VariadicConjunctionMatcher (ε : Type) {n : ℕ} (MatcherTypes : Fin n → Type) where
  several : 1 < n
  matchers : (index : Fin n) → Acceptor ε (MatcherTypes index)

/-- A call of a conjunction: its event, the calls it made of its matchers, in order and with their
verdicts, and its result.
-/
structure ConjunctionCall (ε : Type) (n : ℕ) where
  event : ε
  evaluations : List (Fin n × Bool)
  result : Bool

namespace ConjunctionCall

/-- The events for which a matcher was called, once for each call. -/
def evaluatedOn (index : Fin n) (calls : List (ConjunctionCall ε n)) : List ε :=
  calls.flatMap fun call =>
    (call.evaluations.filter (fun evaluation => evaluation.1 == index)).map fun _ => call.event

/-- The events for which all matchers before one returned true. -/
def passedBefore (index : Fin n) (calls : List (ConjunctionCall ε n)) : List ε :=
  (calls.filter (fun call => ∀ earlier < index, (earlier, true) ∈ call.evaluations)).map event

/-- The events for which a matcher returned true. -/
def acceptedBy (index : Fin n) (calls : List (ConjunctionCall ε n)) : List ε :=
  (calls.filter (fun call => (index, true) ∈ call.evaluations)).map event

@[simp] theorem evaluatedOn_cons (index : Fin n) (call : ConjunctionCall ε n)
    (calls : List (ConjunctionCall ε n))
    : evaluatedOn index (call :: calls)
      = (call.evaluations.filter (fun evaluation => evaluation.1 == index)).map
            (fun _ => call.event)
        ++ evaluatedOn index calls := rfl

@[simp] theorem passedBefore_cons (index : Fin n) (call : ConjunctionCall ε n)
    (calls : List (ConjunctionCall ε n))
    : passedBefore index (call :: calls)
      = if ∀ earlier < index, (earlier, true) ∈ call.evaluations then
          call.event :: passedBefore index calls
        else
          passedBefore index calls := by
  unfold passedBefore
  rw [List.filter_cons]
  simp only [decide_eq_true_iff]
  split <;> rfl

@[simp] theorem acceptedBy_cons (index : Fin n) (call : ConjunctionCall ε n)
    (calls : List (ConjunctionCall ε n))
    : acceptedBy index (call :: calls)
      = if (index, true) ∈ call.evaluations then call.event :: acceptedBy index calls
        else acceptedBy index calls := by
  unfold acceptedBy
  rw [List.filter_cons]
  simp only [decide_eq_true_iff]
  split <;> rfl

end ConjunctionCall

namespace VariadicConjunctionMatcher

variable (self : VariadicConjunctionMatcher ε MatcherTypes)

/-- `operator()`, the fold of the calls of all matchers by `&&`. -/
def call (event : ε) (states : (index : Fin n) → MatcherTypes index) : Conjoined MatcherTypes :=
  shortCircuit (fun index state => (self.matchers index).step event state) (List.finRange n) states

/-- A call of the conjunction and a record of it. -/
def recordedCall (event : ε) (states : (index : Fin n) → MatcherTypes index)
    : ((index : Fin n) → MatcherTypes index) × List (ConjunctionCall ε n) :=
  let called := self.call event states
  (
    called.states,
    [{ event := event, evaluations := called.evaluations, result := called.result }]
  )

/-- Calls the conjunction for each event of a stream. The result has the states of the matchers
after the stream, and a record of each call.
-/
def run (stream : List ε)
    : ((index : Fin n) → MatcherTypes index) × List (ConjunctionCall ε n) :=
  foldSteps self.recordedCall stream (fun index => (self.matchers index).start)

variable {self} {event : ε} {states : (index : Fin n) → MatcherTypes index} {index : Fin n}

/-- A call evaluates a matcher exactly when all matchers before it returned true, and then once;
other calls leave its state as it is.
-/
theorem call_cases (self : VariadicConjunctionMatcher ε MatcherTypes) (event : ε)
    (states : (index : Fin n) → MatcherTypes index) (index : Fin n)
    : (∀ earlier < index, (earlier, true) ∈ (self.call event states).evaluations)
        ∧ (self.call event states).evaluations.filter (fun evaluation => evaluation.1 == index)
          = [(index, ((self.matchers index).step event (states index)).1)]
        ∧ (self.call event states).states index
          = ((self.matchers index).step event (states index)).2
      ∨ ¬(∀ earlier < index, (earlier, true) ∈ (self.call event states).evaluations)
        ∧ (self.call event states).evaluations.filter (fun evaluation => evaluation.1 == index) = []
        ∧ (self.call event states).states index = states index := by
  have ascending := List.pairwise_lt_finRange n
  have listed := List.mem_finRange index
  by_cases passed : ∀ earlier < index, (earlier, true) ∈ (self.call event states).evaluations
  · refine .inl ⟨passed, shortCircuit_evaluated ascending listed states ?_⟩
    exact fun earlier _ => passed earlier
  · refine .inr ⟨passed, shortCircuit_skipped ascending listed states ?_⟩
    exact fun all => passed fun earlier => all earlier (List.mem_finRange earlier)

/-- What the record of a call shows is what the call did. -/
theorem foldSteps_recordedCall_cons (self : VariadicConjunctionMatcher ε MatcherTypes) (event : ε)
    (rest : List ε) (states : (index : Fin n) → MatcherTypes index)
    : foldSteps self.recordedCall (event :: rest) states
      = (
        (foldSteps self.recordedCall rest (self.call event states).states).1,
        {
          event := event
          evaluations := (self.call event states).evaluations
          result := (self.call event states).result
        }
          :: (foldSteps self.recordedCall rest (self.call event states).states).2
      ) := rfl

/-- Each call concerns one event of the stream, in order. -/
theorem map_event_foldSteps (self : VariadicConjunctionMatcher ε MatcherTypes) (stream : List ε)
    (states : (index : Fin n) → MatcherTypes index)
    : (foldSteps self.recordedCall stream states).2.map ConjunctionCall.event = stream := by
  induction stream generalizing states with
  | nil => rfl
  | cons event rest ih =>
      rw [foldSteps_recordedCall_cons, List.map_cons, ih]

/-- The calls of a run are calls in some state of the matchers. -/
theorem forall_mem_foldSteps (self : VariadicConjunctionMatcher ε MatcherTypes) {stream : List ε}
    {states : (index : Fin n) → MatcherTypes index} {call : ConjunctionCall ε n}
    (member : call ∈ (foldSteps self.recordedCall stream states).2)
    : ∃ states,
        call.evaluations = (self.call call.event states).evaluations
        ∧ call.result = (self.call call.event states).result := by
  induction stream generalizing states with
  | nil => cases member
  | cons event rest ih =>
      rw [foldSteps_recordedCall_cons] at member
      rcases List.mem_cons.mp member with rfl | later
      · exact ⟨states, rfl, rfl⟩
      · exact ih later

/-- From any states, a matcher acts as it does alone on the events that all matchers before it
accepted, by induction on the stream.
-/
theorem foldSteps_recordedCall (self : VariadicConjunctionMatcher ε MatcherTypes)
    (stream : List ε) (states : (index : Fin n) → MatcherTypes index) (index : Fin n)
    : let (final, calls) := foldSteps self.recordedCall stream states
      ConjunctionCall.evaluatedOn index calls = ConjunctionCall.passedBefore index calls
      ∧ final index
        = (ConjunctionCall.passedBefore index calls).foldl
            (fun state event => ((self.matchers index).step event state).2)
            (states index)
      ∧ ConjunctionCall.acceptedBy index calls
        = (self.matchers index).accepted (ConjunctionCall.passedBefore index calls)
            (states index) := by
  induction stream generalizing states with
  | nil => exact ⟨rfl, rfl, rfl⟩
  | cons event rest ih =>
      obtain ⟨evaluated, reached, accepted⟩ := ih (self.call event states).states
      have acceptedHere : (index, true) ∈ (self.call event states).evaluations
          ↔ (index, true)
            ∈ (self.call event states).evaluations.filter
                (fun evaluation => evaluation.1 == index) := by
        simp
      rw [foldSteps_recordedCall_cons]
      rcases self.call_cases event states index with
        ⟨passed, once, moved⟩ | ⟨failed, never, stayed⟩
      · rw [moved] at reached accepted
        simp only [ConjunctionCall.evaluatedOn_cons, ConjunctionCall.passedBefore_cons,
          ConjunctionCall.acceptedBy_cons, if_pos passed, once, List.foldl_cons, Acceptor.accepted]
        refine ⟨?_, reached, ?_⟩
        · rw [evaluated]
          rfl
        · have verdict : (index, true) ∈ (self.call event states).evaluations
              ↔ ((self.matchers index).step event (states index)).1 = true := by
            rw [acceptedHere, once, List.mem_singleton, Prod.mk.injEq, @eq_comm _ true]
            exact and_iff_right rfl
          simp only [verdict, accepted]
      · rw [stayed] at reached accepted
        rw [never] at acceptedHere
        simp only [ConjunctionCall.evaluatedOn_cons, ConjunctionCall.passedBefore_cons,
          ConjunctionCall.acceptedBy_cons, if_neg failed, never, acceptedHere]
        exact ⟨evaluated, reached, accepted⟩

/-- The conjunction of matchers for Kokkos events. -/
def ofMatchers [∀ index, Matcher (MatcherTypes index)] (several : 1 < n)
    (matchers : (index : Fin n) → MatcherTypes index)
    : VariadicConjunctionMatcher KokkosEvent MatcherTypes where
  several := several
  matchers := fun index => { start := matchers index, step := Matcher.call }

/-- The conjunction of two matchers is the conjunction of any number of matchers, for two. -/
theorem call_ofMatchers_pair {MatcherTypes : Fin 2 → Type} [∀ index, Matcher (MatcherTypes index)]
    (matchers states : (index : Fin 2) → MatcherTypes index) (event : KokkosEvent)
    : let called := (ofMatchers (by decide) matchers).call event states
      let pair : ConjunctionMatcher _ _ := { first := states 0, second := states 1 }
      (called.result, { first := called.states 0, second := called.states 1 })
        = ConjunctionMatcher.call event pair := by
  have range : List.finRange 2 = [0, 1] := rfl
  simp only [call, ofMatchers, range, shortCircuit, ConjunctionMatcher.call]
  cases first : (Matcher.call event (states 0)).1 with
  | false => simp
  | true => cases second : (Matcher.call event (states 1)).1 <;> simp [second]

end VariadicConjunctionMatcher

open ConjunctionCall in
/-- A conjunction is a short-circuiting cascade. On each stream, each matcher is called for the
events for which all matchers before it returned true, in order and once each; it ends in the
state that it reaches alone on these, and accepts what it accepts alone. A call evaluates the
first matchers, and returns true exactly if all matchers were evaluated and returned true.
-/
theorem variadicConjunctionMatcher_cascades (self : VariadicConjunctionMatcher ε MatcherTypes)
    (stream : List ε)
    : (self.run stream).2.map event = stream
      ∧ (∀ index,
          evaluatedOn index (self.run stream).2 = passedBefore index (self.run stream).2
          ∧ (self.run stream).1 index
            = (self.matchers index).after (passedBefore index (self.run stream).2)
          ∧ acceptedBy index (self.run stream).2
            = (self.matchers index).accepted (passedBefore index (self.run stream).2)
                (self.matchers index).start)
      ∧ ∀ call ∈ (self.run stream).2,
          call.evaluations.map Prod.fst <+: List.finRange n
          ∧ (call.result = true ↔ ∀ index, (index, true) ∈ call.evaluations) := by
  refine ⟨self.map_event_foldSteps stream _, ?_, ?_⟩
  · exact fun index => self.foldSteps_recordedCall stream _ index
  · intro call member
    obtain ⟨states, evaluations, result⟩ := self.forall_mem_foldSteps member
    rw [evaluations, result]
    refine ⟨shortCircuit_first (List.nodup_finRange n) states, ?_⟩
    refine (shortCircuit_result (List.pairwise_lt_finRange n) states).trans ?_
    exact ⟨fun all index => all index (List.mem_finRange index), fun all index _ => all index⟩

/-- Records the events passed to it, and matches one of them. -/
private def recordingMatcher (name : ℕ) : Acceptor ℕ (List ℕ) where
  start := []
  step := fun event encountered => (event == name, encountered ++ [event])

example
    : let conjunction : VariadicConjunctionMatcher ℕ (fun _ : Fin 4 => List ℕ) :=
        { several := by decide, matchers := fun index => recordingMatcher ([0, 0, 1, 2].get index) }
      (List.finRange 4).map (conjunction.run [0, 0, 1, 2]).1
        = [[0, 0, 1, 2], [0, 0], [0, 0], []] := by
  decide

end KokkosUtils.Callbacks
