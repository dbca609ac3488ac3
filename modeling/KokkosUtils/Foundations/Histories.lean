import Mathlib.Data.List.Find
import Mathlib.Data.List.Induction
import KokkosUtils.Foundations.PartialRuns

/-! Positions of a stream that depend on the inputs before them, the latest input of a kind, the
inputs of a stream that a machine accepts, and invariants of a run that relate its state and
its report to the inputs so far.
-/

namespace KokkosUtils.Foundations

variable {σ ι ω : Type*}

/-- A list with an entry for each position of a stream grows by the entry of one more input, if
that input changes none before it.
-/
theorem map_range_concat {entries earlier : ℕ → ω} {history : List ι} {input : ι} {last : ω}
    (same : ∀ position < history.length, entries position = earlier position)
    (there : entries history.length = last)
    : (List.range (history ++ [input]).length).map entries
      = (List.range history.length).map earlier ++ [last] := by
  have unchanged
      : (List.range history.length).map entries = (List.range history.length).map earlier :=
    List.map_congr_left fun position member => same position (List.mem_range.mp member)
  rw [List.length_append, List.length_singleton, List.range_succ, List.map_append,
    List.map_singleton, unchanged, there]

/-- The first position of a stream at which something happens, given the inputs before it. -/
def firstWhen (happens : List ι → ι → Bool) (inputs : List ι) : Option ℕ :=
  (List.range inputs.length).find?
    (fun position => inputs[position]?.any (happens (inputs.take position)))

section

variable {happens : List ι → ι → Bool}

@[simp] theorem firstWhen_nil : firstWhen happens [] = none := rfl

/-- One more input moves the first position only if nothing happened before. -/
theorem firstWhen_concat (history : List ι) (input : ι)
    : firstWhen happens (history ++ [input])
      = (firstWhen happens history).or
          (if happens history input then some history.length else none) := by
  have earlier
      : ∀ position ∈ List.range history.length,
          (history ++ [input])[position]?.any (happens ((history ++ [input]).take position))
          = history[position]?.any (happens (history.take position)) := by
    intro position member
    have bound : position < history.length := List.mem_range.mp member
    rw [List.getElem?_append_left bound, List.take_append_of_le_length (Nat.le_of_lt bound)]
  unfold firstWhen
  rw [List.length_append, List.length_singleton, List.range_succ, List.find?_append,
    List.find?_congr earlier]
  congr 1
  simp [List.find?_cons]
  cases happens history input <;> rfl

theorem firstWhen_lt {inputs : List ι} {position : ℕ}
    (found : firstWhen happens inputs = some position)
    : position < inputs.length :=
  List.mem_range.mp (List.mem_of_find?_eq_some found)

/-- The last position of a stream is the first one only if nothing happened before. -/
theorem firstWhen_concat_eq_length (history : List ι) (input : ι)
    : firstWhen happens (history ++ [input]) = some history.length
      ↔ firstWhen happens history = none ∧ happens history input = true := by
  rw [firstWhen_concat]
  cases found : firstWhen happens history with
  | none => simp
  | some position =>
      have bound := firstWhen_lt found
      simp only [Option.some_or, Option.some.injEq, reduceCtorEq, false_and, iff_false]
      exact Nat.ne_of_lt bound

/-- What is the first position of a stream is the first position of the prefixes beyond it,
by induction on the rest of the stream from its end.
-/
theorem firstWhen_earlier {history inputs : List ι} (earlier : history <+: inputs) (position : ℕ)
    : firstWhen happens history = some position
      ↔ firstWhen happens inputs = some position ∧ position < history.length := by
  obtain ⟨rest, rfl⟩ := earlier
  induction rest using List.reverseRecOn with
  | nil =>
      rw [List.append_nil]
      exact ⟨fun found => ⟨found, firstWhen_lt found⟩, fun found => found.1⟩
  | append_singleton rest input ih =>
      rw [← List.append_assoc, firstWhen_concat, ih]
      cases found : firstWhen happens (history ++ rest) with
      | some first => simp
      | none =>
          have beyond : ¬ (history ++ rest).length < history.length := by simp
          constructor
          · rintro ⟨absurd, -⟩
            cases absurd
          · rintro ⟨here, bound⟩
            split at here
            · cases here
              exact (beyond bound).elim
            · cases here

/-- The first position of a stream is the last one of its first part up to there. -/
theorem exists_of_firstWhen {inputs : List ι} {position : ℕ}
    (found : firstWhen happens inputs = some position)
    : ∃ history input,
        history ++ [input] <+: inputs
        ∧ history.length = position
        ∧ firstWhen happens (history ++ [input]) = some history.length := by
  have bound := firstWhen_lt found
  have extended : inputs.take position ++ [inputs[position]] <+: inputs := by
    rw [List.take_append_getElem]
    exact List.take_prefix ..
  have length : (inputs.take position).length = position :=
    List.length_take_of_le (Nat.le_of_lt bound)
  refine ⟨_, _, extended, length, (firstWhen_earlier extended _).mpr ?_⟩
  rw [length, List.length_append, length]
  exact ⟨found, Nat.lt_succ_self position⟩

/-- The first input at which something happens, given the inputs before it. -/
def firstInput (happens : List ι → ι → Bool) (inputs : List ι) : Option ι :=
  (firstWhen happens inputs).bind (fun position => inputs[position]?)

theorem firstInput_concat (history : List ι) (input : ι)
    : firstInput happens (history ++ [input])
      = (firstInput happens history).or (if happens history input then some input else none) := by
  unfold firstInput
  rw [firstWhen_concat]
  cases found : firstWhen happens history with
  | none => cases happens history input <;> simp
  | some position =>
      have bound := firstWhen_lt found
      simp [List.getElem?_append_left bound, bound]

/-- There is a first input exactly when there is a first position. -/
theorem isSome_firstInput (inputs : List ι)
    : (firstInput happens inputs).isSome = (firstWhen happens inputs).isSome := by
  unfold firstInput
  cases found : firstWhen happens inputs with
  | none => rfl
  | some position => simp [firstWhen_lt found]

/-- `findIdx?` is the first position of what ignores the inputs before it. -/
theorem findIdx?_eq_firstWhen (holds : ι → Bool) (inputs : List ι)
    : inputs.findIdx? holds = firstWhen (fun _ input => holds input) inputs := by
  induction inputs using List.reverseRecOn with
  | nil => rfl
  | append_singleton history input ih =>
      rw [firstWhen_concat, List.findIdx?_append, ih, List.findIdx?_singleton]
      congr 1
      split <;> simp

end

section

variable {κ : Type*} {pick : ι → Option κ}

/-- What the latest input of a stream that shows something shows. -/
def latest (pick : ι → Option κ) (history : List ι) : Option κ :=
  history.reverse.findSome? pick

@[simp] theorem latest_nil : latest pick [] = none := rfl

theorem latest_append (history later : List ι)
    : latest pick (history ++ later) = (latest pick later).or (latest pick history) := by
  simp [latest, List.findSome?_append]

@[simp] theorem latest_concat (history : List ι) (input : ι)
    : latest pick (history ++ [input]) = (pick input).or (latest pick history) := by
  rw [latest_append]
  simp [latest]

theorem latest_eq_none {history : List ι}
    : latest pick history = none ↔ ∀ input ∈ history, pick input = none := by
  simp [latest]

/-- What is shown is shown by some input. -/
theorem exists_of_latest {history : List ι} {value : κ} (shown : latest pick history = some value)
    : ∃ input ∈ history, pick input = some value := by
  obtain ⟨input, member, picked⟩ := List.exists_of_findSome?_eq_some shown
  exact ⟨input, List.mem_reverse.mp member, picked⟩

end

/-- An acceptor with its initial state. A step gives the verdict on an input and moves on to
the next state.
-/
structure Acceptor (ι μ : Type*) where
  start : μ
  step : ι → μ → Bool × μ

namespace Acceptor

variable {ι μ : Type*} (acceptor : Acceptor ι μ)

/-- The inputs of a list that are accepted when the machine runs over the list. -/
def accepted : List ι → μ → List ι
  | [], _ => []
  | input :: rest, state =>
      let (verdict, next) := acceptor.step input state
      if verdict then input :: accepted rest next else accepted rest next

@[simp] theorem accepted_nil (state : μ) : acceptor.accepted [] state = [] := rfl

/-- The state in which a list of inputs leaves the machine. -/
def after (history : List ι) : μ :=
  history.foldl (fun state input => (acceptor.step input state).2) acceptor.start

/-- The verdict on an input after a list of inputs. -/
def verdict (history : List ι) (input : ι) : Bool :=
  (acceptor.step input (acceptor.after history)).1

@[simp] theorem after_nil : acceptor.after [] = acceptor.start := rfl

@[simp] theorem after_concat (history : List ι) (input : ι)
    : acceptor.after (history ++ [input]) = (acceptor.step input (acceptor.after history)).2 := by
  simp [after]

/-- A machine goes on after a list of inputs as one that starts in the state reached. -/
theorem verdict_append (history later : List ι) (input : ι)
    : acceptor.verdict (history ++ later) input
      = { acceptor with start := acceptor.after history : Acceptor ι μ }.verdict later input := by
  simp [verdict, after]

end Acceptor

/-- An invariant that relates the state and the report of a run to its inputs so far: when
each step along the stream is defined and keeps it, the run is defined and ends in it.
-/
theorem runSteps_history {step : ι → σ → Option (σ × List ω)}
    {holds : List ι → σ → List ω → Prop} {inputs : List ι} {state : σ}
    (start : holds [] state [])
    (kept
      : ∀ {history input middle report},
          history ++ [input] <+: inputs
          → holds history middle report
          → ∃ next shown,
              step input middle = some (next, shown)
              ∧ holds (history ++ [input]) next (report ++ shown))
    : ∃ final report, runSteps step inputs state = some (final, report) ∧ holds inputs final report
    := by
  induction inputs using List.reverseRecOn with
  | nil => exact ⟨state, [], rfl, start⟩
  | append_singleton history input ih =>
      obtain ⟨middle, report, ran, soFar⟩ :=
        ih (fun extended => kept (extended.trans (List.prefix_append ..)))
      obtain ⟨next, shown, stepped, reached⟩ := kept List.prefix_rfl soFar
      exact ⟨next, report ++ shown, runSteps_concat ran stepped, reached⟩

end KokkosUtils.Foundations
