import Mathlib.Data.List.Basic

/-! Runs of a partial step function that reports what happened in each step.
A step without a result stands for undefined behaviour, and a run is defined
only if each of its steps is.
-/

namespace KokkosUtils.Foundations

variable {σ ς ι ω α : Type*}

/-- Performs the inputs one after the other and concatenates their reports. -/
def runSteps (step : ι → σ → Option (σ × List ω)) : List ι → σ → Option (σ × List ω)
  | [], state => some (state, [])
  | input :: rest, state =>
      (step input state).bind fun (next, report) =>
        (runSteps step rest next).map fun (final, reports) => (final, report ++ reports)

variable {step : ι → σ → Option (σ × List ω)}

@[simp] theorem runSteps_nil (state : σ) : runSteps step [] state = some (state, []) := rfl

/-- A nonempty run is defined exactly when its first step and the remaining run are. -/
theorem runSteps_cons_eq_some {input : ι} {rest : List ι} {state final : σ} {report : List ω}
    : runSteps step (input :: rest) state = some (final, report)
      ↔ ∃ next first later,
          step input state = some (next, first)
          ∧ runSteps step rest next = some (final, later)
          ∧ report = first ++ later := by
  simp only [runSteps, Option.bind_eq_some_iff, Option.map_eq_some_iff, Prod.exists,
    Prod.mk.injEq]
  constructor
  · rintro ⟨next, first, stepped, last, later, ran, rfl, rfl⟩
    exact ⟨next, first, later, stepped, ran, rfl⟩
  · rintro ⟨next, first, later, stepped, ran, rfl⟩
    exact ⟨next, first, stepped, final, later, ran, rfl, rfl⟩

/-- A run of a concatenation splits at the boundary, by induction on the first part. -/
theorem runSteps_append_eq_some {before after : List ι} {state final : σ} {report : List ω}
    : runSteps step (before ++ after) state = some (final, report)
      ↔ ∃ middle first later,
          runSteps step before state = some (middle, first)
          ∧ runSteps step after middle = some (final, later)
          ∧ report = first ++ later := by
  induction before generalizing state report with
  | nil => simp
  | cons input rest ih =>
      simp only [List.cons_append, runSteps_cons_eq_some, ih]
      constructor
      · rintro ⟨next, first, _, stepped, ⟨middle, second, later, ran, finished, rfl⟩, rfl⟩
        exact ⟨middle, first ++ second, later, ⟨next, first, second, stepped, ran, rfl⟩,
          finished, (List.append_assoc ..).symm⟩
      · rintro ⟨middle, _, later, ⟨next, first, second, stepped, ran, rfl⟩, finished, rfl⟩
        exact ⟨next, first, second ++ later, stepped, ⟨middle, second, later, ran, finished, rfl⟩,
          List.append_assoc ..⟩

/-- A run is extended by a step from where it ends. -/
theorem runSteps_concat {history : List ι} {input : ι} {state middle next : σ}
    {report shown : List ω} (ran : runSteps step history state = some (middle, report))
    (stepped : step input middle = some (next, shown))
    : runSteps step (history ++ [input]) state = some (next, report ++ shown) := by
  refine runSteps_append_eq_some.mpr ⟨middle, report, shown, ran, ?_, rfl⟩
  exact runSteps_cons_eq_some.mpr ⟨next, shown, [], stepped, rfl, (List.append_nil _).symm⟩

/-- The inputs of a run may be given by what chooses them. -/
theorem runSteps_map {κ : Type*} (choose : κ → ι) (choices : List κ) (state : σ)
    : runSteps step (choices.map choose) state
      = runSteps (fun choice => step (choose choice)) choices state := by
  induction choices generalizing state with
  | nil => rfl
  | cons choice rest ih => simp only [List.map_cons, runSteps, ih]

/-- A property kept by each defined step on an allowed input is kept by each defined run on allowed
inputs.
-/
theorem runSteps_preserves_of_allowed {holds : σ → Prop} {allowed : ι → Prop}
    (kept
      : ∀ {input state next report},
          allowed input → holds state → step input state = some (next, report) → holds next)
    {inputs : List ι} {state final : σ} {report : List ω}
    (admitted : ∀ input ∈ inputs, allowed input) (start : holds state)
    (ran : runSteps step inputs state = some (final, report))
    : holds final := by
  induction inputs generalizing state report with
  | nil =>
      obtain ⟨rfl, -⟩ := Prod.mk.inj (Option.some.inj ran)
      exact start
  | cons input rest ih =>
      obtain ⟨next, first, later, stepped, remaining, -⟩ := runSteps_cons_eq_some.mp ran
      exact ih (fun other member => admitted other (List.mem_cons_of_mem _ member))
        (kept (admitted input List.mem_cons_self) start stepped) remaining

/-- A property kept by each defined step is kept by each defined run. -/
theorem runSteps_preserves {holds : σ → Prop}
    (kept
      : ∀ {input state next report},
          holds state → step input state = some (next, report) → holds next)
    {inputs : List ι} {state final : σ} {report : List ω}
    (start : holds state) (ran : runSteps step inputs state = some (final, report))
    : holds final := by
  have always : ∀ {input state next report},
      True → holds state → step input state = some (next, report) → holds next :=
    fun _ => kept
  exact runSteps_preserves_of_allowed always (fun _ _ => trivial) start ran

/-- Folds a total abstract step over the inputs and concatenates its reports. -/
def foldSteps (abstract : ι → ς → ς × List α) : List ι → ς → ς × List α
  | [], state => (state, [])
  | input :: rest, state =>
      let (next, report) := abstract input state
      let (final, reports) := foldSteps abstract rest next
      (final, report ++ reports)

/-- The step that does nothing on inputs from which nothing is selected. -/
def stepSelected {κ : Type*} (select : ι → Option κ) (abstract : κ → ς → ς × List α)
    (input : ι) (state : ς)
    : ς × List α :=
  match select input with
  | some selected => abstract selected state
  | none => (state, [])

/-- Folding a step that ignores some inputs is folding over what the others select. -/
theorem foldSteps_stepSelected {κ : Type*} (select : ι → Option κ)
    (abstract : κ → ς → ς × List α) (inputs : List ι) (state : ς)
    : foldSteps (stepSelected select abstract) inputs state
      = foldSteps abstract (inputs.filterMap select) state := by
  induction inputs generalizing state with
  | nil => rfl
  | cons input rest ih =>
      cases selected : select input with
      | none =>
          simp only [foldSteps, stepSelected, selected, ih, List.filterMap_cons_none selected,
            List.nil_append]
      | some chosen =>
          simp only [foldSteps, stepSelected, selected, ih, List.filterMap_cons_some selected]

/-- Refinement of runs: when each concrete step follows the abstract step under the
relation and shows the same report through `view`, so does each defined run.
-/
theorem runSteps_refines (related : σ → ς → Prop) (view : ω → Option α)
    (abstract : ι → ς → ς × List α)
    (simulates
      : ∀ {input state next report model},
          related state model
          → step input state = some (next, report)
          → related next (abstract input model).1
            ∧ report.filterMap view = (abstract input model).2)
    {inputs : List ι} {state final : σ} {report : List ω} {model : ς}
    (start : related state model) (ran : runSteps step inputs state = some (final, report))
    : related final (foldSteps abstract inputs model).1
      ∧ report.filterMap view = (foldSteps abstract inputs model).2 := by
  induction inputs generalizing state report model with
  | nil =>
      obtain ⟨rfl, rfl⟩ := Prod.mk.inj (Option.some.inj ran)
      exact ⟨start, rfl⟩
  | cons input rest ih =>
      obtain ⟨next, first, later, stepped, remaining, rfl⟩ := runSteps_cons_eq_some.mp ran
      obtain ⟨linked, shown⟩ := simulates start stepped
      obtain ⟨finished, laterShown⟩ := ih linked remaining
      refine ⟨finished, ?_⟩
      rw [List.filterMap_append, shown, laterShown]
      rfl

/-- Lock step: when each step possible in the second state is possible in the related
first state, a whole run defined from the second state is defined from the first.
-/
theorem runSteps_lockstep {stepLeft : ι → σ → Option (σ × List ω)}
    {stepRight : ι → ς → Option (ς × List α)} {related : σ → ς → Prop} {allowed : ι → Prop}
    (follows
      : ∀ {input left right next report},
          allowed input
          → related left right
          → stepRight input right = some (next, report)
          → ∃ moved shown, stepLeft input left = some (moved, shown) ∧ related moved next)
    {inputs : List ι} {left : σ} {right final : ς} {report : List α}
    (admitted : ∀ input ∈ inputs, allowed input) (start : related left right)
    (ran : runSteps stepRight inputs right = some (final, report))
    : ∃ last shown, runSteps stepLeft inputs left = some (last, shown) ∧ related last final := by
  induction inputs generalizing left right report with
  | nil =>
      obtain ⟨rfl, -⟩ := Prod.mk.inj (Option.some.inj ran)
      exact ⟨left, [], rfl, start⟩
  | cons input rest ih =>
      obtain ⟨next, first, later, stepped, remaining, -⟩ := runSteps_cons_eq_some.mp ran
      obtain ⟨moved, shown, followed, linked⟩ := follows (admitted input (by simp)) start stepped
      obtain ⟨last, others, finished, ended⟩ :=
        ih (fun other member => admitted other (List.mem_cons_of_mem _ member)) linked remaining
      exact ⟨last, shown ++ others,
        runSteps_cons_eq_some.mpr ⟨moved, shown, others, followed, finished, rfl⟩, ended⟩

end KokkosUtils.Foundations
