import KokkosUtils.Foundations.PartialRuns

/-! Runs that have to end.
If each step uses up some work and a state with work left allows for a step, then runs are no longer
than the work at their start, and each can be continued until it is done.
-/

namespace KokkosUtils.Foundations

variable {σ ι ω : Type*} {step : ι → σ → Option (σ × List ω)} {invariant done : σ → Prop}
  {work : σ → ℕ}

/-- Runs take no more steps than there is work, by induction on the inputs. -/
theorem runSteps_length_le
    (kept
      : ∀ {input state next report},
          invariant state
          → step input state = some (next, report)
          → invariant next ∧ work next < work state)
    {inputs : List ι} {state final : σ} {report : List ω} (start : invariant state)
    (ran : runSteps step inputs state = some (final, report))
    : inputs.length + work final ≤ work state := by
  induction inputs generalizing state report with
  | nil =>
      obtain ⟨rfl, -⟩ := Prod.mk.inj (Option.some.inj ran)
      simp
  | cons input rest ih =>
      obtain ⟨next, first, later, stepped, remaining, -⟩ := runSteps_cons_eq_some.mp ran
      obtain ⟨holds, less⟩ := kept start stepped
      have bounded := ih holds remaining
      rw [List.length_cons]
      omega

/-- Runs can be continued until all is done, by induction on the work. -/
theorem runSteps_completes
    (kept
      : ∀ {input state next report},
          invariant state
          → step input state = some (next, report)
          → invariant next ∧ work next < work state)
    (progress
      : ∀ {state},
          invariant state
          → ¬ done state
          → ∃ input next report, step input state = some (next, report))
    {state : σ} (start : invariant state)
    : ∃ inputs final report, runSteps step inputs state = some (final, report) ∧ done final := by
  by_cases finished : done state
  · exact ⟨[], state, [], rfl, finished⟩
  · obtain ⟨input, next, first, stepped⟩ := progress start finished
    obtain ⟨holds, less⟩ := kept start stepped
    obtain ⟨inputs, final, later, ran, ended⟩ := runSteps_completes kept progress holds
    exact ⟨input :: inputs, final, first ++ later,
      runSteps_cons_eq_some.mpr ⟨next, first, later, stepped, ran, rfl⟩, ended⟩
  termination_by work state

end KokkosUtils.Foundations
