import KokkosUtils.Foundations.Nesting

/-! Machines that can be reset at any point of their run.
A trace of such a machine is a stream with resets in it; nothing in a trace is forgotten, so
positions and brackets are those of the whole trace.
-/

namespace KokkosUtils.Foundations

variable {ι σ ω : Type*}

/-- An input of a machine, or its reset. -/
inductive Resettable (ι : Type*)
  | input (value : ι)
  | reset

/-- A reset opens and closes nothing. -/
def Resettable.bracket (kind : ι → Option Bracket) : Resettable ι → Option Bracket
  | .input value => kind value
  | .reset => none

/-- The step of a machine that can be reset; a reset reports `silent`. -/
def stepOrReset (step : ι → σ → Option (σ × List ω)) (reset : σ → σ) (silent : ω)
    : Resettable ι → σ → Option (σ × List ω)
  | .input value, state => step value state
  | .reset, state => some (reset state, [silent])

/-- A stream without resets is received as such. -/
theorem runSteps_stepOrReset_map_input {step : ι → σ → Option (σ × List ω)} {reset : σ → σ}
    {silent : ω} (inputs : List ι) (state : σ)
    : runSteps (stepOrReset step reset silent) (inputs.map .input) state
      = runSteps step inputs state := by
  induction inputs generalizing state with
  | nil => rfl
  | cons input rest ih =>
      simp only [List.map_cons, runSteps, stepOrReset, ih]

/-- The effect of the input at a position on the first position since the latest reset. -/
def sinceStep (holds : ι → Bool) (found : Option ℕ) (entry : Resettable ι × ℕ) : Option ℕ :=
  match entry.1 with
  | .input value => found.or (if holds value then some entry.2 else none)
  | .reset => none

/-- The position of the first input since the latest reset that has a property. -/
def firstSinceReset (holds : ι → Bool) (trace : List (Resettable ι)) : Option ℕ :=
  trace.zipIdx.foldl (sinceStep holds) none

variable {holds : ι → Bool}

@[simp] theorem firstSinceReset_nil : firstSinceReset holds [] = none := rfl

@[simp] theorem firstSinceReset_concat_reset (history : List (Resettable ι))
    : firstSinceReset holds (history ++ [.reset]) = none := by
  simp [firstSinceReset, List.zipIdx_append, sinceStep]

@[simp] theorem firstSinceReset_concat_input (history : List (Resettable ι)) (value : ι)
    : firstSinceReset holds (history ++ [.input value])
      = (firstSinceReset holds history).or
          (if holds value then some history.length else none) := by
  simp [firstSinceReset, List.zipIdx_append, sinceStep]

/-- A reset strikes a bracket that is the first one of interest since the latest reset and that
is still open.
-/
def Strikes (kind : ι → Option Bracket) (interesting : ι → Bool) (history : List (Resettable ι))
    (position : ℕ)
    : Prop :=
  firstSinceReset (fun value => kind value == some .opening && interesting value) history
    = some position
  ∧ closingOf (Resettable.bracket kind) position history = none

/-- No reset of a trace strikes. -/
def Unstruck (kind : ι → Option Bracket) (interesting : ι → Bool) (trace : List (Resettable ι))
    : Prop :=
  ∀ history position, history ++ [.reset] <+: trace → ¬ Strikes kind interesting history position

/-- The bracket that the first reset of a trace that strikes one strikes. -/
def FirstStruck (kind : ι → Option Bracket) (interesting : ι → Bool)
    (trace : List (Resettable ι)) (position : ℕ)
    : Prop :=
  ∃ history,
    history ++ [.reset] <+: trace
    ∧ Strikes kind interesting history position
    ∧ Unstruck kind interesting history

variable {kind : ι → Option Bracket} {interesting : ι → Bool} {history trace : List (Resettable ι)}

theorem unstruck_nil : Unstruck kind interesting [] := by
  intro history position extended
  simp at extended

/-- An input that is no reset strikes nothing. -/
theorem Unstruck.concat_input (unstruck : Unstruck kind interesting history) (value : ι)
    : Unstruck kind interesting (history ++ [.input value]) := by
  intro before position extended
  rcases List.prefix_concat_iff.mp extended with same | earlier
  · cases (List.append_inj' same rfl).2
  · exact unstruck before position earlier

/-- A reset that strikes nothing leaves a trace unstruck. -/
theorem Unstruck.concat_reset (unstruck : Unstruck kind interesting history)
    (misses : ∀ position, ¬ Strikes kind interesting history position)
    : Unstruck kind interesting (history ++ [.reset]) := by
  intro before position extended
  rcases List.prefix_concat_iff.mp extended with same | earlier
  · rw [(List.append_inj' same rfl).1]
    exact misses position
  · exact unstruck before position earlier

theorem FirstStruck.of_earlier {position : ℕ}
    (struck : FirstStruck kind interesting history position)
    (earlier : history <+: trace)
    : FirstStruck kind interesting trace position := by
  obtain ⟨before, extended, strikes, unstruck⟩ := struck
  exact ⟨before, extended.trans earlier, strikes, unstruck⟩

/-- A trace that nothing strikes has no first bracket that is struck. -/
theorem FirstStruck.not_unstruck {position : ℕ}
    (struck : FirstStruck kind interesting trace position)
    : ¬ Unstruck kind interesting trace := by
  obtain ⟨before, extended, strikes, -⟩ := struck
  exact fun unstruck => unstruck before position extended strikes

/-- There is one first bracket that is struck: of two, the earlier reset would strike before the
later one.
-/
theorem FirstStruck.unique {first other : ℕ}
    (struck : FirstStruck kind interesting trace first)
    (otherStruck : FirstStruck kind interesting trace other)
    : first = other := by
  obtain ⟨before, extended, strikes, unstruck⟩ := struck
  obtain ⟨after, otherExtended, otherStrikes, otherUnstruck⟩ := otherStruck
  have ordered {left right : List (Resettable ι)} (leftExtended : left ++ [.reset] <+: trace)
      (rightExtended : right ++ [.reset] <+: trace) (shorter : left.length < right.length)
      : left ++ [.reset] <+: right := by
    refine List.prefix_of_prefix_length_le leftExtended
      ((List.prefix_append ..).trans rightExtended) ?_
    rw [List.length_append, List.length_singleton]
    exact shorter
  rcases Nat.lt_trichotomy before.length after.length with shorter | same | longer
  · exact (otherUnstruck before first (ordered extended otherExtended shorter) strikes).elim
  · have together : before ++ [.reset] = after ++ [.reset] :=
      (List.prefix_of_prefix_length_le extended otherExtended (by simp [same])).eq_of_length
        (by simp [same])
    rw [List.append_cancel_right together] at strikes
    exact Option.some.inj (strikes.1.symm.trans otherStrikes.1)
  · exact (unstruck after other (ordered otherExtended extended longer) otherStrikes).elim

/-- The first bracket that is struck has been struck when it closes. -/
theorem FirstStruck.before_closing {position closing : ℕ}
    (struck : FirstStruck kind interesting trace position)
    (closes : closingOf (Resettable.bracket kind) position trace = some closing)
    : ∃ history input,
        history ++ [input] <+: trace
        ∧ FirstStruck kind interesting history position
        ∧ closingOf (Resettable.bracket kind) position history = none
        ∧ closingOf (Resettable.bracket kind) position (history ++ [input])
          = some history.length := by
  obtain ⟨history, input, extended, rfl, closesHere⟩ := exists_of_firstWhen closes
  obtain ⟨before, struckAt, strikes, unstruck⟩ := struck
  have earlier : history <+: trace := (List.prefix_append ..).trans extended
  have notClosed {shorter : List (Resettable ι)} (inside : shorter <+: trace)
      (bound : shorter.length ≤ history.length)
      : closingOf (Resettable.bracket kind) position shorter = none := by
    rw [Option.eq_none_iff_forall_ne_some]
    intro other closed
    obtain ⟨same, within⟩ := (closingOf_earlier inside position other).mp closed
    cases Option.some.inj (closes.symm.trans same)
    exact Nat.not_lt.mpr bound within
  refine ⟨history, input, extended, ?_, notClosed earlier (Nat.le_refl _), closesHere⟩
  refine ⟨before, List.prefix_of_prefix_length_le struckAt earlier ?_, strikes, unstruck⟩
  have open? : closingOf (Resettable.bracket kind) position (before ++ [.reset]) = none :=
    closingOf_concat_eq_none strikes.2 fun closing => nomatch closing
  by_contra early
  have closed :=
    (closingOf_earlier struckAt position history.length).mpr ⟨closes, Nat.not_le.mp early⟩
  cases open?.symm.trans closed

end KokkosUtils.Foundations
