import KokkosUtils.Callbacks.Invariants

/-! The Manager is transparent for the callbacks of the context.
Whatever listeners are registered, these callbacks see the calls that they would see without
the Manager, and Kokkos sees what they leave in its out-parameters.
-/

namespace KokkosUtils.Callbacks

open KokkosUtils.Foundations

variable {ν σ θ : Type} {tools : CallbackSlot → Option FunctionPointer}

/-- The functions of a profiling tool, as deterministic functions of the tool's state. -/
abbrev Tool (θ : Type) :=
  FunctionPointer → (call : KokkosCall) → θ → θ × call.Out

/-- The callbacks of the context are functions of the tool, whose state is a part of the state
outside the Manager that no listener touches.
-/
structure Callees.Hosts (callees : Callees ν σ) (tool : Tool θ) (toolState : σ → θ) : Prop where
  context_state
    : ∀ function call world,
        toolState (callees.context function call world).1.outside
        = (tool function call (toolState world.outside)).1
  context_out
    : ∀ function call world,
        (callees.context function call world).2.1
        = (tool function call (toolState world.outside)).2
  listener_state
    : ∀ model event world,
        toolState (callees.listener model event world).1.outside = toolState world.outside

/-- What a tool and Kokkos can observe of each other: the invocation of a function of the tool
with its arguments, and the out-parameter that Kokkos reads after a call of it.
-/
inductive Observation
  | invoked (function : FunctionPointer) (call : KokkosCall)
  | returned (call : KokkosCall)
  deriving DecidableEq

/-- The invocation that an observation is, if it is one. -/
def Observation.invocation? : Observation → Option (FunctionPointer × KokkosCall)
  | .invoked function call => some (function, call)
  | .returned _ => none

/-- The observation that a report entry stands for. Kokkos calls whose slot was empty in the
context are not observed, nor is what happens inside a callback.
-/
def Happening.observed? (tools : CallbackSlot → Option FunctionPointer)
    : Happening ν → Option Observation
  | .context function call => some (.invoked function call)
  | .returned call => if (tools call.slot).isSome then some (.returned call) else none
  | _ => none

/-- A Kokkos call as the tool alone sees it, without a Manager. -/
def bareCall (tools : CallbackSlot → Option FunctionPointer) (tool : Tool θ) (call : KokkosCall)
    (state : θ)
    : θ × List Observation :=
  match tools call.slot with
  | none => (state, [])
  | some function =>
      let (next, out) := tool function call state
      (next, [.invoked function call, .returned (call.leave out)])

/-- An operation as the tool alone sees it: only Kokkos calls concern it. -/
def bareOperation (tools : CallbackSlot → Option FunctionPointer) (tool : Tool θ)
    : Operation ν → θ → θ × List Observation :=
  stepSelected Operation.kokkosCall? (bareCall tools tool)

variable {callees : Callees ν σ} {tool : Tool θ} {toolState : σ → θ}

/-- Notification leaves the tool alone, since each listener does. -/
theorem Callees.Hosts.notifyAll_state (hosts : callees.Hosts tool toolState) (event : Event ν)
    (models : List ListenerModel) (world : World σ)
    : toolState (notifyAll callees event models world).1.outside = toolState world.outside := by
  induction models generalizing world with
  | nil => rfl
  | cons model rest ih => exact (ih _).trans (hosts.listener_state model event world)

/-- The Manager interposes transparently in a Kokkos call, by cases on whether the context has
a callback for it.
-/
theorem Callees.Hosts.kokkosCall (hosts : callees.Hosts tool toolState) {call : KokkosCall}
    {world next : World σ} {report : List (Happening ν)} (consistent : world.Consistent tools)
    (performed : kokkosCall callees call world = some (next, report))
    : toolState next.outside = (bareCall tools tool call (toolState world.outside)).1
      ∧ report.filterMap (Happening.observed? tools)
        = (bareCall tools tool call (toolState world.outside)).2 := by
  have blind : ∀ (event : Event ν) models (current : World σ),
      (notifyAll callees event models current).2.filterMap (Happening.observed? tools) = [] :=
    fun event models current =>
      notifyAll_filterMap callees event _ (fun _ _ => rfl) (fun _ => rfl) models current
  cases context : tools call.slot with
  | some function =>
      rw [consistent.kokkosCall_eq_of_context callees context] at performed
      obtain ⟨rfl, rfl⟩ := Prod.mk.inj (Option.some.inj performed)
      rw [hosts.notifyAll_state]
      simp only [bareCall, context]
      constructor
      · exact hosts.context_state function call world
      · rw [List.filterMap_append, List.filterMap_append, blind, List.append_nil,
          callContext_filterMap callees _ (fun _ => rfl), callContext_out, hosts.context_out]
        simp [Happening.observed?, context]
  | none =>
      simp only [bareCall, context]
      cases installed : world.callbacks call.slot with
      | none =>
          rw [Callbacks.kokkosCall, installed] at performed
          obtain ⟨rfl, rfl⟩ := Prod.mk.inj (Option.some.inj performed)
          simp [Happening.observed?, context]
      | some callback =>
          obtain ⟨manager, -, called⟩ :=
            consistent.kokkosCall_eq_of_no_context callees context installed
          rw [called] at performed
          obtain ⟨rfl, rfl⟩ := Prod.mk.inj (Option.some.inj performed)
          rw [hosts.notifyAll_state, List.filterMap_append, blind]
          simp [Happening.observed?, context]

/-- The Manager interposes transparently in each operation: those that are not Kokkos calls
leave the tool alone and show it nothing.
-/
theorem Callees.Hosts.perform (hosts : callees.Hosts tool toolState) {operation : Operation ν}
    {world next : World σ} {report : List (Happening ν)} (consistent : world.Consistent tools)
    (performed : perform callees operation world = some (next, report))
    : toolState next.outside = (bareOperation tools tool operation (toolState world.outside)).1
      ∧ report.filterMap (Happening.observed? tools)
        = (bareOperation tools tool operation (toolState world.outside)).2 := by
  rcases consistent.perform_cases performed with
    ⟨call, rfl, called⟩ | ⟨event, notified, rfl, equal, rfl⟩ | ⟨other, outside, bookkeeping⟩
  · exact hosts.kokkosCall consistent called
  · obtain ⟨rfl, rfl⟩ := Prod.mk.inj equal
    refine ⟨hosts.notifyAll_state _ _ _, ?_⟩
    exact notifyAll_filterMap callees event (Happening.observed? tools) (fun _ _ => rfl)
      (fun _ => rfl) _ world
  · have hidden : report.filterMap (Happening.observed? tools) = [] := by
      apply List.filterMap_eq_nil_iff.mpr
      intro happening member
      have kind := bookkeeping happening member
      cases happening <;> first | rfl | cases kind
    simp only [bareOperation, stepSelected, other]
    exact ⟨congrArg toolState outside, hidden⟩

/-- A whole run shows the tool and Kokkos exactly what the tool alone would show for the same
Kokkos calls, by simulation of the run by the bare tool.
-/
theorem Callees.Hosts.run (hosts : callees.Hosts tool toolState)
    {operations : List (Operation ν)} {world final : World σ} {report : List (Happening ν)}
    (consistent : world.Consistent tools)
    (ran : run callees operations world = some (final, report))
    : let bare :=
        foldSteps (bareCall tools tool) (operations.filterMap Operation.kokkosCall?)
          (toolState world.outside)
      toolState final.outside = bare.1
      ∧ report.filterMap (Happening.observed? tools) = bare.2 := by
  have simulated := runSteps_refines
    (fun (current : World σ) state =>
      current.Consistent tools ∧ toolState current.outside = state)
    (Happening.observed? tools) (bareOperation tools tool)
    (by
      rintro operation current next shown _ ⟨kept, rfl⟩ performed
      obtain ⟨state, observed⟩ := hosts.perform kept performed
      exact ⟨⟨kept.of_perform performed, state⟩, observed⟩)
    ⟨consistent, rfl⟩ ran
  rw [bareOperation, foldSteps_stepSelected] at simulated
  exact ⟨simulated.1.2, simulated.2⟩

/-- The tool alone is invoked once for each call of a function that it has set, in order and
with the arguments of the call.
-/
theorem bareCall_invoked (calls : List KokkosCall) (state : θ)
    : (foldSteps (bareCall tools tool) calls state).2.filterMap Observation.invocation?
      = calls.filterMap (fun call => (tools call.slot).map (fun function => (function, call))) := by
  induction calls generalizing state with
  | nil => rfl
  | cons call rest ih =>
      rw [foldSteps, List.filterMap_append, ih]
      cases context : tools call.slot <;> simp [bareCall, context, Observation.invocation?]

/-- The two runs of a pair with the same Kokkos calls are indistinguishable for the callbacks of
the context and for Kokkos: these callbacks are invoked in the same order with the same
arguments, once for each call of their event types, and leave the same out-parameters.
Witness: both runs refine the run of the bare tool.
-/
theorem Reachable.interposition_transparent {ν' σ' : Type} {left : Callees ν σ}
    {right : Callees ν' σ'} {leftState : σ → θ} {rightState : σ' → θ}
    (leftHosts : left.Hosts tool leftState) (rightHosts : right.Hosts tool rightState)
    {leftWorld leftFinal : World σ} {rightWorld rightFinal : World σ'}
    (leftReachable : Reachable left tools leftWorld)
    (rightReachable : Reachable right tools rightWorld)
    (sameState : leftState leftWorld.outside = rightState rightWorld.outside)
    {leftOperations : List (Operation ν)} {rightOperations : List (Operation ν')}
    (sameCalls
      : leftOperations.filterMap Operation.kokkosCall?
        = rightOperations.filterMap Operation.kokkosCall?)
    {leftReport : List (Happening ν)} {rightReport : List (Happening ν')}
    (leftRan : run left leftOperations leftWorld = some (leftFinal, leftReport))
    (rightRan : run right rightOperations rightWorld = some (rightFinal, rightReport))
    : leftReport.filterMap (Happening.observed? tools)
        = rightReport.filterMap (Happening.observed? tools)
      ∧ (leftReport.filterMap (Happening.observed? tools)).filterMap Observation.invocation?
        = (leftOperations.filterMap Operation.kokkosCall?).filterMap
            (fun call => (tools call.slot).map (fun function => (function, call)))
      ∧ leftState leftFinal.outside = rightState rightFinal.outside := by
  obtain ⟨leftEnd, leftShown⟩ := leftHosts.run leftReachable.consistent leftRan
  obtain ⟨rightEnd, rightShown⟩ := rightHosts.run rightReachable.consistent rightRan
  rw [← sameState, ← sameCalls] at rightEnd rightShown
  refine ⟨leftShown.trans rightShown.symm, ?_, leftEnd.trans rightEnd.symm⟩
  rw [leftShown]
  exact bareCall_invoked _ _

/-- Callbacks of the context that are functions of a tool, beside listeners that do nothing. -/
def Tool.alone (tool : Tool θ) : Callees ν θ :=
  {
    Callees.quiet with
    context := fun function call world =>
      let (next, out) := tool function call world.outside
      ({ world with outside := next }, out, [])
    context_registry := fun _ _ _ => rfl
  }

theorem Tool.alone_hosts (tool : Tool θ) : (Tool.alone tool : Callees ν θ).Hosts tool id where
  context_state := fun _ _ _ => rfl
  context_out := fun _ _ _ => rfl
  listener_state := fun _ _ _ => rfl

/-- A tool that numbers the begin events, in multiples of ten. -/
private def numbering : Tool UInt64 := fun _ call count =>
  match call with
  | .beginEvent .. => (count + 1, 10 * count)
  | other => (count, other.out)

/-- Two kernels, the first of which runs while a listener is registered. -/
private def listened : List (Operation Unit) :=
  [
    .initializeSingleton,
    .registerObject (.explicit "Kernels" [.kokkos .beginParallelForEvent] (by decide)) 1,
    .kokkosCall (.beginEvent .parallelFor "axpy" 0 0),
    .unregisterByHandle 1,
    .kokkosCall (.beginEvent .parallelFor "scal" 0 0)
  ]

/-- The same kernels without a Manager. -/
private def unlistened : List (Operation Unit) :=
  [
    .kokkosCall (.beginEvent .parallelFor "axpy" 0 0),
    .kokkosCall (.beginEvent .parallelFor "scal" 0 0)
  ]

/-- The tool sees the same calls with and without the listener. -/
theorem interposition_transparent_numbering
    : ∃ (leftFinal rightFinal : World UInt64) (leftReport rightReport : List (Happening Unit)),
        run (Tool.alone numbering) listened (.start (fun _ => some 5) 3)
          = some (leftFinal, leftReport)
        ∧ run (Tool.alone numbering) unlistened (.start (fun _ => some 5) 3)
          = some (rightFinal, rightReport)
        ∧ leftReport.filterMap (Happening.observed? (fun _ => some 5))
          = rightReport.filterMap (Happening.observed? (fun _ => some 5)) := by
  have hosts := Tool.alone_hosts (ν := Unit) numbering
  have leftRan
      : run (Tool.alone numbering) listened (.start (fun _ => some 5) 3) = some (_, _) := rfl
  have rightRan
      : run (Tool.alone numbering) unlistened (.start (fun _ => some 5) 3) = some (_, _) := rfl
  have sameCalls : listened.filterMap Operation.kokkosCall?
      = unlistened.filterMap Operation.kokkosCall? := rfl
  have transparent :=
    Reachable.interposition_transparent hosts hosts (.start 3) (.start 3) rfl sameCalls leftRan
      rightRan
  exact ⟨_, _, _, _, leftRan, rightRan, transparent.1⟩

end KokkosUtils.Callbacks
