import KokkosUtils.Callbacks.Invariants

/-! What listeners see of Kokkos calls and of dispatched events in all runs.
The per-type lists used for Kokkos calls and the scan used by the public dispatch reach the
same listeners.
-/

namespace KokkosUtils.Callbacks

variable {ν σ : Type} {callees : Callees ν σ}
variable {tools : CallbackSlot → Option FunctionPointer}

/-- Each Kokkos call made through an installed callback invokes exactly the registered
listeners of its event type, each once and in registration order, with one event made of the
arguments of the call. The id in that event is what the callback of the context left, or the
next id of the Manager if the context has none, and Kokkos' out-parameter holds it afterwards.
Witness: the answer to the call and the notification of the listeners after it.
-/
theorem Reachable.kokkosCall_delivers {world : World σ}
    (reachable : Reachable callees tools world) (call : KokkosCall) {callback : Callback}
    (installed : world.callbacks call.slot = some callback)
    : ∃ out answered first final report,
        kokkosCall callees call world
          = some (final, first ++ report ++ [.returned (call.leave out)])
        ∧ (final, report)
          = notifyAll callees (.kokkos (call.leave out).event)
              (world.listeners.filter (fun model => .kokkos call.type ∈ model.eventTypes))
              answered
        ∧ invocations (first ++ report ++ [.returned (call.leave out)])
          = (world.listeners.filter (fun model => .kokkos call.type ∈ model.eventTypes)).map
              (fun model => (model, .kokkos (call.leave out).event))
        ∧ (world.listeners.map ListenerModel.address).Nodup
        ∧ (∀ function,
            tools call.slot = some function
            → (answered, out, first) = callees.callContext function call world)
        ∧ (tools call.slot = none
            → ∃ manager,
                world.singleton = some manager
                ∧ out = manager.nextOut call
                ∧ answered = { world with singleton := some (manager.afterNextOut call) }
                ∧ first = []) := by
  have consistent := reachable.consistent
  simp only [← ListenerModel.handles_eq_decide]
  cases context : tools call.slot with
  | some function =>
      refine ⟨_, _, _, _, _, consistent.kokkosCall_eq_of_context callees context, rfl, ?_,
        consistent.addresses, ?_, ?_⟩
      · rw [invocations_append, invocations_append, notifyAll_invocations, invocations,
          callContext_filterMap callees _ (fun _ => rfl)]
        simp [invocations, Happening.invocation?]
      · rintro _ ⟨⟩
        rfl
      · intro absent
        cases absent
  | none =>
      obtain ⟨manager, active, called⟩ :=
        consistent.kokkosCall_eq_of_no_context callees context installed
      refine ⟨_, _, [], _, _, called, rfl, ?_, consistent.addresses, ?_, ?_⟩
      · rw [invocations_append, invocations_append, notifyAll_invocations]
        simp [invocations, Happening.invocation?]
      · intro _ present
        cases present
      · intro _
        exact ⟨manager, active, rfl, rfl, rfl⟩

/-- Two listeners of the begin of parallel loops see the first event id of the Manager. -/
theorem kokkosCall_delivers_begin
    : ∃ (world final : World Unit) (report : List (Happening Unit)),
        Reachable (Callees.quiet : Callees Unit Unit) (fun _ => none) world
        ∧ kokkosCall Callees.quiet (.beginEvent .parallelFor "axpy" 0 7) world
          = some (final, report ++ [.returned (.beginEvent .parallelFor "axpy" 0 0)])
        ∧ (invocations (report ++ [.returned (.beginEvent .parallelFor "axpy" 0 0)])).map
            (fun entry => entry.1.address)
          = [1, 2] := by
  have distinct : [EventType.kokkos .beginParallelForEvent].Nodup := by decide
  have reachable :=
    (Reachable.start () : Reachable (Callees.quiet : Callees Unit Unit) (fun _ => none) _).of_run
      [
        .initializeSingleton,
        .registerObject (.explicit "Kernels" _ distinct) 1,
        .registerShared (.explicit "Kernels" _ distinct) 7 2
      ]
      rfl
  obtain ⟨_, _, first, final, report, called, -, invoked, -, -, numbered⟩ :=
    reachable.kokkosCall_delivers (.beginEvent .parallelFor "axpy" 0 7) rfl
  obtain ⟨_, ⟨⟩, rfl, -, -⟩ := numbered rfl
  have addresses := congrArg (List.map (fun entry => entry.1.address)) invoked
  exact ⟨_, final, first ++ report, reachable, called, addresses⟩

/-- The public dispatch of a Kokkos event does exactly what the dispatch to the registered
callbacks of its type does, and the public dispatch of a custom event reaches exactly the
listeners whose `event_type_list_t` names its type, in registration order.
-/
theorem Reachable.dispatch_paths_agree {world : World σ} {manager : Manager}
    (reachable : Reachable callees tools world) (active : world.singleton = some manager)
    : (∀ event : KokkosEvent,
        Manager.dispatch callees (.kokkos event) world
          = Manager.dispatchRegisteredCallbacks callees event world
        ∧ ∃ final report,
            Manager.dispatch callees (.kokkos event) world = some (final, report)
            ∧ invocations report
              = (manager.listeners.filter
                  (fun model => .kokkos event.type ∈ model.eventTypes)).map
                  (fun model => (model, .kokkos event)))
      ∧ ∀ name value,
          ∃ final report,
            Manager.dispatch callees (.custom name value) world = some (final, report)
            ∧ invocations report
              = (manager.listeners.filter
                  (fun model =>
                    model.type.eventTypeListAlias.any (fun types => .custom name ∈ types))).map
                  (fun model => (model, .custom name value)) := by
  have consistent := reachable.consistent
  have scanned : ∀ event, Manager.dispatch callees event world
      = some
          (notifyAll callees event
            (manager.listeners.filter (fun model => model.handles event.type)) world) := by
    intro event
    rw [Manager.dispatch, active, Option.map_some, Manager.dispatchToListeners_eq]
  constructor
  · intro event
    constructor
    · rw [scanned, consistent.dispatchRegisteredCallbacks_eq callees active,
        World.listeners_eq active, Event.type_kokkos]
    · refine ⟨_, _, scanned _, ?_⟩
      rw [notifyAll_invocations]
      simp only [ListenerModel.handles_eq_decide, Event.type_kokkos]
  · intro name value
    refine ⟨_, _, scanned _, ?_⟩
    rw [notifyAll_invocations]
    congr 1
    apply List.filter_congr
    intro model _
    rw [Bool.eq_iff_iff, ListenerModel.handles_eq_true, Event.type_custom,
      ListenerModel.eventTypes, CallableType.custom_mem_listenerEventTypeList]
    cases model.type.eventTypeListAlias <;> simp

/-- A listener of Kokkos events only, one of custom events only and one of both. -/
theorem dispatch_paths_agree_mixture
    : ∃ (world : World Unit) (final : World Unit) (report : List (Happening Unit)),
        Reachable (Callees.quiet : Callees Unit Unit) (fun _ => none) world
        ∧ Manager.dispatch Callees.quiet (.custom "Progress" ()) world = some (final, report)
        ∧ (invocations report).map (fun entry => entry.1.address) = [2, 3] := by
  have kokkosOnly : [EventType.kokkos .profileEvent].Nodup := by decide
  have customOnly : [EventType.custom "Progress"].Nodup := by decide
  have mixed : [EventType.custom "Progress", .kokkos .profileEvent].Nodup := by decide
  have reachable :=
    (Reachable.start () : Reachable (Callees.quiet : Callees Unit Unit) (fun _ => none) _).of_run
      [
        .initializeSingleton,
        .registerObject (.explicit "KokkosOnly" _ kokkosOnly) 1,
        .registerObject (.explicit "CustomOnly" _ customOnly) 2,
        .registerObject (.explicit "Mixed" _ mixed) 3
      ]
      rfl
  obtain ⟨final, report, dispatched, invoked⟩ :=
    (reachable.dispatch_paths_agree rfl).2 "Progress" ()
  have addresses := congrArg (List.map (fun entry => entry.1.address)) invoked
  exact ⟨_, final, report, reachable, dispatched, addresses⟩

end KokkosUtils.Callbacks
