import KokkosUtils.Callbacks.Invariants

/-! Unregistration by pointer with any number of registrations of the callable object.
With one or more it removes the oldest; with none it reads and erases the end of the list of
listeners, although the registry would only have to be left as it is.
-/

namespace KokkosUtils.Callbacks

open KokkosUtils.Foundations

variable {ν σ : Type} {callees : Callees ν σ} {tools : CallbackSlot → Option FunctionPointer}

/-- The Manager serves exactly these listeners, in this order: its per-type lists and Kokkos' slots
follow them, and Kokkos calls and dispatched events are delivered to them.
-/
structure World.Serves (callees : Callees ν σ) (tools : CallbackSlot → Option FunctionPointer)
    (world : World σ) (listeners : List ListenerModel)
    : Prop where
  registered
    : ∃ manager,
        world.singleton = some manager
        ∧ manager.listeners = listeners
        ∧ ∀ type,
            manager.registeredCallbacks type
            = (listeners.filter (fun model => model.handles (.kokkos type))).map
                (fun model => some model.address)
  callbacks
    : ∀ type,
        world.callbacks (callbackMember type)
        = if (listeners.filter (fun model => model.handles (.kokkos type))).isEmpty then
            toolCallbacks tools (callbackMember type)
          else
            some (.dispatching type)
  kokkosCalls
    : ∀ call next report,
        kokkosCall callees call world = some (next, report)
        → ∃ out,
            invocations report
            = (listeners.filter (fun model => model.handles (.kokkos call.type))).map
                (fun model => (model, .kokkos (call.leave out).event))
  dispatches
    : ∀ event,
        ∃ next report,
          Manager.dispatch callees event world = some (next, report)
          ∧ invocations report
            = (listeners.filter (fun model => model.handles event.type)).map
                (fun model => (model, event))

/-- A consistent world with a Manager serves the listeners that are registered. -/
theorem World.Consistent.serves {world : World σ} (consistent : world.Consistent tools)
    (callees : Callees ν σ) (initialized : world.singleton.isSome = true)
    : world.Serves callees tools world.listeners := by
  obtain ⟨manager, active⟩ := Option.isSome_iff_exists.mp initialized
  refine ⟨⟨manager, active, (World.listeners_eq active).symm,
    consistent.registeredCallbacks_eq active⟩, consistent.callbacks_eq, ?_, ?_⟩
  · intro call next report performed
    obtain ⟨out, invoked, -⟩ := consistent.kokkosCall_report callees performed
    exact ⟨out, invoked⟩
  · intro event
    have dispatched
        : Manager.dispatch callees event world
          = some (notifyAll callees event
              (world.listeners.filter (fun model => model.handles event.type)) world) := by
      rw [Manager.dispatch, active, Option.map_some, Manager.dispatchToListeners_eq,
        World.listeners_eq active]
    exact ⟨_, _, dispatched, notifyAll_invocations callees event _ world⟩

/-- Unregistration by pointer is all or nothing: it is defined, and if models hold the pointer
then it removes the first one, and all other listeners are served on; otherwise it leaves the
registry as it is.
-/
def UnregistersAllOrNothing (callees : Callees ν σ)
    (tools : CallbackSlot → Option FunctionPointer) (callable : Listener) (pointer : Pointer)
    (world : World σ)
    : Prop :=
  ∃ next report,
    perform callees (.unregisterByPointer callable pointer) world = some (next, report)
    ∧ ((∃ before model after,
          world.listeners = before ++ model :: after
          ∧ model.holds callable pointer = true
          ∧ (∀ earlier ∈ before, earlier.holds callable pointer = false)
          ∧ report = [.unregistered model.address]
          ∧ next.Serves callees tools (before ++ after))
      ∨ ((∀ model ∈ world.listeners, model.holds callable pointer = false)
        ∧ next.registry = world.registry))

/-- The oldest registration is removed if there is one. -/
theorem World.Consistent.unregistersAllOrNothing {world : World σ}
    (consistent : world.Consistent tools) {callable : Listener} {pointer : Pointer}
    {held : ListenerModel} (member : held ∈ world.listeners)
    (holds : held.holds callable pointer = true)
    : UnregistersAllOrNothing callees tools callable pointer world := by
  cases found : world.listeners.find? (fun model => model.holds callable pointer) with
  | none => exact absurd holds (List.find?_eq_none.mp found held member)
  | some model =>
      obtain ⟨next, report, performed, -⟩ :=
        consistent.unregisterListenerByPointer_defined (ν := ν) found
      obtain ⟨same, foundAgain, reported, relisted⟩ :=
        consistent.unregisterListenerByPointer performed
      obtain rfl := Option.some.inj (found.symm.trans foundAgain)
      have erased := eraseP_of_find? consistent.addresses found
      obtain ⟨first, before, after, split, passed⟩ :=
        List.find?_eq_some_iff_append.mp found
      have passedOver : ∀ earlier ∈ before, earlier.holds callable pointer = false := by
        simpa using passed
      have remaining : next.listeners = before ++ after := by
        rw [relisted.listeners_eq, ← erased, split,
          List.eraseP_append_right _ (by simpa using passedOver), List.eraseP_cons, first,
          cond_true]
      have serves := relisted.consistent.serves callees relisted.initialized
      rw [remaining] at serves
      exact ⟨next, report, performed, .inl
        ⟨before, model, after, split, first, passedOver, reported, serves⟩⟩

/-- Unregistration by pointer is all or nothing exactly for a pointer that some model registered
under the callable type holds. Without one it is undefined.
-/
theorem Reachable.unregistersAllOrNothing_iff {world : World σ}
    (reachable : Reachable callees tools world) (callable : Listener) (pointer : Pointer)
    : UnregistersAllOrNothing callees tools callable pointer world
      ↔ ∃ model ∈ world.listeners, model.holds callable pointer = true := by
  constructor
  · rintro ⟨next, report, performed, -⟩
    obtain ⟨model, found, -⟩ := reachable.consistent.unregisterListenerByPointer performed
    exact ⟨model, List.mem_of_find?_eq_some found, by simpa using List.find?_some found⟩
  · rintro ⟨model, member, holds⟩
    exact reachable.consistent.unregistersAllOrNothing member holds

/-- A listener of begin events of fences. -/
private def fences : Listener := .explicit "Fences" [.kokkos .beginFenceEvent] (by decide)

/-- An object registered twice, with another listener in between. -/
theorem unregistersAllOrNothing_iff_twice
    : ∃ world : World Unit,
        world.listeners.map ListenerModel.address = [1, 2, 3]
        ∧ UnregistersAllOrNothing (Callees.quiet : Callees Unit Unit) (fun _ => none) fences 7
            world := by
  have reachable :=
    (Reachable.start () : Reachable (Callees.quiet : Callees Unit Unit) (fun _ => none) _).of_run
      [
        .initializeSingleton,
        .registerShared fences 7 1,
        .registerObject fences 2,
        .registerShared fences 7 3
      ]
      rfl
  refine ⟨_, rfl, (reachable.unregistersAllOrNothing_iff fences 7).mpr ?_⟩
  exact ⟨.shared fences 7 1, .head _, by decide⟩

/-- The Manager is initialized, but the object has already been unregistered: the search ends at
the end of the list of listeners, which is then dereferenced and erased.
-/
theorem unregistersAllOrNothing_fails
    : ∃ (world : World Unit) (report : List (Happening Unit)),
        run Callees.quiet
            [.initializeSingleton, .registerShared fences 7 1, .unregisterByPointer fences 7]
            (World.start (fun _ => none) ())
          = some (world, report)
        ∧ world.singleton.isSome = true
        ∧ ¬UnregistersAllOrNothing (Callees.quiet : Callees Unit Unit) (fun _ => none) fences 7
            world := by
  refine ⟨_, _, rfl, rfl, ?_⟩
  rintro ⟨next, report, performed, -⟩
  cases performed

end KokkosUtils.Callbacks
