import KokkosUtils.Callbacks.Delivery

/-! The invariants of all runs of the Manager, through any number of incarnations.
The per-type lists follow the list of listeners, and Kokkos' callback table follows both.
-/

namespace KokkosUtils.Callbacks

variable {ν σ : Type} {callees : Callees ν σ}
variable {tools : CallbackSlot → Option FunctionPointer}

/-- Taking an event id changes no more than the counter. -/
theorem getNextEventId_kept {world next : World σ} {eventId : EventId}
    (performed : getNextEventId world = some (next, eventId))
    : next.registry = world.registry ∧ next.outside = world.outside := by
  unfold getNextEventId at performed
  split at performed
  · obtain ⟨manager, active, equal⟩ := Option.map_eq_some_iff.mp performed
    obtain ⟨rfl, -⟩ := Prod.mk.inj equal
    simp [World.registry, active, Manager.withoutIds]
  · obtain ⟨rfl, -⟩ := Prod.mk.inj (Option.some.inj performed)
    exact ⟨rfl, rfl⟩

/-- Taking a section id changes no more than the counter. -/
theorem getNextSectionId_kept {world next : World σ} {sectionId : SectionId}
    (performed : getNextSectionId world = some (next, sectionId))
    : next.registry = world.registry ∧ next.outside = world.outside := by
  obtain ⟨manager, active, equal⟩ := Option.map_eq_some_iff.mp performed
  obtain ⟨rfl, -⟩ := Prod.mk.inj equal
  simp [World.registry, active, Manager.withoutIds]

/-- What an operation reports about the Manager itself: it concerns no event. -/
def Happening.isBookkeeping : Happening ν → Bool
  | .registered _ => true
  | .unregistered _ => true
  | .finalized => true
  | .gotEventId _ => true
  | .gotSectionId _ => true
  | _ => false

/-- An operation calls Kokkos, or it dispatches an event, or it neither calls anything nor
changes anything outside Kokkos and the Manager.
-/
theorem World.Consistent.perform_cases {operation : Operation ν} {world next : World σ}
    {report : List (Happening ν)} (consistent : world.Consistent tools)
    (performed : perform callees operation world = some (next, report))
    : (∃ call,
        operation = .kokkosCall call ∧ kokkosCall callees call world = some (next, report))
      ∨ (∃ event notified,
          operation = .dispatch event
          ∧ (next, notified)
            = notifyAll callees event
                (world.listeners.filter (fun model => model.handles event.type)) world
          ∧ report = .dispatched event :: notified)
      ∨ (operation.kokkosCall? = none
        ∧ next.outside = world.outside
        ∧ ∀ happening ∈ report, happening.isBookkeeping = true) := by
  cases operation with
  | kokkosCall call => exact .inl ⟨call, rfl, performed⟩
  | dispatch event =>
      obtain ⟨⟨_, notified⟩, dispatched, equal⟩ := Option.map_eq_some_iff.mp performed
      obtain ⟨rfl, rfl⟩ := Prod.mk.inj equal
      rw [dispatch_eq, Option.some.injEq] at dispatched
      exact .inr (.inl ⟨event, notified, rfl, dispatched.symm, rfl⟩)
  | initializeSingleton =>
      obtain ⟨rfl, rfl⟩ := Prod.mk.inj (Option.some.inj performed)
      refine .inr (.inr ⟨rfl, ?_, by simp⟩)
      unfold Manager.initializeSingleton
      cases world.singleton <;> rfl
  | finalizeSingleton =>
      obtain ⟨rfl, rfl⟩ := Prod.mk.inj (Option.some.inj performed)
      refine .inr (.inr ⟨rfl, ?_, by simp [Happening.isBookkeeping]⟩)
      unfold Manager.finalizeSingleton
      cases world.singleton <;> rfl
  | registerShared callable pointer address =>
      obtain ⟨-, rfl, relisted⟩ := consistent.registerListenerImpl performed
      exact .inr (.inr ⟨rfl, relisted.outside_eq, by simp [Happening.isBookkeeping]⟩)
  | registerObject callable address =>
      obtain ⟨-, rfl, relisted⟩ := consistent.registerListenerImpl performed
      exact .inr (.inr ⟨rfl, relisted.outside_eq, by simp [Happening.isBookkeeping]⟩)
  | unregisterByPointer callable pointer =>
      obtain ⟨_, -, rfl, relisted⟩ := consistent.unregisterListenerByPointer performed
      exact .inr (.inr ⟨rfl, relisted.outside_eq, by simp [Happening.isBookkeeping]⟩)
  | unregisterByHandle handle =>
      obtain ⟨_, -, -, rfl, relisted⟩ := consistent.unregisterListenerByHandle performed
      exact .inr (.inr ⟨rfl, relisted.outside_eq, by simp [Happening.isBookkeeping]⟩)
  | getNextEventId =>
      obtain ⟨⟨_, _⟩, taken, equal⟩ := Option.map_eq_some_iff.mp performed
      obtain ⟨rfl, rfl⟩ := Prod.mk.inj equal
      exact .inr (.inr ⟨rfl, (getNextEventId_kept taken).2, by simp [Happening.isBookkeeping]⟩)
  | getNextSectionId =>
      obtain ⟨⟨_, _⟩, taken, equal⟩ := Option.map_eq_some_iff.mp performed
      obtain ⟨rfl, rfl⟩ := Prod.mk.inj equal
      exact .inr (.inr ⟨rfl, (getNextSectionId_kept taken).2, by simp [Happening.isBookkeeping]⟩)

/-- Kokkos calls, dispatches and the taking of ids keep the registry. -/
theorem World.Consistent.perform_registry {operation : Operation ν} {world next : World σ}
    {report : List (Happening ν)} (consistent : world.Consistent tools)
    (performed : perform callees operation world = some (next, report))
    (unchanging : operation.changesRegistry = false)
    : next.registry = world.registry := by
  cases operation with
  | kokkosCall call =>
      obtain ⟨_, _, defined, frame⟩ := consistent.kokkosCall_defined callees call
      obtain ⟨rfl, -⟩ := Prod.mk.inj (Option.some.inj (defined.symm.trans performed))
      exact frame
  | dispatch event =>
      obtain ⟨⟨_, _⟩, dispatched, equal⟩ := Option.map_eq_some_iff.mp performed
      obtain ⟨rfl, -⟩ := Prod.mk.inj equal
      rw [dispatch_eq, Option.some.injEq] at dispatched
      have frame := congrArg (World.registry ∘ Prod.fst) dispatched
      exact frame.symm.trans (notifyAll_registry callees event _ world)
  | getNextEventId =>
      obtain ⟨⟨_, _⟩, taken, equal⟩ := Option.map_eq_some_iff.mp performed
      obtain ⟨rfl, -⟩ := Prod.mk.inj equal
      exact (getNextEventId_kept taken).1
  | getNextSectionId =>
      obtain ⟨⟨_, _⟩, taken, equal⟩ := Option.map_eq_some_iff.mp performed
      obtain ⟨rfl, -⟩ := Prod.mk.inj equal
      exact (getNextSectionId_kept taken).1
  | initializeSingleton => cases unchanging
  | finalizeSingleton => cases unchanging
  | registerShared callable pointer address => cases unchanging
  | registerObject callable address => cases unchanging
  | unregisterByPointer callable pointer => cases unchanging
  | unregisterByHandle handle => cases unchanging

/-- Each operation keeps consistency, by cases on the operation. -/
theorem World.Consistent.of_perform {operation : Operation ν} {world next : World σ}
    {report : List (Happening ν)} (consistent : world.Consistent tools)
    (performed : perform callees operation world = some (next, report))
    : next.Consistent tools := by
  cases operation with
  | initializeSingleton =>
      obtain ⟨rfl, -⟩ := Prod.mk.inj (Option.some.inj performed)
      exact consistent.initializeSingleton
  | finalizeSingleton =>
      obtain ⟨rfl, -⟩ := Prod.mk.inj (Option.some.inj performed)
      exact consistent.finalizeSingleton
  | registerShared callable pointer address =>
      exact (consistent.registerListenerImpl performed).2.2.consistent
  | registerObject callable address =>
      exact (consistent.registerListenerImpl performed).2.2.consistent
  | unregisterByPointer callable pointer =>
      obtain ⟨_, -, -, relisted⟩ := consistent.unregisterListenerByPointer performed
      exact relisted.consistent
  | unregisterByHandle handle =>
      obtain ⟨_, -, -, -, relisted⟩ := consistent.unregisterListenerByHandle performed
      exact relisted.consistent
  | kokkosCall call => exact consistent.of_registry (consistent.perform_registry performed rfl)
  | dispatch event => exact consistent.of_registry (consistent.perform_registry performed rfl)
  | getNextEventId => exact consistent.of_registry (consistent.perform_registry performed rfl)
  | getNextSectionId => exact consistent.of_registry (consistent.perform_registry performed rfl)

/-- Each reachable world is consistent, by induction on how it is reached. -/
theorem Reachable.consistent {world : World σ} (reachable : Reachable callees tools world)
    : world.Consistent tools := by
  induction reachable with
  | start outside => exact .start outside
  | operation _ performed ih => exact ih.of_perform performed
  | callback _ frame ih => exact ih.of_registry frame

/-- The registry invariant: each per-type list holds the pointers to exactly the registered
models that handle the type, each once and in registration order, and the slot of the type
holds the dispatching function exactly if that list is not empty.
-/
theorem Reachable.registeredCallbacks_faithful {world : World σ} {manager : Manager}
    (reachable : Reachable callees tools world) (active : world.singleton = some manager)
    (type : KokkosEventType)
    : manager.registeredCallbacks type
        = (manager.listeners.filter (fun model => .kokkos type ∈ model.eventTypes)).map
            (fun model => some model.address)
      ∧ (manager.registeredCallbacks type).Nodup
      ∧ (∀ pointer ∈ manager.registeredCallbacks type,
          ∃ model ∈ manager.listeners, pointer = some model.address)
      ∧ world.callbacks (callbackMember type)
        = (if manager.registeredCallbacks type = [] then
            manager.contextCallbacks (callbackMember type)
          else
            some (.dispatching type))
      ∧ manager.contextCallbacks = toolCallbacks tools := by
  have consistent := reachable.consistent
  have governs := consistent.active active
  have listed := consistent.registeredCallbacks_eq active type
  rw [World.listeners_eq active] at listed
  refine ⟨?_, ?_, ?_, ?_, governs.context⟩
  · simpa only [ListenerModel.handles_eq_decide] using listed
  · rw [listed]
    exact governs.aligned.pointers.sublist (List.filter_sublist.map _)
  · intro pointer member
    rw [listed] at member
    obtain ⟨model, handling, rfl⟩ := List.mem_map.mp member
    exact ⟨model, List.mem_of_mem_filter handling, rfl⟩
  · rw [governs.installed]
    simp [Manager.installedCallbacks]

/-- Two listeners of region events, the first of which is unregistered again. -/
theorem registeredCallbacks_faithful_region
    : ∃ (world : World Unit) (manager : Manager),
        Reachable (Callees.quiet : Callees Unit Unit) (fun _ => none) world
        ∧ world.singleton = some manager
        ∧ manager.registeredCallbacks .pushRegionEvent = [some 2]
        ∧ world.callbacks .pushRegion = some (.dispatching .pushRegionEvent) := by
  have regions : [EventType.kokkos .pushRegionEvent, .kokkos .popRegionEvent].Nodup := by decide
  have reachable :=
    (Reachable.start () : Reachable (Callees.quiet : Callees Unit Unit) (fun _ => none) _).of_run
      [
        .initializeSingleton,
        .registerObject (.explicit "Regions" _ regions) 1,
        .registerShared (.explicit "Regions" _ regions) 7 2,
        .unregisterByHandle 1
      ]
      rfl
  have faithful := reachable.registeredCallbacks_faithful rfl .pushRegionEvent
  exact ⟨_, _, reachable, rfl, faithful.1, faithful.2.2.2.1⟩

/-- Safety across incarnations: without a Manager all slots hold the callbacks of the context,
a dispatching function is only ever installed while the singleton exists, no Manager captures
a dispatching function as a callback of its context, and each Kokkos call is defined.
-/
theorem Reachable.context_restored {world : World σ} (reachable : Reachable callees tools world)
    : (world.singleton = none → world.callbacks = toolCallbacks tools)
      ∧ (∀ slot type,
          world.callbacks slot = some (.dispatching type) → world.singleton.isSome = true)
      ∧ (∀ manager slot type,
          world.singleton = some manager
          → manager.contextCallbacks slot ≠ some (.dispatching type))
      ∧ ∀ call, ∃ next report, kokkosCall callees call world = some (next, report) := by
  have consistent := reachable.consistent
  have foreign : ∀ slot type, toolCallbacks tools slot ≠ some (.dispatching type) := by
    intro slot type equal
    simp [toolCallbacks] at equal
  refine ⟨consistent.idle, ?_, ?_, ?_⟩
  · intro slot type installed
    cases known : world.singleton with
    | none => exact absurd (consistent.idle known ▸ installed) (foreign slot type)
    | some manager => rfl
  · intro manager slot type active
    rw [(consistent.active active).context]
    exact foreign slot type
  · intro call
    obtain ⟨next, report, defined, -⟩ := consistent.kokkosCall_defined callees call
    exact ⟨next, report, defined⟩

/-- A second incarnation, finalized twice, after a first one with a listener. -/
theorem context_restored_twice
    : ∃ world : World Unit,
        Reachable (Callees.quiet : Callees Unit Unit) (fun _ => some 3) world
        ∧ world.callbacks = toolCallbacks (fun _ => some 3) := by
  have distinct : [EventType.kokkos .profileEvent, .custom "Progress"].Nodup := by decide
  have reachable :=
    (Reachable.start () : Reachable (Callees.quiet : Callees Unit Unit) (fun _ => some 3) _).of_run
      [
        .initializeSingleton,
        .initializeSingleton,
        .registerObject (.explicit "Profile" _ distinct) 1,
        .finalizeSingleton,
        .initializeSingleton,
        .finalizeSingleton,
        .finalizeSingleton
      ]
      rfl
  exact ⟨_, reachable, reachable.context_restored.1 rfl⟩

end KokkosUtils.Callbacks
