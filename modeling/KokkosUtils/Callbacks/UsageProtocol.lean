import KokkosUtils.Callbacks.BrokerRefinement

/-! The protocol that users of the Manager have to follow.
Whether a run has undefined behaviour depends on its operations only: on whether each is allowed
when the Manager is, or is not, initialized and the given listeners are registered. Callbacks do not
register, unregister or finalize.
-/

namespace KokkosUtils.Callbacks

open KokkosUtils.Foundations

variable {ν σ : Type} {tools : CallbackSlot → Option FunctionPointer}

/-- Whether an operation may be performed. Registration dereferences the singleton, and the address
of a new model is not that of another; only registered listeners may be unregistered.
-/
def Operation.allowed (initialized : Bool) (listeners : List ListenerModel)
    : Operation ν → Bool
  | .registerShared _ _ address =>
      initialized && listeners.all (fun model => model.address != address)
  | .registerObject _ address =>
      initialized && listeners.all (fun model => model.address != address)
  | .unregisterByPointer callable pointer =>
      listeners.any (fun model => model.holds callable pointer)
  | .unregisterByHandle handle => listeners.any (fun model => model.address == handle)
  | .getNextSectionId => initialized
  | _ => true

/-- Whether the Manager is initialized after an operation. -/
def Operation.initializedAfter (initialized : Bool) : Operation ν → Bool
  | .initializeSingleton => true
  | .finalizeSingleton => false
  | _ => initialized

/-- The registered listeners after an operation. -/
def Operation.listenersAfter (listeners : List ListenerModel) (operation : Operation ν)
    : List ListenerModel :=
  operation.subscription?.elim listeners (fun command => command.update listeners)

/-- Whether some operations follow the protocol, one after the other. -/
def followsProtocol : Bool → List ListenerModel → List (Operation ν) → Bool
  | _, _, [] => true
  | initialized, listeners, operation :: rest =>
      operation.allowed initialized listeners
      && followsProtocol (operation.initializedAfter initialized)
          (operation.listenersAfter listeners) rest

variable {callees : Callees ν σ}

/-- Whether there is a Manager belongs to the registry. -/
theorem World.initialized_of_registry {left right : World σ}
    (frame : left.registry = right.registry)
    : left.singleton.isSome = right.singleton.isSome := by
  have same := congrArg Option.isSome (World.registry_eq_iff.mp frame).2
  rwa [Option.isSome_map, Option.isSome_map] at same

/-- Listeners are registered with an initialized Manager only. -/
theorem World.initialized_of_mem {world : World σ} {model : ListenerModel}
    (member : model ∈ world.listeners)
    : world.singleton.isSome = true := by
  obtain ⟨manager, active, -⟩ := World.mem_listeners.mp member
  rw [active]
  rfl

/-- Each operation initializes, finalizes or keeps the Manager as the protocol says. -/
theorem World.Consistent.perform_initialized {operation : Operation ν} {world next : World σ}
    {report : List (Happening ν)} (consistent : world.Consistent tools)
    (performed : perform callees operation world = some (next, report))
    : next.singleton.isSome = operation.initializedAfter world.singleton.isSome := by
  cases operation with
  | initializeSingleton =>
      obtain ⟨rfl, -⟩ := Prod.mk.inj (Option.some.inj performed)
      unfold Manager.initializeSingleton
      cases known : world.singleton <;> simp [Operation.initializedAfter, known]
  | finalizeSingleton =>
      obtain ⟨rfl, -⟩ := Prod.mk.inj (Option.some.inj performed)
      unfold Manager.finalizeSingleton
      cases known : world.singleton <;> simp [Operation.initializedAfter, known]
  | registerShared callable pointer address =>
      obtain ⟨manager, active, -⟩ := Manager.registerListenerImpl_eq_some performed
      rw [(consistent.registerListenerImpl performed).2.2.initialized, active]
      rfl
  | registerObject callable address =>
      obtain ⟨manager, active, -⟩ := Manager.registerListenerImpl_eq_some performed
      rw [(consistent.registerListenerImpl performed).2.2.initialized, active]
      rfl
  | unregisterByPointer callable pointer =>
      obtain ⟨model, found, -, relisted⟩ := consistent.unregisterListenerByPointer performed
      rw [relisted.initialized]
      exact (World.initialized_of_mem (List.mem_of_find?_eq_some found)).symm
  | unregisterByHandle handle =>
      obtain ⟨model, member, -, -, relisted⟩ := consistent.unregisterListenerByHandle performed
      rw [relisted.initialized]
      exact (World.initialized_of_mem member).symm
  | kokkosCall call =>
      exact World.initialized_of_registry (consistent.perform_registry performed rfl)
  | dispatch event =>
      exact World.initialized_of_registry (consistent.perform_registry performed rfl)
  | getNextEventId =>
      exact World.initialized_of_registry (consistent.perform_registry performed rfl)
  | getNextSectionId =>
      exact World.initialized_of_registry (consistent.perform_registry performed rfl)

/-- Each operation changes the registered listeners as the protocol says. -/
theorem World.Consistent.perform_listeners {operation : Operation ν} {world next : World σ}
    {report : List (Happening ν)} (consistent : world.Consistent tools)
    (performed : perform callees operation world = some (next, report))
    : next.listeners = operation.listenersAfter world.listeners := by
  rcases consistent.perform_command performed with
    ⟨given, event, raises, -, -, listed, -⟩ | ⟨-, -, listed, -⟩
  · rw [listed]
    cases operation <;> first | rfl | cases raises
  · exact listed

/-- Registration is possible exactly at free addresses of an initialized Manager. -/
theorem World.isSome_registerListenerImpl (model : ListenerModel) (world : World σ)
    : (Manager.registerListenerImpl (ν := ν) model world).isSome
      = (world.singleton.isSome
          && world.listeners.all (fun other => other.address != model.address)) := by
  unfold Manager.registerListenerImpl World.listeners
  cases active : world.singleton with
  | none => rfl
  | some manager =>
      by_cases used : model.address ∈ manager.listeners.map ListenerModel.address
      · obtain ⟨other, member, same⟩ := List.mem_map.mp used
        rw [Option.bind_some, if_pos used, Option.isSome_none, eq_comm, Option.isSome_some,
          Bool.true_and, List.all_eq_false]
        exact ⟨other, member, by simp [same]⟩
      · rw [Option.bind_some, if_neg used, Option.isSome_some, eq_comm, Option.isSome_some,
          Bool.true_and, List.all_eq_true]
        intro other member
        exact bne_iff_ne.mpr fun same => used (List.mem_map.mpr ⟨other, member, same⟩)

/-- In a consistent world an operation is defined exactly if it is allowed. -/
theorem World.Consistent.isSome_perform {world : World σ} (consistent : world.Consistent tools)
    (callees : Callees ν σ) (operation : Operation ν)
    : (perform callees operation world).isSome
      = operation.allowed world.singleton.isSome world.listeners := by
  cases operation with
  | initializeSingleton => rfl
  | finalizeSingleton => rfl
  | registerShared callable pointer address => exact World.isSome_registerListenerImpl _ world
  | registerObject callable address => exact World.isSome_registerListenerImpl _ world
  | unregisterByPointer callable pointer =>
      rw [perform, Operation.allowed, Manager.unregisterListenerByPointer, World.listeners]
      cases world.singleton with
      | none => rfl
      | some manager => rw [Option.bind_some, Option.isSome_map, List.isSome_find?]
  | unregisterByHandle handle =>
      rw [perform, Operation.allowed, Manager.unregisterListenerByHandle, World.listeners]
      cases world.singleton with
      | none => rfl
      | some manager => rw [Option.bind_some, Option.isSome_map, List.isSome_find?]
  | kokkosCall call =>
      obtain ⟨next, report, defined, -⟩ := consistent.kokkosCall_defined callees call
      rw [perform, defined]
      rfl
  | dispatch event =>
      rw [perform, dispatch_eq]
      rfl
  | getNextEventId =>
      simp only [perform, Option.isSome_map, Operation.allowed, getNextEventId,
        Manager.getNextEventId]
      cases world.singleton <;> rfl
  | getNextSectionId =>
      simp only [perform, Option.isSome_map, Operation.allowed, getNextSectionId,
        Manager.getNextSectionId]

/-- In a consistent world a run is defined exactly if its operations follow the protocol. -/
theorem World.Consistent.isSome_run {world : World σ} (consistent : world.Consistent tools)
    (callees : Callees ν σ) (operations : List (Operation ν))
    : (run callees operations world).isSome
      = followsProtocol world.singleton.isSome world.listeners operations := by
  induction operations generalizing world with
  | nil => rfl
  | cons operation rest ih =>
      rw [followsProtocol, ← consistent.isSome_perform callees operation]
      cases performed : perform callees operation world with
      | none => simp [run, runSteps, performed]
      | some result =>
          obtain ⟨next, report⟩ := result
          rw [← consistent.perform_initialized performed, ← consistent.perform_listeners performed,
            ← ih (consistent.of_perform performed)]
          simp [run, runSteps, performed]

/-- Undefined behaviour depends on the operations only. From any reachable world, and whatever the
context and the listeners do while they are called, short of registering, unregistering and
finalizing, a run is defined exactly if its operations follow the protocol; then the Manager
dereferences neither a null singleton nor a null, dangling or past-the-end pointer, and never calls
itself.
-/
theorem Reachable.run_defined_iff {world : World σ} (reachable : Reachable callees tools world)
    (operations : List (Operation ν))
    : (∃ final report, run callees operations world = some (final, report))
      ↔ followsProtocol world.singleton.isSome world.listeners operations = true := by
  have exact := reachable.consistent.isSome_run callees operations
  rw [← exact, Option.isSome_iff_exists, Prod.exists]

/-- A listener of entered regions and of markers. -/
private def annotations : Listener :=
  .explicit "Annotations" [.kokkos .pushRegionEvent, .kokkos .profileEvent] (by decide)

/-- A handle that is used twice. -/
private def unregisteredTwice : List (Operation Unit) :=
  [
    .initializeSingleton,
    .registerObject annotations 1,
    .kokkosCall (.pushRegion "solve"),
    .unregisterByHandle 1,
    .unregisterByHandle 1
  ]

/-- The second use of the handle is undefined behaviour, but the operations before it are not. -/
theorem run_defined_iff_unregisteredTwice
    : (¬ ∃ final report,
        run Callees.quiet unregisteredTwice (.start (fun _ => none) ()) = some (final, report))
      ∧ ∃ final report,
          run Callees.quiet unregisteredTwice.dropLast (.start (fun _ => none) ())
          = some (final, report) := by
  have start : Reachable (ν := Unit) Callees.quiet (fun _ => none) (.start (fun _ => none) ()) :=
    .start ()
  constructor
  · rw [start.run_defined_iff]
    decide
  · exact (start.run_defined_iff _).mpr (by decide)

end KokkosUtils.Callbacks
