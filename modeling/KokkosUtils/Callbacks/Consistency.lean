import KokkosUtils.Callbacks.Registration

/-! Consistency of Kokkos' callback table with the Manager.
Without a Manager the table holds the callbacks of the context. With one it holds a
dispatching function exactly at the event types that have registered callbacks.
-/

namespace KokkosUtils.Callbacks

open KokkosUtils.Foundations

variable {ν σ : Type}

/-- The listeners registered in the Manager; there are none if it is not initialized. -/
def World.listeners (world : World σ) : List ListenerModel :=
  match world.singleton with
  | none => []
  | some manager => manager.listeners

/-- A Manager that captured the callbacks of the context, whose structures agree with each
other and with the installed callback table.
-/
structure Manager.Governs (tools : CallbackSlot → Option FunctionPointer) (manager : Manager)
    (callbacks : EventSet) : Prop where
  aligned : manager.Aligned
  context : manager.contextCallbacks = toolCallbacks tools
  installed : callbacks = manager.installedCallbacks

/-- The invariant of all runs, with and without an initialized Manager. -/
structure World.Consistent (tools : CallbackSlot → Option FunctionPointer) (world : World σ)
    : Prop where
  idle : world.singleton = none → world.callbacks = toolCallbacks tools
  active : ∀ {manager}, world.singleton = some manager → manager.Governs tools world.callbacks

variable {tools : CallbackSlot → Option FunctionPointer}

theorem World.listeners_eq {world : World σ} {manager : Manager}
    (active : world.singleton = some manager)
    : world.listeners = manager.listeners := by
  simp only [World.listeners, active]

/-- A registered listener is registered in an initialized Manager. -/
theorem World.mem_listeners {world : World σ} {model : ListenerModel}
    : model ∈ world.listeners
      ↔ ∃ manager, world.singleton = some manager ∧ model ∈ manager.listeners := by
  cases known : world.singleton <;> simp [World.listeners, known]

/-- The same registry means the same callback table and the same Manager up to its ids. -/
theorem World.registry_eq_iff {left right : World σ}
    : left.registry = right.registry
      ↔ left.callbacks = right.callbacks
        ∧ left.singleton.map Manager.withoutIds = right.singleton.map Manager.withoutIds :=
  Prod.mk.injEq .. ▸ Iff.rfl

/-- An initialized Manager stays initialized, up to its ids, while the registry is kept. -/
theorem World.singleton_of_registry {left right : World σ} {manager : Manager}
    (frame : left.registry = right.registry) (active : right.singleton = some manager)
    : ∃ current, left.singleton = some current ∧ current.withoutIds = manager.withoutIds := by
  have same := (World.registry_eq_iff.mp frame).2
  rw [active, Option.map_some, Option.map_eq_some_iff] at same
  exact same

/-- The registered listeners belong to the registry. -/
theorem World.listeners_of_registry {left right : World σ}
    (frame : left.registry = right.registry)
    : left.listeners = right.listeners := by
  have same := (World.registry_eq_iff.mp frame).2
  unfold World.listeners
  cases leftActive : left.singleton <;> cases rightActive : right.singleton
  · rfl
  · simp [leftActive, rightActive] at same
  · simp [leftActive, rightActive] at same
  · simp only [leftActive, rightActive, Option.map_some, Option.some.injEq] at same
    have equal := congrArg Manager.listeners same
    exact equal

/-- The ids of a Manager do not matter for what it governs. -/
theorem Manager.Governs.of_withoutIds {left right : Manager} {callbacks : EventSet}
    (governs : left.Governs tools callbacks) (same : right.withoutIds = left.withoutIds)
    : right.Governs tools callbacks := by
  obtain ⟨_, _, _, _, _⟩ := left
  obtain ⟨_, _, _, _, _⟩ := right
  simp only [Manager.withoutIds, Manager.mk.injEq, and_true] at same
  obtain ⟨rfl, rfl, rfl⟩ := same
  exact ⟨⟨governs.aligned.addresses, governs.aligned.indexed⟩, governs.context,
    governs.installed⟩

/-- Consistency depends on the registry only. -/
theorem World.Consistent.of_registry {left right : World σ} (consistent : right.Consistent tools)
    (frame : left.registry = right.registry)
    : left.Consistent tools := by
  obtain ⟨table, same⟩ := World.registry_eq_iff.mp frame
  constructor
  · intro idle
    rw [idle, Option.map_none, eq_comm, Option.map_eq_none_iff] at same
    exact table.trans (consistent.idle same)
  · intro current active
    obtain ⟨manager, known, equal⟩ := World.singleton_of_registry frame.symm active
    exact table ▸ (consistent.active known).of_withoutIds equal.symm

/-- The Manager's list for an event type points to the listeners that handle the type. -/
theorem World.Consistent.registeredCallbacks_eq {world : World σ} {manager : Manager}
    (consistent : world.Consistent tools) (active : world.singleton = some manager)
    (type : KokkosEventType)
    : manager.registeredCallbacks type
      = (world.listeners.filter (fun model => model.handles (.kokkos type))).map
          (fun model => some model.address) := by
  rw [World.listeners_eq active]
  exact (consistent.active active).aligned.indexed type

/-- The slot of an event type holds a dispatching function if a listener handles the type,
and the callback of the context otherwise, also while there is no Manager.
-/
theorem World.Consistent.callbacks_eq {world : World σ} (consistent : world.Consistent tools)
    (type : KokkosEventType)
    : world.callbacks (callbackMember type)
      = if (world.listeners.filter (fun model => model.handles (.kokkos type))).isEmpty then
          toolCallbacks tools (callbackMember type)
        else
          some (.dispatching type) := by
  cases known : world.singleton with
  | none => rw [consistent.idle known, World.listeners, known]; rfl
  | some manager =>
      have governs := consistent.active known
      rw [governs.installed, Manager.installedCallbacks, governs.context]
      simp only [eventType?_callbackMember, consistent.registeredCallbacks_eq known,
        List.isEmpty_map]

/-- A new Manager has nothing installed beyond the table that it captured. -/
theorem Manager.installedCallbacks_new (callbacks : EventSet)
    : Manager.installedCallbacks { contextCallbacks := callbacks } = callbacks := by
  funext slot
  unfold Manager.installedCallbacks
  cases slot.eventType? <;> rfl

/-- At the start only the context has callbacks. -/
theorem World.Consistent.start (outside : σ) : (World.start tools outside).Consistent tools where
  idle := fun _ => rfl
  active := by
    intro _ active
    cases active

/-- A new Manager governs the callbacks of the context, with empty structures. -/
theorem World.Consistent.initializeSingleton {world : World σ}
    (consistent : world.Consistent tools)
    : (Manager.initializeSingleton world).Consistent tools := by
  cases known : world.singleton with
  | some manager => simpa only [Manager.initializeSingleton, known] using consistent
  | none =>
      simp only [Manager.initializeSingleton, known]
      constructor
      · intro idle
        cases idle
      · rintro _ ⟨⟩
        exact {
          aligned := ⟨List.nodup_nil, Indexes.nil⟩
          context := consistent.idle known
          installed := (Manager.installedCallbacks_new _).symm
        }

/-- Finalization restores the callbacks of the context. -/
theorem World.Consistent.finalizeSingleton {world : World σ}
    (consistent : world.Consistent tools)
    : (Manager.finalizeSingleton world).Consistent tools := by
  cases known : world.singleton with
  | none => simpa only [Manager.finalizeSingleton, known] using consistent
  | some manager =>
      simp only [Manager.finalizeSingleton, known]
      constructor
      · intro _
        exact (consistent.active known).context
      · intro _ active
        cases active

/-- Storing a Manager with agreeing structures and setting its dispatching callbacks keeps
consistency: members outside the event types still hold what the context had there.
-/
theorem World.Consistent.update {world : World σ} {manager next : Manager}
    (consistent : world.Consistent tools) (active : world.singleton = some manager)
    (aligned : next.Aligned) (context : next.contextCallbacks = manager.contextCallbacks)
    : (Manager.update next world).Consistent tools := by
  have governs := consistent.active active
  have others : ∀ slot, slot.eventType? = none
      → world.callbacks slot = next.contextCallbacks slot := by
    intro slot unowned
    rw [governs.installed, context]
    simp only [Manager.installedCallbacks, unowned]
  constructor
  · intro idle
    cases idle
  · rintro _ ⟨⟩
    exact {
      aligned := aligned
      context := context.trans governs.context
      installed := Manager.setDispatchingCallbacks_eq_installed others
    }

/-- A consistent world with an initialized Manager in which the given listeners are
registered, and which differs from another only in what registration may change.
-/
structure World.Relisted (tools : CallbackSlot → Option FunctionPointer) (world next : World σ)
    (listeners : List ListenerModel) : Prop where
  consistent : next.Consistent tools
  initialized : next.singleton.isSome = true
  listeners_eq : next.listeners = listeners
  outside_eq : next.outside = world.outside

/-- Storing a Manager with agreeing structures relists its listeners. -/
theorem World.Consistent.relisted {world : World σ} {manager next : Manager}
    (consistent : world.Consistent tools) (active : world.singleton = some manager)
    (aligned : next.Aligned) (context : next.contextCallbacks = manager.contextCallbacks)
    : World.Relisted tools world (Manager.update next world) next.listeners where
  consistent := consistent.update active aligned context
  initialized := rfl
  listeners_eq := rfl
  outside_eq := rfl

/-- Registration appends the model, whose address was free. -/
theorem World.Consistent.registerListenerImpl {world next : World σ} {model : ListenerModel}
    {report : List (Happening ν)} (consistent : world.Consistent tools)
    (performed : Manager.registerListenerImpl model world = some (next, report))
    : model.address ∉ world.listeners.map ListenerModel.address
      ∧ report = [.registered model.address]
      ∧ World.Relisted tools world next (world.listeners ++ [model]) := by
  obtain ⟨manager, active, fresh, rfl, rfl⟩ := Manager.registerListenerImpl_eq_some performed
  rw [World.listeners_eq active]
  have aligned := (consistent.active active).aligned.withListener fresh
  exact ⟨fresh, rfl, consistent.relisted active aligned rfl⟩

/-- Registration is defined in an initialized Manager for a model at a free address. -/
theorem World.registerListenerImpl_defined {world : World σ} {model : ListenerModel}
    (initialized : world.singleton.isSome = true)
    (fresh : model.address ∉ world.listeners.map ListenerModel.address)
    : ∃ next report,
        Manager.registerListenerImpl (ν := ν) model world = some (next, report) := by
  obtain ⟨manager, active⟩ := Option.isSome_iff_exists.mp initialized
  rw [World.listeners_eq active] at fresh
  exact ⟨_, _, Manager.registerListenerImpl_eq active fresh⟩

/-- Unregistration by pointer erases the first model that holds the pointer. -/
theorem World.Consistent.unregisterListenerByPointer {world next : World σ}
    {callable : Listener} {pointer : Pointer} {report : List (Happening ν)}
    (consistent : world.Consistent tools)
    (performed
      : Manager.unregisterListenerByPointer callable pointer world = some (next, report))
    : ∃ model,
        world.listeners.find? (fun other => other.holds callable pointer) = some model
        ∧ report = [.unregistered model.address]
        ∧ World.Relisted tools world next
            (world.listeners.eraseP (fun other => other.address == model.address)) := by
  obtain ⟨manager, active, -⟩ := Option.bind_eq_some_iff.mp performed
  have aligned := (consistent.active active).aligned
  obtain ⟨model, found, rfl, rfl⟩ :=
    Manager.unregisterListenerByPointer_eq_some active aligned performed
  rw [World.listeners_eq active]
  have remaining := aligned.withoutListener (List.mem_of_find?_eq_some found)
  exact ⟨model, found, rfl, consistent.relisted active remaining rfl⟩

/-- Unregistration by pointer is defined if a registered model holds the pointer, and erases the
first such model.
-/
theorem World.Consistent.unregisterListenerByPointer_defined {world : World σ}
    {callable : Listener} {pointer : Pointer} {model : ListenerModel}
    (consistent : world.Consistent tools)
    (found : world.listeners.find? (fun other => other.holds callable pointer) = some model)
    : ∃ next report,
        Manager.unregisterListenerByPointer (ν := ν) callable pointer world
          = some (next, report)
        ∧ World.Relisted tools world next
            (world.listeners.eraseP (fun other => other.address == model.address)) := by
  obtain ⟨manager, active, -⟩ := World.mem_listeners.mp (List.mem_of_find?_eq_some found)
  have foundHere := found
  rw [World.listeners_eq active] at foundHere
  have aligned := (consistent.active active).aligned
  have performed :=
    Manager.unregisterListenerByPointer_eq (ν := ν) active aligned foundHere
  obtain ⟨same, foundAgain, -, relisted⟩ := consistent.unregisterListenerByPointer performed
  obtain rfl := Option.some.inj (found.symm.trans foundAgain)
  exact ⟨_, _, performed, relisted⟩

/-- Unregistration by handle erases the model at the handle. -/
theorem World.Consistent.unregisterListenerByHandle {world next : World σ} {handle : Address}
    {report : List (Happening ν)} (consistent : world.Consistent tools)
    (performed : Manager.unregisterListenerByHandle handle world = some (next, report))
    : ∃ model ∈ world.listeners,
        model.address = handle
        ∧ report = [.unregistered model.address]
        ∧ World.Relisted tools world next
            (world.listeners.eraseP (fun other => other.address == model.address)) := by
  obtain ⟨manager, active, -⟩ := Option.bind_eq_some_iff.mp performed
  have aligned := (consistent.active active).aligned
  obtain ⟨model, member, rfl, rfl, rfl⟩ :=
    Manager.unregisterListenerByHandle_eq_some active aligned performed
  rw [World.listeners_eq active]
  have remaining := aligned.withoutListener member
  exact ⟨model, member, rfl, rfl, consistent.relisted active remaining rfl⟩

/-- Unregistration by handle is defined for a registered model, and erases it. -/
theorem World.Consistent.unregisterListenerByHandle_defined {world : World σ}
    {model : ListenerModel} (consistent : world.Consistent tools)
    (member : model ∈ world.listeners)
    : ∃ next report,
        Manager.unregisterListenerByHandle (ν := ν) model.address world
          = some (next, report)
        ∧ World.Relisted tools world next
            (world.listeners.eraseP (fun other => other.address == model.address)) := by
  obtain ⟨manager, active, registered⟩ := World.mem_listeners.mp member
  have aligned := (consistent.active active).aligned
  have performed := Manager.unregisterListenerByHandle_eq (ν := ν) active aligned registered
  obtain ⟨other, -, same, -, relisted⟩ := consistent.unregisterListenerByHandle performed
  rw [same] at relisted
  exact ⟨_, _, performed, relisted⟩

/-- The registered listeners are distinct objects. -/
theorem World.Consistent.addresses {world : World σ} (consistent : world.Consistent tools)
    : (world.listeners.map ListenerModel.address).Nodup := by
  cases known : world.singleton with
  | none => simp [World.listeners, known]
  | some manager =>
      rw [World.listeners_eq known]
      exact (consistent.active known).aligned.addresses

/-- The registered listeners determine the registry of a consistent world with a Manager: the
per-type lists index them, and the callback table follows these lists.
-/
theorem World.Consistent.registry_eq {left right : World σ}
    (leftConsistent : left.Consistent tools) (rightConsistent : right.Consistent tools)
    (leftActive : left.singleton.isSome = true) (rightActive : right.singleton.isSome = true)
    (same : left.listeners = right.listeners)
    : left.registry = right.registry := by
  obtain ⟨leftManager, leftKnown⟩ := Option.isSome_iff_exists.mp leftActive
  obtain ⟨rightManager, rightKnown⟩ := Option.isSome_iff_exists.mp rightActive
  have leftGoverns := leftConsistent.active leftKnown
  have rightGoverns := rightConsistent.active rightKnown
  have listed : leftManager.registeredCallbacks = rightManager.registeredCallbacks := by
    funext type
    rw [leftConsistent.registeredCallbacks_eq leftKnown, same,
      rightConsistent.registeredCallbacks_eq rightKnown]
  have context := leftGoverns.context.trans rightGoverns.context.symm
  rw [World.listeners_eq leftKnown, World.listeners_eq rightKnown] at same
  apply World.registry_eq_iff.mpr
  constructor
  · rw [leftGoverns.installed, rightGoverns.installed]
    funext slot
    simp only [Manager.installedCallbacks, listed, context]
  · rw [leftKnown, rightKnown, Option.map_some, Option.map_some, Manager.withoutIds,
      Manager.withoutIds, same, listed, context]

end KokkosUtils.Callbacks
