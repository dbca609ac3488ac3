import KokkosUtils.Callbacks.Runs

/-! What registration and unregistration do to a Manager whose structures agree.
Both `unregister_listener` overloads have the same effect, although one cleans up only the
lists of the listener's own event types and the other the lists of all event types.
-/

namespace KokkosUtils.Callbacks

open KokkosUtils.Foundations KokkosUtils.Impl

variable {ν σ : Type}

namespace Manager

/-- The tuple that the source keeps the registered callbacks in, with a list for each type of
`EventTypeList`.
-/
def listenerCallOprListTuple (manager : Manager) : List (List (Option Address)) :=
  transformTypeList manager.registeredCallbacks eventTypeList

/-- The list of an event type is the slot of the tuple at the index of the type: it is read from
there, and storing it there changes the list of no other type.
-/
theorem registeredCallbacks_slot (manager : Manager) (type : KokkosEventType)
    : ∃ index,
        typeListIndex type eventTypeList = some index
        ∧ typeListAt index manager.listenerCallOprListTuple
          = some (manager.registeredCallbacks type)
        ∧ ∀ pointers,
            manager.listenerCallOprListTuple.set index pointers
            = { manager with
                registeredCallbacks :=
                  Function.update manager.registeredCallbacks type pointers
              }.listenerCallOprListTuple := by
  have contained : typeListContains type eventTypeList = true :=
    typeListContains_eq_true.mpr (mem_eventTypeList type)
  rw [← isSome_typeListIndex] at contained
  obtain ⟨index, known⟩ := Option.isSome_iff_exists.mp contained
  refine ⟨index, known, ?_, fun pointers => ?_⟩
  · rw [listenerCallOprListTuple, typeListAt_transformTypeList,
      (typeListIndex_eq_some.mp known).1]
    rfl
  · exact transformTypeList_update eventTypeList_nodup known manager.registeredCallbacks pointers

/-- The callback table with a dispatching function at each event type with registered
callbacks and the context callbacks elsewhere.
-/
def installedCallbacks (manager : Manager) : EventSet := fun slot =>
  match slot.eventType? with
  | some type =>
      if (manager.registeredCallbacks type).isEmpty then manager.contextCallbacks slot
      else some (.dispatching type)
  | none => manager.contextCallbacks slot

/-- Setting the dispatching callbacks writes the member of each event type and no other. -/
theorem setDispatchingCallbacks_eq_installed {manager : Manager} {callbacks : EventSet}
    (others : ∀ slot, slot.eventType? = none → callbacks slot = manager.contextCallbacks slot)
    : manager.setDispatchingCallbacks callbacks = manager.installedCallbacks := by
  funext slot
  rw [setDispatchingCallbacks, forEach_eq_foldl]
  cases known : slot.eventType? with
  | none =>
      have unwritten : ∀ type ∈ eventTypeList, setterMember type ≠ slot := by
        intro type _ equal
        rw [eventType?_eq_some.mpr equal] at known
        cases known
      calc
        _ = callbacks slot :=
            foldl_update_of_forall_ne setterMember
              (fun type _ =>
                if (manager.registeredCallbacks type).isEmpty then
                  getCallbackFromEventset type manager.contextCallbacks
                else
                  some (.dispatching type))
              unwritten callbacks
        _ = manager.installedCallbacks slot := by
            simp only [installedCallbacks, known]
            exact others slot known
  | some type =>
      obtain rfl := eventType?_eq_some.mp known
      have written := foldl_update_slot setterMember
        (fun type _ =>
          if (manager.registeredCallbacks type).isEmpty then
            getCallbackFromEventset type manager.contextCallbacks
          else
            some (.dispatching type))
        callbackMember_injective eventTypeList_nodup callbacks type
      rw [if_pos (mem_eventTypeList type)] at written
      simp only [installedCallbacks, known]
      exact written

/-- The loop over distinct event types changes the list of each listed type once. -/
theorem updateRegisteredCallbacks_apply {types : List EventType} (distinct : types.Nodup)
    (change : KokkosEventType → List (Option Address) → List (Option Address))
    (registered : KokkosEventType → List (Option Address)) (type : KokkosEventType)
    : updateRegisteredCallbacks types change registered type
      = if .kokkos type ∈ types then change type (registered type) else registered type := by
  have members : (types.filterMap EventType.kokkos?).Nodup :=
    distinct.filterMap (by
      intro left right member leftMember rightMember
      rw [EventType.kokkos?_eq_some.mp leftMember, EventType.kokkos?_eq_some.mp rightMember])
  have listed : type ∈ types.filterMap EventType.kokkos? ↔ .kokkos type ∈ types := by
    simp [List.mem_filterMap]
  have loop : updateRegisteredCallbacks types change registered
      = (types.filterMap EventType.kokkos?).foldl
          (fun current member => Function.update current member (change member (current member)))
          registered := by
    rw [updateRegisteredCallbacks, forEach_eq_foldl, List.foldl_filterMap]
    congr 1
    funext current type
    cases type <;> rfl
  rw [loop]
  have written := foldl_update_slot (fun member => member) change Function.injective_id members
    registered type
  simpa only [listed] using written

/-- The Manager after registration of a model. -/
def withListener (manager : Manager) (model : ListenerModel) : Manager :=
  {
    manager with
    listeners := manager.listeners ++ [model]
    registeredCallbacks := fun type =>
      if model.handles (.kokkos type) then
        manager.registeredCallbacks type ++ [some model.address]
      else
        manager.registeredCallbacks type
  }

/-- The Manager after unregistration of a model. -/
def withoutListener (manager : Manager) (model : ListenerModel) : Manager :=
  {
    manager with
    listeners := manager.listeners.eraseP (fun other => other.address == model.address)
    registeredCallbacks := fun type =>
      if model.handles (.kokkos type) then
        (manager.registeredCallbacks type).filter (fun pointer => pointer != some model.address)
      else
        manager.registeredCallbacks type
  }

/-- The listeners and the registered callbacks of a Manager agree: models have distinct
addresses, and each event type's list points to exactly the models that handle the type.
-/
structure Aligned (manager : Manager) : Prop where
  addresses : (manager.listeners.map ListenerModel.address).Nodup
  indexed
    : Indexes (fun (model : ListenerModel) type => model.handles (.kokkos type))
        (fun model => some model.address) manager.listeners manager.registeredCallbacks

theorem Aligned.pointers {manager : Manager} (aligned : manager.Aligned)
    : (manager.listeners.map (fun model => some model.address)).Nodup := by
  have distinct := aligned.addresses.map (fun _ _ equal => Option.some.inj equal)
  rwa [List.map_map] at distinct

/-- A model is determined by its address. -/
theorem Aligned.eq_of_address {manager : Manager} (aligned : manager.Aligned)
    {left right : ListenerModel} (leftMember : left ∈ manager.listeners)
    (rightMember : right ∈ manager.listeners) (equal : left.address = right.address)
    : left = right :=
  List.inj_on_of_nodup_map aligned.addresses leftMember rightMember equal

/-- Looking a registered model up by its address finds that model. -/
theorem Aligned.find?_address {manager : Manager} (aligned : manager.Aligned)
    {model : ListenerModel} (member : model ∈ manager.listeners)
    : manager.listeners.find? (fun other => other.address == model.address) = some model := by
  cases found : manager.listeners.find? (fun other => other.address == model.address) with
  | none => exact absurd (List.find?_eq_none.mp found model member) (by simp)
  | some other =>
      have same : other.address = model.address := by simpa using List.find?_some found
      rw [aligned.eq_of_address (List.mem_of_find?_eq_some found) member same]

/-- Registration at a fresh address keeps the structures aligned. -/
theorem Aligned.withListener {manager : Manager} (aligned : manager.Aligned)
    {model : ListenerModel} (fresh : model.address ∉ manager.listeners.map ListenerModel.address)
    : (manager.withListener model).Aligned := by
  constructor
  · simp only [Manager.withListener, List.map_append, List.map_cons, List.map_nil]
    exact aligned.addresses.append (List.nodup_singleton _) (by simpa using fresh)
  · exact aligned.indexed.push (fun _ => rfl)

/-- Unregistration of a registered model keeps the structures aligned. -/
theorem Aligned.withoutListener {manager : Manager} (aligned : manager.Aligned)
    {model : ListenerModel} (member : model ∈ manager.listeners)
    : (manager.withoutListener model).Aligned := by
  constructor
  · exact aligned.addresses.sublist (List.eraseP_sublist.map _)
  · have indexed := aligned.indexed.erase aligned.pointers member
      (fun type => Eq.refl ((manager.withoutListener model).registeredCallbacks type))
    simpa [Manager.withoutListener] using indexed

/-- The loop of registration pushes the model onto the list of each type it handles. -/
theorem pushCallOperators_eq (manager : Manager) (model : ListenerModel)
    : pushCallOperators model manager.registeredCallbacks
      = (manager.withListener model).registeredCallbacks := by
  funext type
  have distinct : model.eventTypes.Nodup := model.type.distinct
  rw [pushCallOperators, updateRegisteredCallbacks_apply distinct]
  by_cases handled : EventType.kokkos type ∈ model.eventTypes <;>
    simp [handled, Manager.withListener, ListenerModel.castToCallOperator]

/-- Removing a model from the lists of its own event types removes each pointer to it. -/
theorem removeCallOperators_own (manager : Manager) (model : ListenerModel)
    : removeCallOperators model model.eventTypes manager.registeredCallbacks
      = (manager.withoutListener model).registeredCallbacks := by
  funext type
  have distinct : model.eventTypes.Nodup := model.type.distinct
  rw [removeCallOperators, updateRegisteredCallbacks_apply distinct]
  by_cases handled : EventType.kokkos type ∈ model.eventTypes <;>
    simp [handled, Manager.withoutListener, ListenerModel.castToCallOperator]

/-- Removing the casts of a model from the lists of all event types does the same: for a
type it does not handle the cast is null, and no list holds a null pointer.
-/
theorem Aligned.removeCallOperators_all {manager : Manager} (aligned : manager.Aligned)
    (model : ListenerModel)
    : removeCallOperators model (eventTypeList.map EventType.kokkos) manager.registeredCallbacks
      = (manager.withoutListener model).registeredCallbacks := by
  have distinct : (eventTypeList.map EventType.kokkos).Nodup :=
    eventTypeList_nodup.map (fun _ _ equal => EventType.kokkos.inj equal)
  funext type
  rw [removeCallOperators, updateRegisteredCallbacks_apply distinct,
    if_pos (List.mem_map_of_mem (mem_eventTypeList type))]
  by_cases handled : EventType.kokkos type ∈ model.eventTypes
  · simp [handled, Manager.withoutListener, ListenerModel.castToCallOperator]
  · simp only [ListenerModel.castToCallOperator, Manager.withoutListener,
      ListenerModel.handles_eq_true, handled, if_false]
    rw [aligned.indexed type]
    apply List.filter_eq_self.mpr
    intro pointer member
    obtain ⟨_, _, rfl⟩ := List.mem_map.mp member
    rfl

/-- Registration succeeds at a fresh address and appends the model. -/
theorem registerListenerImpl_eq {world : World σ} {manager : Manager} {model : ListenerModel}
    (active : world.singleton = some manager)
    (fresh : model.address ∉ manager.listeners.map ListenerModel.address)
    : registerListenerImpl (ν := ν) model world
      = some (update (manager.withListener model) world, [.registered model.address]) := by
  rw [registerListenerImpl, active, Option.bind_some, if_neg fresh, pushCallOperators_eq]
  rfl

/-- Unregistration by pointer succeeds if a model holds the pointer, and removes the first. -/
theorem unregisterListenerByPointer_eq {world : World σ} {manager : Manager}
    {callable : Listener} {pointer : Pointer} {model : ListenerModel}
    (active : world.singleton = some manager) (aligned : manager.Aligned)
    (found : manager.listeners.find? (fun other => other.holds callable pointer) = some model)
    : unregisterListenerByPointer (ν := ν) callable pointer world
      = some (update (manager.withoutListener model) world, [.unregistered model.address]) := by
  have held : model.holds callable pointer = true := by simpa using List.find?_some found
  have types : callable.listenerEventTypeList = model.eventTypes :=
    (ListenerModel.eventTypes_of_holds held).symm
  have erased := eraseP_of_find? aligned.addresses found
  rw [unregisterListenerByPointer, active, Option.bind_some, found, Option.map_some, types,
    removeCallOperators_own, erased]
  rfl

/-- Unregistration by handle succeeds for a registered model and removes it. -/
theorem unregisterListenerByHandle_eq {world : World σ} {manager : Manager}
    {model : ListenerModel} (active : world.singleton = some manager)
    (aligned : manager.Aligned) (member : model ∈ manager.listeners)
    : unregisterListenerByHandle (ν := ν) model.address world
      = some (update (manager.withoutListener model) world, [.unregistered model.address]) := by
  rw [unregisterListenerByHandle, active, Option.bind_some, aligned.find?_address member,
    Option.map_some, aligned.removeCallOperators_all]
  rfl

/-- Whatever registers listeners appends one model at a fresh address. -/
theorem registerListenerImpl_eq_some {model : ListenerModel} {world next : World σ}
    {report : List (Happening ν)}
    (performed : registerListenerImpl model world = some (next, report))
    : ∃ manager,
        world.singleton = some manager
        ∧ model.address ∉ manager.listeners.map ListenerModel.address
        ∧ next = update (manager.withListener model) world
        ∧ report = [.registered model.address] := by
  obtain ⟨manager, active, _⟩ := Option.bind_eq_some_iff.mp performed
  by_cases used : model.address ∈ manager.listeners.map ListenerModel.address
  · rw [registerListenerImpl, active, Option.bind_some, if_pos used] at performed
    cases performed
  · rw [registerListenerImpl_eq active used, Option.some.injEq, Prod.mk.injEq] at performed
    exact ⟨manager, active, used, performed.1.symm, performed.2.symm⟩

/-- Whatever unregisters by pointer removes one model that holds the pointer. -/
theorem unregisterListenerByPointer_eq_some {callable : Listener} {pointer : Pointer}
    {world next : World σ} {manager : Manager} {report : List (Happening ν)}
    (active : world.singleton = some manager) (aligned : manager.Aligned)
    (performed : unregisterListenerByPointer callable pointer world = some (next, report))
    : ∃ model,
        manager.listeners.find? (fun other => other.holds callable pointer) = some model
        ∧ next = update (manager.withoutListener model) world
        ∧ report = [.unregistered model.address] := by
  cases found : manager.listeners.find? (fun other => other.holds callable pointer) with
  | none => simp [unregisterListenerByPointer, active, found] at performed
  | some model =>
      rw [unregisterListenerByPointer_eq active aligned found, Option.some.injEq,
        Prod.mk.injEq] at performed
      exact ⟨model, rfl, performed.1.symm, performed.2.symm⟩

/-- Whatever unregisters by handle removes the registered model at that address. -/
theorem unregisterListenerByHandle_eq_some {handle : Address} {world next : World σ}
    {manager : Manager} {report : List (Happening ν)}
    (active : world.singleton = some manager) (aligned : manager.Aligned)
    (performed : unregisterListenerByHandle handle world = some (next, report))
    : ∃ model ∈ manager.listeners,
        model.address = handle
        ∧ next = update (manager.withoutListener model) world
        ∧ report = [.unregistered handle] := by
  cases found : manager.listeners.find? (fun other => other.address == handle) with
  | none => simp [unregisterListenerByHandle, active, found] at performed
  | some model =>
      have member := List.mem_of_find?_eq_some found
      obtain rfl : model.address = handle := by simpa using List.find?_some found
      rw [unregisterListenerByHandle_eq active aligned member, Option.some.injEq,
        Prod.mk.injEq] at performed
      exact ⟨model, member, rfl, performed.1.symm, performed.2.symm⟩

end Manager

end KokkosUtils.Callbacks
