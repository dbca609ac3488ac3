import KokkosUtils.Callbacks.EventSet
import KokkosUtils.Callbacks.Listener

/-! The Manager: its members, registration, and the dispatch of Kokkos calls and events.
Functions return `none` where the source has undefined behaviour. The callbacks that the
Manager calls are parameters; what each operation called is reported beside its result.
-/

namespace KokkosUtils.Callbacks

open KokkosUtils.Impl

/-- The members of a Manager object. `registeredCallbacks` is the tuple of per-event-type
lists of pointers to listener models.
-/
structure Manager where
  registeredCallbacks : KokkosEventType → List (Option Address) := fun _ => []
  listeners : List ListenerModel := []
  contextCallbacks : EventSet
  nextEventId : EventId := 0
  nextSectionId : SectionId := 0

/-- The state of the process: Kokkos' callback table, the Manager singleton, and the state
of all code outside Kokkos and the Manager.
-/
structure World (σ : Type) where
  callbacks : EventSet
  singleton : Option Manager
  outside : σ

/-- The Manager with its id counters blanked. -/
def Manager.withoutIds (manager : Manager) : Manager :=
  { manager with nextEventId := 0, nextSectionId := 0 }

/-- What only registration, unregistration, initialization and finalization may change:
the callback table and the members of the Manager other than its id counters.
-/
def World.registry {σ : Type} (world : World σ) : EventSet × Option Manager :=
  (world.callbacks, world.singleton.map Manager.withoutIds)

/-- What an operation reports: the invocation of a context callback or of a listener, the
return of a Kokkos call with its out-parameter, the dispatch of an event by a user, an id
handed to a user, and the changes of the set of registered listeners. What happens while a
callback runs is reported as `during`.
-/
inductive Happening (ν : Type)
  | context (function : FunctionPointer) (call : KokkosCall)
  | listener (model : ListenerModel) (event : Event ν)
  | returned (call : KokkosCall)
  | dispatched (event : Event ν)
  | gotEventId (eventId : EventId)
  | gotSectionId (sectionId : SectionId)
  | registered (address : Address)
  | unregistered (address : Address)
  | finalized
  | during (happening : Happening ν)

/-- The callbacks that are not the Manager's: the functions behind the function pointers of
the context, and the call operators of the listeners. They may do anything, including calls
of Kokkos and of the Manager, except registering, unregistering and finalizing; what they
did is reported beside their result.
-/
structure Callees (ν σ : Type) where
  context
    : FunctionPointer → (call : KokkosCall) → World σ
      → World σ × call.Out × List (Happening ν)
  listener : ListenerModel → Event ν → World σ → World σ × List (Happening ν)
  context_registry
    : ∀ function call world, (context function call world).1.registry = world.registry
  listener_registry
    : ∀ model event world, (listener model event world).1.registry = world.registry

variable {ν σ : Type}

/-- Calls a context callback, which leaves a value in the out-parameter of the call. -/
def Callees.callContext (callees : Callees ν σ) (function : FunctionPointer) (call : KokkosCall)
    (world : World σ)
    : World σ × call.Out × List (Happening ν) :=
  let (next, out, report) := callees.context function call world
  (next, out, .context function call :: report.map .during)

/-- Calls the call operator of a listener model. -/
def Callees.callListener (callees : Callees ν σ) (model : ListenerModel) (event : Event ν)
    (world : World σ)
    : World σ × List (Happening ν) :=
  let (next, report) := callees.listener model event world
  (next, .listener model event :: report.map .during)

namespace Manager

/-- `initialize`: the constructor captures Kokkos' callback table. -/
def initializeSingleton (world : World σ) : World σ :=
  match world.singleton with
  | none => { world with singleton := some { contextCallbacks := world.callbacks } }
  | some _ => world

/-- `finalize`: the destructor installs the captured table as a whole. -/
def finalizeSingleton (world : World σ) : World σ :=
  match world.singleton with
  | some manager => { world with callbacks := manager.contextCallbacks, singleton := none }
  | none => world

-----------------------------------------------------------------------------------------
-- Registration
-----------------------------------------------------------------------------------------

/-- `set_dispatching_callback_impl`. -/
def setDispatchingCallbackImpl (manager : Manager) (type : KokkosEventType) (callbacks : EventSet)
    : EventSet :=
  getCallbackSetter type
    (if (manager.registeredCallbacks type).isEmpty then
      getCallbackFromEventset type manager.contextCallbacks
    else
      some (.dispatching type))
    callbacks

/-- `set_dispatching_callbacks`. -/
def setDispatchingCallbacks (manager : Manager) (callbacks : EventSet) : EventSet :=
  forEach eventTypeList manager.setDispatchingCallbackImpl callbacks

/-- Stores the updated Manager and calls its `set_dispatching_callbacks`. -/
def update (manager : Manager) (world : World σ) : World σ :=
  {
    world with
    singleton := some manager
    callbacks := manager.setDispatchingCallbacks world.callbacks
  }

/-- A loop over event types that changes the list of registered callbacks of each type that
`EventTypeList` contains, as registration and unregistration do.
-/
def updateRegisteredCallbacks (types : List EventType)
    (change : KokkosEventType → List (Option Address) → List (Option Address))
    : (KokkosEventType → List (Option Address)) → KokkosEventType → List (Option Address) :=
  forEach types fun type registered =>
    match type.kokkos? with
    | some member => Function.update registered member (change member (registered member))
    | none => registered

/-- The loop of `register_listener_impl`: push a pointer to the new model's call operator. -/
def pushCallOperators (model : ListenerModel)
    : (KokkosEventType → List (Option Address)) → KokkosEventType → List (Option Address) :=
  updateRegisteredCallbacks model.eventTypes fun type pointers =>
    pointers ++ [model.castToCallOperator (.kokkos type)]

/-- `register_listener_impl` for a model that the allocator has placed at its address. -/
def registerListenerImpl (model : ListenerModel) (world : World σ)
    : Option (World σ × List (Happening ν)) :=
  world.singleton.bind fun manager =>
    -- The allocator never returns the address of a model that is still alive.
    if model.address ∈ manager.listeners.map ListenerModel.address then
      none
    else
      some (
        update
          {
            manager with
            listeners := manager.listeners ++ [model]
            registeredCallbacks := pushCallOperators model manager.registeredCallbacks
          }
          world,
        [.registered model.address]
      )

/-- The loops of both `unregister_listener` overloads: `remove` what the cast of the model to
the call operator of each of the given event types yields.
-/
def removeCallOperators (model : ListenerModel) (types : List EventType)
    : (KokkosEventType → List (Option Address)) → KokkosEventType → List (Option Address) :=
  updateRegisteredCallbacks types fun type pointers =>
    pointers.filter (fun pointer => pointer != model.castToCallOperator (.kokkos type))

/-- `unregister_listener(const Callable*)`. If no model holds the pointer, the source
dereferences and erases the end of the listener list.
-/
def unregisterListenerByPointer (callable : Listener) (pointer : Pointer) (world : World σ)
    : Option (World σ × List (Happening ν)) :=
  world.singleton.bind fun manager =>
    (manager.listeners.find? (fun model => model.holds callable pointer)).map fun model =>
      (
        update
          {
            manager with
            listeners :=
              manager.listeners.eraseP (fun model => model.holds callable pointer)
            registeredCallbacks :=
              removeCallOperators model callable.listenerEventTypeList
                manager.registeredCallbacks
          }
          world,
        [.unregistered model.address]
      )

/-- `unregister_listener(const listener_list_const_iter_t&)`. The handle is the position of
the model with the given address; no other handle may be dereferenced.
-/
def unregisterListenerByHandle (handle : Address) (world : World σ)
    : Option (World σ × List (Happening ν)) :=
  world.singleton.bind fun manager =>
    (manager.listeners.find? (fun model => model.address == handle)).map fun model =>
      (
        update
          {
            manager with
            listeners := manager.listeners.eraseP (fun model => model.address == handle)
            registeredCallbacks :=
              removeCallOperators model (eventTypeList.map EventType.kokkos)
                manager.registeredCallbacks
          }
          world,
        [.unregistered model.address]
      )

/-- `get_next_event_id`, the `fetch_add` of the event id counter. -/
def getNextEventId (world : World σ) : Option (World σ × EventId) :=
  world.singleton.map fun manager =>
    (
      { world with singleton := some { manager with nextEventId := manager.nextEventId + 1 } },
      manager.nextEventId
    )

/-- `get_next_section_id`, the `fetch_add` of the section id counter. -/
def getNextSectionId (world : World σ) : Option (World σ × SectionId) :=
  world.singleton.map fun manager =>
    (
      { world with singleton := some { manager with nextSectionId := manager.nextSectionId + 1 } },
      manager.nextSectionId
    )

-----------------------------------------------------------------------------------------
-- Dispatch
-----------------------------------------------------------------------------------------

/-- The overloads of `dispatch_context_callback_for_event_type_impl`: unpack the event into
the arguments of the context callback, which can write the id of the event.
-/
def dispatchContextCallbackForEventTypeImpl (callees : Callees ν σ) (function : FunctionPointer)
    (event : KokkosEvent) (world : World σ)
    : World σ × KokkosEvent × List (Happening ν) :=
  match event with
  | .beginEvent construct name devId eventId =>
      let (next, written, report) :=
        callees.callContext function (.beginEvent construct name devId eventId) world
      (next, .beginEvent construct name devId written, report)
  | .endEvent construct eventId =>
      let call := .endEvent construct eventId
      let (next, _, report) := callees.callContext function call world
      (next, event, report)
  | .dataEvent operation alloc =>
      let call := .dataEvent operation alloc.kpsh alloc.name alloc.ptr alloc.size
      let (next, _, report) := callees.callContext function call world
      (next, event, report)
  | .beginDeepCopyEvent dst src =>
      let call := .beginDeepCopy dst.kpsh dst.name dst.ptr src.kpsh src.name src.ptr src.size
      let (next, _, report) := callees.callContext function call world
      (next, event, report)
  | .endDeepCopyEvent =>
      let (next, _, report) := callees.callContext function .endDeepCopy world
      (next, event, report)
  | .createProfileSectionEvent name sectionId =>
      let (next, written, report) :=
        callees.callContext function (.createProfileSection name sectionId) world
      (next, .createProfileSectionEvent name written, report)
  | .profileSectionManipulationEvent operation sectionId =>
      let call := .profileSectionManipulation operation sectionId
      let (next, _, report) := callees.callContext function call world
      (next, event, report)
  | .pushRegionEvent name =>
      let (next, _, report) := callees.callContext function (.pushRegion name) world
      (next, event, report)
  | .popRegionEvent =>
      let (next, _, report) := callees.callContext function .popRegion world
      (next, event, report)
  | .profileEvent name =>
      let (next, _, report) := callees.callContext function (.profileEvent name) world
      (next, event, report)

/-- The overloads of `increment_id_if_needed_for_event_type_impl`. -/
def incrementIdIfNeededForEventTypeImpl (event : KokkosEvent) (world : World σ)
    : Option (World σ × KokkosEvent) :=
  match event with
  | .beginEvent construct name devId _ =>
      (getNextEventId world).map fun (next, eventId) =>
        (next, .beginEvent construct name devId eventId)
  | .createProfileSectionEvent name _ =>
      (getNextSectionId world).map fun (next, sectionId) =>
        (next, .createProfileSectionEvent name sectionId)
  | _ => some (world, event)

/-- `dispatch_context_callback`. A dispatching function in the context would make the
Manager call itself without end.
-/
def dispatchContextCallback (callees : Callees ν σ) (event : KokkosEvent) (world : World σ)
    : Option (World σ × KokkosEvent × List (Happening ν)) :=
  world.singleton.bind fun manager =>
    match getCallbackFromEventset event.type manager.contextCallbacks with
    | some (.tool function) =>
        some (dispatchContextCallbackForEventTypeImpl callees function event world)
    | some (.dispatching _) => none
    | none =>
        (incrementIdIfNeededForEventTypeImpl event world).map fun (next, numbered) =>
          (next, numbered, [])

/-- The loop of `dispatch_registered_callbacks` over pointers to call operators. A null
pointer, or one to a model that no longer exists, cannot be called.
-/
def callOperators (callees : Callees ν σ) (event : Event ν)
    : List (Option Address) → World σ → Option (World σ × List (Happening ν))
  | [], world => some (world, [])
  | none :: _, _ => none
  | some address :: rest, world =>
      world.singleton.bind fun manager =>
        (manager.listeners.find? (fun model => model.address == address)).bind fun model =>
          let (next, report) := callees.callListener model event world
          (callOperators callees event rest next).map fun (final, reports) =>
            (final, report ++ reports)

/-- `dispatch_registered_callbacks`. -/
def dispatchRegisteredCallbacks (callees : Callees ν σ) (event : KokkosEvent) (world : World σ)
    : Option (World σ × List (Happening ν)) :=
  world.singleton.bind fun manager =>
    callOperators callees (.kokkos event) (manager.registeredCallbacks event.type) world

/-- The private overload `dispatch(EventType&)`: the context callback, then the registered
callbacks with the event that it left.
-/
def dispatchMutable (callees : Callees ν σ) (event : KokkosEvent) (world : World σ)
    : Option (World σ × KokkosEvent × List (Happening ν)) :=
  (dispatchContextCallback callees event world).bind fun (next, numbered, contextReport) =>
    (dispatchRegisteredCallbacks callees numbered next).map fun (final, report) =>
      (final, numbered, contextReport ++ report)

/-- The event that each overload of `create_dispatching_callback_for_event_type_impl` builds
from the arguments of its function; arguments of another signature do not reach it.
-/
def packEvent : KokkosEventType → KokkosCall → Option KokkosEvent
  | .beginEvent construct, .beginEvent _ name devId eventId =>
      some (.beginEvent construct name devId eventId)
  | .endEvent construct, .endEvent _ eventId => some (.endEvent construct eventId)
  | .dataEvent operation, .dataEvent _ kpsh name ptr size =>
      some (.dataEvent operation { kpsh := kpsh, name := name, ptr := ptr, size := size })
  | .beginDeepCopyEvent,
      .beginDeepCopy dstKpsh dstName dstPtr srcKpsh srcName srcPtr size =>
      some
        (.beginDeepCopyEvent
          { kpsh := dstKpsh, name := dstName, ptr := dstPtr, size := size }
          { kpsh := srcKpsh, name := srcName, ptr := srcPtr, size := size })
  | .endDeepCopyEvent, .endDeepCopy => some .endDeepCopyEvent
  | .createProfileSectionEvent, .createProfileSection name sectionId =>
      some (.createProfileSectionEvent name sectionId)
  | .profileSectionManipulationEvent operation, .profileSectionManipulation _ sectionId =>
      some (.profileSectionManipulationEvent operation sectionId)
  | .pushRegionEvent, .pushRegion name => some (.pushRegionEvent name)
  | .popRegionEvent, .popRegion => some .popRegionEvent
  | .profileEvent, .profileEvent name => some (.profileEvent name)
  | _, _ => none

/-- The arguments after a dispatching function has written an id back, which only those of
the begin events and of the create-section event do.
-/
def writeBack : KokkosCall → KokkosEvent → KokkosCall
  | .beginEvent construct name devId _, .beginEvent _ _ _ eventId =>
      .beginEvent construct name devId eventId
  | .createProfileSection name _, .createProfileSectionEvent _ sectionId =>
      .createProfileSection name sectionId
  | call, _ => call

/-- The function made by `create_dispatching_callback_for_event_type_impl`. -/
def createDispatchingCallbackForEventTypeImpl (callees : Callees ν σ) (type : KokkosEventType)
    (call : KokkosCall) (world : World σ)
    : Option (World σ × List (Happening ν)) :=
  (packEvent type call).bind fun event =>
    (dispatchMutable callees event world).map fun (final, dispatched, report) =>
      (final, report ++ [.returned (writeBack call dispatched)])

/-- The loop of the public overload `dispatch(const EventType&) const` over all listeners. -/
def dispatchToListeners (callees : Callees ν σ) (event : Event ν)
    : List ListenerModel → World σ → World σ × List (Happening ν)
  | [], world => (world, [])
  | model :: rest, world =>
      if (model.castToCallOperator event.type).isSome then
        let (next, report) := callees.callListener model event world
        let (final, reports) := dispatchToListeners callees event rest next
        (final, report ++ reports)
      else
        dispatchToListeners callees event rest world

/-- The public overload `dispatch(const EventType&) const`. -/
def dispatch (callees : Callees ν σ) (event : Event ν) (world : World σ)
    : Option (World σ × List (Happening ν)) :=
  world.singleton.map fun manager =>
    dispatchToListeners callees event manager.listeners world

end Manager

end KokkosUtils.Callbacks
