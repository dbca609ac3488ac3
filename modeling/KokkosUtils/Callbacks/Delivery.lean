import KokkosUtils.Callbacks.Consistency

/-! Delivery of Kokkos calls and dispatched events to the registered listeners.
In a consistent world each dispatching function first lets the context or the Manager give
the call its id and then notifies the listeners of its event type one after the other.
-/

namespace KokkosUtils.Callbacks

variable {ν σ : Type}

/-- Calls the call operators of listeners one after the other with one event. -/
def notifyAll (callees : Callees ν σ) (event : Event ν)
    : List ListenerModel → World σ → World σ × List (Happening ν)
  | [], world => (world, [])
  | model :: rest, world =>
      let (next, report) := callees.callListener model event world
      let (final, reports) := notifyAll callees event rest next
      (final, report ++ reports)

/-- The listener invocation that a report entry stands for; what happened inside a callback
is not an invocation by the reporting operation.
-/
def Happening.invocation? : Happening ν → Option (ListenerModel × Event ν)
  | .listener model event => some (model, event)
  | _ => none

/-- The listeners that an operation invoked, with the events they saw. -/
def invocations (report : List (Happening ν)) : List (ListenerModel × Event ν) :=
  report.filterMap Happening.invocation?

@[simp] theorem invocations_append (left right : List (Happening ν))
    : invocations (left ++ right) = invocations left ++ invocations right :=
  List.filterMap_append

variable (callees : Callees ν σ) (event : Event ν)

@[simp] theorem callListener_registry (model : ListenerModel) (world : World σ)
    : (callees.callListener model event world).1.registry = world.registry :=
  callees.listener_registry model event world

@[simp] theorem callContext_registry (function : FunctionPointer) (call : KokkosCall)
    (world : World σ)
    : (callees.callContext function call world).1.registry = world.registry :=
  callees.context_registry function call world

theorem callContext_out (function : FunctionPointer) (call : KokkosCall) (world : World σ)
    : (callees.callContext function call world).2.1
      = (callees.context function call world).2.1 :=
  rfl

/-- A view that does not show what happens inside callbacks shows at most the invocation. -/
theorem callContext_filterMap {α : Type} (view : Happening ν → Option α)
    (during : ∀ happening, view (.during happening) = none) (function : FunctionPointer)
    (call : KokkosCall) (world : World σ)
    : (callees.callContext function call world).2.2.filterMap view
      = (view (.context function call)).toList := by
  cases shown : view (.context function call) <;>
    simp [Callees.callContext, during, shown]

/-- Notification keeps the registry, since each listener does. -/
theorem notifyAll_registry (models : List ListenerModel) (world : World σ)
    : (notifyAll callees event models world).1.registry = world.registry := by
  induction models generalizing world with
  | nil => rfl
  | cons model rest ih => exact (ih _).trans (callListener_registry callees event model world)

/-- Notification invokes each listener of the list once, in order, with the one event. -/
theorem notifyAll_invocations (models : List ListenerModel) (world : World σ)
    : invocations (notifyAll callees event models world).2
      = models.map (fun model => (model, event)) := by
  induction models generalizing world with
  | nil => rfl
  | cons model rest ih =>
      rw [notifyAll, invocations_append, ih, List.map_cons]
      simp [Callees.callListener, invocations, Happening.invocation?, List.filterMap_map,
        Function.comp_def]

/-- A view that shows neither listeners nor what happens inside callbacks shows nothing of a
notification.
-/
theorem notifyAll_filterMap {α : Type} (view : Happening ν → Option α)
    (listener : ∀ model event, view (.listener model event) = none)
    (during : ∀ happening, view (.during happening) = none)
    (models : List ListenerModel) (world : World σ)
    : (notifyAll callees event models world).2.filterMap view = [] := by
  induction models generalizing world with
  | nil => rfl
  | cons model rest ih =>
      rw [notifyAll, List.filterMap_append, ih, List.append_nil]
      simp [Callees.callListener, listener, during]

namespace Manager

/-- The scan of all listeners notifies those that handle the event's type. -/
theorem dispatchToListeners_eq (models : List ListenerModel) (world : World σ)
    : dispatchToListeners callees event models world
      = notifyAll callees event (models.filter (fun model => model.handles event.type)) world := by
  induction models generalizing world with
  | nil => rfl
  | cons model rest ih =>
      rw [dispatchToListeners, ListenerModel.castToCallOperator]
      by_cases handled : model.handles event.type = true <;> simp [handled, notifyAll, ih]

end Manager

variable {tools : CallbackSlot → Option FunctionPointer}

/-- The loop over pointers to registered models notifies these models: whatever a listener
does, the remaining pointers still point to registered models.
-/
theorem World.Consistent.callOperators_eq {world : World σ} (consistent : world.Consistent tools)
    {models : List ListenerModel} (registered : ∀ model ∈ models, model ∈ world.listeners)
    : Manager.callOperators callees event (models.map (fun model => some model.address)) world
      = some (notifyAll callees event models world) := by
  induction models generalizing world with
  | nil => rfl
  | cons model rest ih =>
      obtain ⟨manager, active, member⟩ := World.mem_listeners.mp (registered model (by simp))
      have frame := callListener_registry callees event model world
      have remaining : ∀ other ∈ rest,
          other ∈ (callees.callListener model event world).1.listeners := by
        intro other otherMember
        rw [World.listeners_of_registry frame]
        exact registered other (List.mem_cons_of_mem _ otherMember)
      simp only [List.map_cons, Manager.callOperators, active, Option.bind_some,
        (consistent.active active).aligned.find?_address member,
        ih (consistent.of_registry frame) remaining, Option.map_some, notifyAll]

/-- The registered callbacks of an event's type are the listeners that handle the type. -/
theorem World.Consistent.dispatchRegisteredCallbacks_eq {world : World σ} {manager : Manager}
    (consistent : world.Consistent tools) (active : world.singleton = some manager)
    (event : KokkosEvent)
    : Manager.dispatchRegisteredCallbacks callees event world
      = some
          (notifyAll callees (.kokkos event)
            (world.listeners.filter (fun model => model.handles (.kokkos event.type)))
            world) := by
  rw [Manager.dispatchRegisteredCallbacks, active, Option.bind_some,
    consistent.registeredCallbacks_eq active]
  exact consistent.callOperators_eq callees _ (fun model member => List.mem_of_mem_filter member)

/-- The free function `dispatch` notifies the listeners that handle the event's type. -/
theorem dispatch_eq (world : World σ)
    : dispatch callees event world
      = some
          (notifyAll callees event
            (world.listeners.filter (fun model => model.handles event.type)) world) := by
  unfold dispatch
  cases known : world.singleton with
  | none => rw [World.listeners, known]; rfl
  | some manager =>
      simp only [Option.isSome_some, if_true, Manager.dispatch, known, Option.map_some,
        Manager.dispatchToListeners_eq, World.listeners_eq known]

namespace Manager

/-- The value that the Manager leaves in the out-parameter of a call: the next event id for a
begin event and the next section id for the creation of a section.
-/
def nextOut (manager : Manager) : (call : KokkosCall) → call.Out
  | .beginEvent .. => manager.nextEventId
  | .createProfileSection .. => manager.nextSectionId
  | .endEvent .. => ()
  | .dataEvent .. => ()
  | .beginDeepCopy .. => ()
  | .endDeepCopy => ()
  | .profileSectionManipulation .. => ()
  | .pushRegion .. => ()
  | .popRegion => ()
  | .profileEvent .. => ()

/-- The Manager after it has given a call its next id. -/
def afterNextOut (manager : Manager) (call : KokkosCall) : Manager :=
  match call with
  | .beginEvent .. => { manager with nextEventId := manager.nextEventId + 1 }
  | .createProfileSection .. => { manager with nextSectionId := manager.nextSectionId + 1 }
  | _ => manager

@[simp] theorem afterNextOut_withoutIds (manager : Manager) (call : KokkosCall)
    : (manager.afterNextOut call).withoutIds = manager.withoutIds := by
  cases call <;> rfl

/-- Giving the event of a call its id, if its type needs one, gives the call the next id. -/
theorem incrementIdIfNeededForEventTypeImpl_eq {world : World σ} {manager : Manager}
    (active : world.singleton = some manager) (call : KokkosCall)
    : incrementIdIfNeededForEventTypeImpl call.event world
      = some
          (
            { world with singleton := some (manager.afterNextOut call) },
            (call.leave (manager.nextOut call)).event
          ) := by
  obtain ⟨callbacks, singleton, outside⟩ := world
  subst active
  cases call <;> rfl

/-- Unpacking the event of a call restores the arguments of the call. -/
theorem dispatchContextCallbackForEventTypeImpl_eq (function : FunctionPointer)
    (call : KokkosCall) (world : World σ)
    : dispatchContextCallbackForEventTypeImpl callees function call.event world
      = let (next, out, report) := callees.callContext function call world
        (next, (call.leave out).event, report) := by
  cases call <;> rfl

/-- A dispatching function called with its own signature packs the event of the call. -/
theorem packEvent_type (call : KokkosCall) : packEvent call.type call = some call.event := by
  cases call <;> rfl

/-- The id that a call's event carries in the end is written back into the call. -/
theorem writeBack_leave (call : KokkosCall) (out : call.Out)
    : writeBack call (call.leave out).event = call.leave out := by
  cases call <;> rfl

end Manager

/-- What a dispatching function does before it notifies listeners: it calls the callback of
the context if there is one, and otherwise takes the id of the call from the Manager.
-/
def answerCall (callees : Callees ν σ) (context : Option FunctionPointer) (manager : Manager)
    (call : KokkosCall) (world : World σ)
    : World σ × call.Out × List (Happening ν) :=
  match context with
  | some function => callees.callContext function call world
  | none =>
      (
        { world with singleton := some (manager.afterNextOut call) },
        manager.nextOut call,
        []
      )

/-- Answering a call keeps the registry; it can only take an id from the Manager. -/
theorem answerCall_registry {world : World σ} {manager : Manager}
    (active : world.singleton = some manager) (context : Option FunctionPointer)
    (call : KokkosCall)
    : (answerCall callees context manager call world).1.registry = world.registry := by
  cases context with
  | some function => exact callContext_registry callees function call world
  | none => simp [answerCall, World.registry, active]

/-- The context dispatch of a Kokkos event answers the call that the event stands for. -/
theorem World.Consistent.dispatchContextCallback_eq {world : World σ} {manager : Manager}
    (consistent : world.Consistent tools) (active : world.singleton = some manager)
    (call : KokkosCall)
    : Manager.dispatchContextCallback callees call.event world
      = let (next, out, report) := answerCall callees (tools call.slot) manager call world
        some (next, (call.leave out).event, report) := by
  have captured : getCallbackFromEventset call.event.type manager.contextCallbacks
      = (tools call.slot).map .tool := by
    rw [(consistent.active active).context, KokkosCall.event_type]
    rfl
  rw [Manager.dispatchContextCallback, active, Option.bind_some, captured]
  cases tools call.slot with
  | none =>
      rw [Option.map_none]
      simp only [Manager.incrementIdIfNeededForEventTypeImpl_eq active, Option.map_some,
        answerCall]
  | some function =>
      simp only [Option.map_some, answerCall,
        Manager.dispatchContextCallbackForEventTypeImpl_eq]

/-- A call that a listener handles is answered first; then the listeners of its event type
are notified of the event with the id of the answer, which Kokkos gets back.
-/
theorem World.Consistent.kokkosCall_eq_of_handled {world : World σ} {manager : Manager}
    (consistent : world.Consistent tools) (active : world.singleton = some manager)
    {call : KokkosCall}
    (handled : world.listeners.filter (fun model => model.handles (.kokkos call.type)) ≠ [])
    : kokkosCall callees call world
      = let (next, out, report) := answerCall callees (tools call.slot) manager call world
        let (final, reports) :=
          notifyAll callees (.kokkos (call.leave out).event)
            (world.listeners.filter (fun model => model.handles (.kokkos call.type))) next
        some (final, report ++ reports ++ [.returned (call.leave out)]) := by
  have installed : world.callbacks call.slot = some (.dispatching call.type) := by
    rw [KokkosCall.slot, consistent.callbacks_eq, if_neg (by simpa using handled)]
  have frame := answerCall_registry callees active (tools call.slot) call
  obtain ⟨current, still, -⟩ := World.singleton_of_registry frame active
  have notified := (consistent.of_registry frame).dispatchRegisteredCallbacks_eq callees still
    (call.leave (answerCall callees (tools call.slot) manager call world).2.1).event
  rw [World.listeners_of_registry frame, KokkosCall.event_type, KokkosCall.leave_type] at notified
  simp only [kokkosCall, installed, Manager.createDispatchingCallbackForEventTypeImpl,
    Manager.packEvent_type, Option.bind_some, Manager.dispatchMutable,
    consistent.dispatchContextCallback_eq callees active, notified, Option.map_some,
    Manager.writeBack_leave]

/-- A call that no listener handles goes to the callback of the context, if there is one. -/
theorem World.Consistent.kokkosCall_eq_of_unhandled {world : World σ}
    (consistent : world.Consistent tools) {call : KokkosCall}
    (unhandled : world.listeners.filter (fun model => model.handles (.kokkos call.type)) = [])
    : kokkosCall callees call world
      = match tools call.slot with
        | some function =>
            let (next, out, report) := callees.callContext function call world
            some (next, report ++ [.returned (call.leave out)])
        | none => some (world, [.returned call]) := by
  have installed : world.callbacks call.slot = (tools call.slot).map .tool := by
    rw [KokkosCall.slot, consistent.callbacks_eq, if_pos (by simp [unhandled])]
    rfl
  rw [kokkosCall, installed]
  cases tools call.slot <;> rfl

/-- With a callback of the context, the call goes to it once; then the listeners that handle
the event type, if there are any, see the event of the call as the context left it.
-/
theorem World.Consistent.kokkosCall_eq_of_context {world : World σ}
    (consistent : world.Consistent tools) {call : KokkosCall} {function : FunctionPointer}
    (context : tools call.slot = some function)
    : kokkosCall callees call world
      = let called := callees.callContext function call world
        let event := .kokkos (call.leave called.2.1).event
        let notified :=
          notifyAll callees event
            (world.listeners.filter (fun model => model.handles (.kokkos call.type))) called.1
        some (notified.1, called.2.2 ++ notified.2 ++ [.returned (call.leave called.2.1)]) := by
  by_cases handled :
      world.listeners.filter (fun model => model.handles (.kokkos call.type)) = []
  · simp only [consistent.kokkosCall_eq_of_unhandled callees handled, context, handled, notifyAll,
      List.append_nil]
  · obtain ⟨model, member⟩ := List.exists_mem_of_ne_nil _ handled
    obtain ⟨manager, active, -⟩ := World.mem_listeners.mp (List.mem_of_mem_filter member)
    simp only [consistent.kokkosCall_eq_of_handled callees active handled, context, answerCall]

/-- Without a callback of the context, an installed callback is a dispatching function: the
listeners that handle the event type see the call with the next id of the Manager.
-/
theorem World.Consistent.kokkosCall_eq_of_no_context {world : World σ}
    (consistent : world.Consistent tools) {call : KokkosCall} {callback : Callback}
    (context : tools call.slot = none) (installed : world.callbacks call.slot = some callback)
    : ∃ manager,
        world.singleton = some manager
        ∧ kokkosCall callees call world
          = let out := manager.nextOut call
            let notified :=
              notifyAll callees (.kokkos (call.leave out).event)
                (world.listeners.filter (fun model => model.handles (.kokkos call.type)))
                { world with singleton := some (manager.afterNextOut call) }
            some (notified.1, notified.2 ++ [.returned (call.leave out)]) := by
  have handled :
      world.listeners.filter (fun model => model.handles (.kokkos call.type)) ≠ [] := by
    intro unhandled
    rw [KokkosCall.slot, consistent.callbacks_eq, if_pos (by simp [unhandled]), toolCallbacks,
      ← KokkosCall.slot, context] at installed
    cases installed
  obtain ⟨model, member⟩ := List.exists_mem_of_ne_nil _ handled
  obtain ⟨manager, active, -⟩ := World.mem_listeners.mp (List.mem_of_mem_filter member)
  refine ⟨manager, active, ?_⟩
  simp only [consistent.kokkosCall_eq_of_handled callees active handled, context, answerCall,
    List.nil_append]

/-- A Kokkos call is answered, by the context or without it, and then the listeners that handle
its event type are notified of the event that Kokkos gets back in the arguments of the call.
-/
theorem World.Consistent.kokkosCall_cases {world next : World σ} {call : KokkosCall}
    {report : List (Happening ν)} (consistent : world.Consistent tools)
    (performed : kokkosCall callees call world = some (next, report))
    : ∃ answered first out notified,
        (next, notified)
          = notifyAll callees (.kokkos (call.leave out).event)
              (world.listeners.filter (fun model => model.handles (.kokkos call.type))) answered
        ∧ report = first ++ notified ++ [.returned (call.leave out)]
        ∧ ((∃ function, (answered, out, first) = callees.callContext function call world)
          ∨ (first = []
            ∧ answered.outside = world.outside
            ∧ answered.registry = world.registry)) := by
  cases context : tools call.slot with
  | some function =>
      rw [consistent.kokkosCall_eq_of_context callees context] at performed
      obtain ⟨rfl, rfl⟩ := Prod.mk.inj (Option.some.inj performed)
      exact ⟨_, _, _, _, rfl, rfl, .inl ⟨function, rfl⟩⟩
  | none =>
      cases installed : world.callbacks call.slot with
      | some callback =>
          obtain ⟨manager, active, called⟩ :=
            consistent.kokkosCall_eq_of_no_context callees context installed
          rw [called] at performed
          obtain ⟨rfl, rfl⟩ := Prod.mk.inj (Option.some.inj performed)
          refine ⟨_, [], _, _, rfl, rfl, .inr ⟨rfl, rfl, ?_⟩⟩
          simp [World.registry, active]
      | none =>
          rw [kokkosCall, installed] at performed
          obtain ⟨rfl, rfl⟩ := Prod.mk.inj (Option.some.inj performed)
          have unhandled :
              world.listeners.filter (fun model => model.handles (.kokkos call.type)) = [] := by
            by_contra handled
            rw [KokkosCall.slot, consistent.callbacks_eq, if_neg (by simpa using handled)]
              at installed
            cases installed
          rw [unhandled]
          exact ⟨world, [], call.out, [], rfl, by simp, .inr ⟨rfl, rfl, rfl⟩⟩

/-- The report of a Kokkos call: the listeners that it invoked, and for a view that shows no
invocations the arguments that Kokkos gets back.
-/
theorem World.Consistent.kokkosCall_report {world next : World σ} {call : KokkosCall}
    {report : List (Happening ν)} (consistent : world.Consistent tools)
    (performed : kokkosCall callees call world = some (next, report))
    : ∃ out,
        invocations report
          = (world.listeners.filter (fun model => model.handles (.kokkos call.type))).map
              (fun model => (model, .kokkos (call.leave out).event))
        ∧ ∀ {α : Type} (view : Happening ν → Option α),
            (∀ function call, view (.context function call) = none)
            → (∀ model event, view (.listener model event) = none)
            → (∀ happening, view (.during happening) = none)
            → report.filterMap view = (view (.returned (call.leave out))).toList := by
  obtain ⟨answered, first, out, notified, equal, rfl, answer⟩ :=
    consistent.kokkosCall_cases callees performed
  have answering : ∀ {α : Type} (view : Happening ν → Option α),
      (∀ function call, view (.context function call) = none)
      → (∀ happening, view (.during happening) = none)
      → first.filterMap view = [] := by
    intro α view context during
    rcases answer with ⟨function, equal⟩ | ⟨rfl, -, -⟩
    · have shown : first = (callees.callContext function call world).2.2 :=
        congrArg (fun answer => answer.2.2) equal
      rw [shown, callContext_filterMap callees view during, context]
      rfl
    · rfl
  have shown : notified = (notifyAll callees (.kokkos (call.leave out).event) _ answered).2 :=
    congrArg Prod.snd equal
  refine ⟨out, ?_, ?_⟩
  · rw [invocations_append, invocations_append, shown, notifyAll_invocations, invocations,
      answering _ (fun _ _ => rfl) (fun _ => rfl)]
    simp [invocations, Happening.invocation?]
  · intro α view context listener during
    rw [List.filterMap_append, List.filterMap_append, answering view context during, shown,
      notifyAll_filterMap callees _ view listener during]
    cases returned : view (.returned (call.leave out)) <;> simp [returned]

/-- In a consistent world each Kokkos call is defined and keeps the registry. -/
theorem World.Consistent.kokkosCall_defined {world : World σ} (consistent : world.Consistent tools)
    (call : KokkosCall)
    : ∃ next report,
        kokkosCall callees call world = some (next, report)
        ∧ next.registry = world.registry := by
  by_cases handled :
      world.listeners.filter (fun model => model.handles (.kokkos call.type)) = []
  · rw [consistent.kokkosCall_eq_of_unhandled callees handled]
    cases tools call.slot with
    | none => exact ⟨_, _, rfl, rfl⟩
    | some function => exact ⟨_, _, rfl, callContext_registry callees function call world⟩
  · obtain ⟨model, member⟩ := List.exists_mem_of_ne_nil _ handled
    obtain ⟨manager, active, -⟩ := World.mem_listeners.mp (List.mem_of_mem_filter member)
    rw [consistent.kokkosCall_eq_of_handled callees active handled]
    have answered := answerCall_registry callees active (tools call.slot) call
    exact ⟨_, _, rfl, (notifyAll_registry callees _ _ _).trans answered⟩

end KokkosUtils.Callbacks
