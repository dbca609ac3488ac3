import KokkosUtils.Callbacks.Deliveries
import KokkosUtils.Foundations.Brokers

/-! The Manager as a broker between those who raise events and the listeners.
Behind the per-type lists, the callback table and the dispatching functions, whole runs deliver
what a broker delivers that knows of subscriptions only.
-/

namespace KokkosUtils.Callbacks

open KokkosUtils.Foundations

variable {ν σ : Type} {tools : CallbackSlot → Option FunctionPointer}

/-- A command to a broker of events whose subscribers are listener models. -/
abbrev ListenerCommand (ν : Type) : Type := BrokerCommand ListenerModel (Event ν)

/-- What a listener model wants of a broker: the events of its types. -/
def ListenerModel.wants (model : ListenerModel) (event : Event ν) : Bool :=
  model.handles event.type

/-- What an operation on the set of listeners asks of a broker; finalization destroys all. -/
def Operation.subscription? : Operation ν → Option (ListenerCommand ν)
  | .registerShared callable pointer address =>
      some (.subscribe (.shared callable pointer address))
  | .registerObject callable address => some (.subscribe (.object callable address))
  | .unregisterByPointer callable pointer =>
      some (.unsubscribe fun model => model.holds callable pointer)
  | .unregisterByHandle handle => some (.unsubscribe fun model => model.address == handle)
  | .finalizeSingleton => some .clear
  | _ => none

/-- The event that an operation raises, with the arguments that it is given. -/
def Operation.event? : Operation ν → Option (Event ν)
  | .kokkosCall call => some (.kokkos call.event)
  | .dispatch event => some event
  | _ => none

/-- The commands that some operations amount to: those that raise an event publish the next of the
given events, which have the ids that the calls were answered with.
-/
def brokerCommands : List (Operation ν) → List (Event ν) → List (ListenerCommand ν)
  | [], _ => []
  | operation :: rest, raised =>
      match operation.event?, raised with
      | some _, event :: others => .publish event :: brokerCommands rest others
      | some _, [] => brokerCommands rest []
      | none, _ => operation.subscription?.toList ++ brokerCommands rest raised

/-- The event with an id that the answer to a call may replace blanked. -/
def KokkosEvent.withoutId : KokkosEvent → KokkosEvent
  | .beginEvent construct name devId _ => .beginEvent construct name devId invalidEventId
  | .createProfileSectionEvent name _ => .createProfileSectionEvent name 0
  | event => event

/-- The event with such an id blanked; custom events keep the ids that their users give them. -/
def Event.withoutId : Event ν → Event ν
  | .kokkos event => .kokkos event.withoutId
  | .custom type value => .custom type value

@[simp] theorem Event.withoutId_type (event : Event ν) : event.withoutId.type = event.type := by
  rcases event with event | ⟨type, value⟩
  · cases event <;> rfl
  · rfl

/-- The answer to a call changes no more of its event than such an id. -/
theorem KokkosCall.leave_withoutId (call : KokkosCall) (out : call.Out)
    : (call.leave out).event.withoutId = call.event.withoutId := by
  cases call <;> rfl

/-- The commands that some operations amount to, up to ids. -/
def Operation.command? (operation : Operation ν) : Option (ListenerCommand ν) :=
  (operation.event?.map fun event => .publish event.withoutId).or operation.subscription?

variable {callees : Callees ν σ}

/-- An operation either raises one event, which it delivers as a broker does, or does to the
listeners what a broker does to its subscribers.
-/
theorem World.Consistent.perform_command {operation : Operation ν} {world next : World σ}
    {report : List (Happening ν)} (consistent : world.Consistent tools)
    (performed : perform callees operation world = some (next, report))
    : (∃ given event,
        operation.event? = some given
        ∧ event.withoutId = given.withoutId
        ∧ raisedEvents report = [event]
        ∧ next.listeners = world.listeners
        ∧ invocations report
          = (BrokerCommand.publish event).deliver ListenerModel.wants world.listeners)
      ∨ (operation.event? = none
        ∧ raisedEvents report = []
        ∧ next.listeners
          = (operation.subscription?.elim world.listeners
              (fun command => command.update world.listeners))
        ∧ invocations report = []) := by
  have listed : operation.changesRegistry = false → next.listeners = world.listeners :=
    fun unchanging =>
      World.listeners_of_registry (consistent.perform_registry performed unchanging)
  cases operation with
  | kokkosCall call =>
      obtain ⟨out, invoked, shown⟩ := consistent.kokkosCall_report callees performed
      have same := congrArg (Event.kokkos (ν := ν)) (call.leave_withoutId out)
      refine .inl ⟨_, .kokkos (call.leave out).event, rfl, same, ?_, listed rfl, ?_⟩
      · exact shown Happening.raised? (fun _ _ => rfl) (fun _ _ => rfl) fun _ => rfl
      · simp only [invoked, BrokerCommand.deliver, ListenerModel.wants, Event.type_kokkos,
          KokkosCall.event_type, KokkosCall.leave_type]
  | dispatch event =>
      obtain ⟨⟨_, notified⟩, dispatched, equal⟩ := Option.map_eq_some_iff.mp performed
      obtain ⟨rfl, rfl⟩ := Prod.mk.inj equal
      rw [dispatch_eq, Option.some.injEq] at dispatched
      have shown := congrArg Prod.snd dispatched
      subst shown
      refine .inl ⟨_, event, rfl, rfl, ?_, listed rfl, ?_⟩
      · have silent := notifyAll_filterMap callees event Happening.raised? (fun _ _ => rfl)
          (fun _ => rfl) (world.listeners.filter (fun model => model.handles event.type)) world
        simp [raisedEvents, Happening.raised?, silent]
      · have told := notifyAll_invocations callees event
          (world.listeners.filter (fun model => model.handles event.type)) world
        exact told
  | initializeSingleton =>
      obtain ⟨rfl, rfl⟩ := Prod.mk.inj (Option.some.inj performed)
      refine .inr ⟨rfl, rfl, ?_, rfl⟩
      unfold Manager.initializeSingleton
      cases known : world.singleton <;> simp [Operation.subscription?, World.listeners, known]
  | finalizeSingleton =>
      obtain ⟨rfl, rfl⟩ := Prod.mk.inj (Option.some.inj performed)
      refine .inr ⟨rfl, rfl, ?_, rfl⟩
      unfold Manager.finalizeSingleton
      cases known : world.singleton <;>
        simp [Operation.subscription?, BrokerCommand.update, World.listeners, known]
  | registerShared callable pointer address =>
      obtain ⟨-, rfl, relisted⟩ := consistent.registerListenerImpl performed
      exact .inr ⟨rfl, rfl, relisted.listeners_eq, rfl⟩
  | registerObject callable address =>
      obtain ⟨-, rfl, relisted⟩ := consistent.registerListenerImpl performed
      exact .inr ⟨rfl, rfl, relisted.listeners_eq, rfl⟩
  | unregisterByPointer callable pointer =>
      obtain ⟨model, found, rfl, relisted⟩ := consistent.unregisterListenerByPointer performed
      refine .inr ⟨rfl, rfl, ?_, rfl⟩
      exact relisted.listeners_eq.trans (eraseP_of_find? consistent.addresses found).symm
  | unregisterByHandle handle =>
      obtain ⟨model, -, rfl, rfl, relisted⟩ := consistent.unregisterListenerByHandle performed
      exact .inr ⟨rfl, rfl, relisted.listeners_eq, rfl⟩
  | getNextEventId =>
      obtain ⟨⟨_, _⟩, taken, equal⟩ := Option.map_eq_some_iff.mp performed
      obtain ⟨rfl, rfl⟩ := Prod.mk.inj equal
      exact .inr ⟨rfl, rfl, listed rfl, rfl⟩
  | getNextSectionId =>
      obtain ⟨⟨_, _⟩, taken, equal⟩ := Option.map_eq_some_iff.mp performed
      obtain ⟨rfl, rfl⟩ := Prod.mk.inj equal
      exact .inr ⟨rfl, rfl, listed rfl, rfl⟩

@[simp] theorem raisedEvents_append (left right : List (Happening ν))
    : raisedEvents (left ++ right) = raisedEvents left ++ raisedEvents right :=
  List.filterMap_append

/-- A run does to the listeners, and delivers to them, what a broker does that performs the commands
of the run, by induction on the operations.
-/
theorem World.Consistent.run_commands {operations : List (Operation ν)} {world final : World σ}
    {report : List (Happening ν)} (consistent : world.Consistent tools)
    (ran : run callees operations world = some (final, report))
    : (raisedEvents report).map Event.withoutId
        = operations.filterMap (fun operation => operation.event?.map Event.withoutId)
      ∧ (final.listeners, invocations report)
        = runBroker ListenerModel.wants (brokerCommands operations (raisedEvents report))
            world.listeners := by
  induction operations generalizing world report with
  | nil =>
      obtain ⟨rfl, rfl⟩ := Prod.mk.inj (Option.some.inj ran)
      exact ⟨rfl, rfl⟩
  | cons operation rest ih =>
      obtain ⟨next, first, later, performed, remaining, rfl⟩ := runSteps_cons_eq_some.mp ran
      obtain ⟨shown, brokered⟩ := ih (consistent.of_perform performed) remaining
      have listeners := congrArg Prod.fst brokered
      have invoked := congrArg Prod.snd brokered
      dsimp only at listeners invoked
      rw [raisedEvents_append, invocations_append, listeners, invoked]
      rcases consistent.perform_command performed with
        ⟨given, event, raises, same, raised, listed, delivered⟩ | ⟨raises, raised, listed, silent⟩
      · constructor
        · rw [raised, List.map_append, shown, List.filterMap_cons_some (by rw [raises]; rfl)]
          exact congrArg (· :: _) same
        · simp only [raised, brokerCommands, raises, List.singleton_append, runBroker_cons, listed,
            delivered, BrokerCommand.update]
      · constructor
        · rw [raised, List.map_append, shown, List.filterMap_cons_none (by rw [raises]; rfl)]
          rfl
        · rw [raised, silent, listed]
          cases asked : operation.subscription? with
          | none => simp [brokerCommands, raises, asked]
          | some command =>
              have quiet : command.deliver ListenerModel.wants world.listeners = [] := by
                cases operation <;> cases asked <;> rfl
              simp [brokerCommands, raises, asked, quiet]

/-- The Manager refines a broker. Over any run, from any reachable world and whatever the callbacks
do, short of registering, unregistering and finalizing, the listeners and all their invocations are
those of a broker to which the operations subscribe and unsubscribe, and which publishes each raised
event once, in order, with the id that the call was answered with. Events that callbacks raise while
they run are not counted.
-/
theorem Reachable.run_refines_broker {operations : List (Operation ν)} {world final : World σ}
    {report : List (Happening ν)} (reachable : Reachable callees tools world)
    (ran : run callees operations world = some (final, report))
    : (final.listeners, invocations report)
        = runBroker ListenerModel.wants (brokerCommands operations (raisedEvents report))
            world.listeners
      ∧ (raisedEvents report).map Event.withoutId
        = operations.filterMap (fun operation => operation.event?.map Event.withoutId) :=
  (reachable.consistent.run_commands ran).symm

/-- A listener of kernels. -/
private def kernels : Listener :=
  .explicit "Kernels" [.kokkos .beginParallelForEvent, .kokkos .beginParallelReduceEvent]
    (by decide)

/-- Two listeners, the first of which is unregistered before the second kernel starts. -/
private def twoListeners : List (Operation Unit) :=
  [
    .initializeSingleton,
    .registerObject kernels 1,
    .registerShared kernels 9 2,
    .kokkosCall (.beginEvent .parallelFor "axpy" 0 0),
    .unregisterByHandle 1,
    .kokkosCall (.beginEvent .parallelFor "scal" 0 0)
  ]

/-- The broker delivers the first kernel to both listeners and the second to one. -/
theorem run_refines_broker_kernels
    : ∃ (final : World Unit) (report : List (Happening Unit)),
        run Callees.quiet twoListeners (.start (fun _ => none) ()) = some (final, report)
        ∧ (invocations report).map (fun invocation => invocation.1.address) = [1, 2, 2]
        ∧ (final.listeners, invocations report)
          = runBroker ListenerModel.wants (brokerCommands twoListeners (raisedEvents report)) []
    := by
  have ran
      : run Callees.quiet twoListeners (.start (fun _ => none) ()) = some (_, _) := rfl
  have refined := Reachable.run_refines_broker (.start ()) ran
  exact ⟨_, _, ran, rfl, refined.1⟩

/-- The commands of a run, with the ids of their events blanked, are those of its operations. -/
theorem brokerCommands_withoutId {operations : List (Operation ν)} {raised : List (Event ν)}
    (shown
      : raised.map Event.withoutId
        = operations.filterMap (fun operation => operation.event?.map Event.withoutId))
    : (brokerCommands operations raised).map (BrokerCommand.mapMessage Event.withoutId)
      = operations.filterMap Operation.command? := by
  induction operations generalizing raised with
  | nil => rfl
  | cons operation rest ih =>
      cases raises : operation.event? with
      | some given =>
          rw [List.filterMap_cons_some (by rw [raises]; rfl)] at shown
          obtain ⟨event, others, rfl, same, remaining⟩ := List.map_eq_cons_iff.mp shown
          have command : operation.command? = some (.publish given.withoutId) := by
            rw [Operation.command?, raises]
            rfl
          rw [List.filterMap_cons_some command, ← ih remaining, ← same]
          simp [brokerCommands, raises, BrokerCommand.mapMessage]
      | none =>
          rw [List.filterMap_cons_none (by rw [raises]; rfl)] at shown
          have command : operation.command? = operation.subscription? := by
            rw [Operation.command?, raises]
            rfl
          cases asked : operation.subscription? with
          | none =>
              rw [List.filterMap_cons_none (command.trans asked), ← ih shown]
              simp [brokerCommands, raises, asked]
          | some order =>
              rw [List.filterMap_cons_some (command.trans asked), ← ih shown]
              have kept : order.mapMessage Event.withoutId = order := by
                cases operation <;> cases asked <;> rfl
              simp [brokerCommands, raises, asked, kept]

/-- Up to ids, what a run does to the listeners and delivers to them depends on its operations only,
and neither on the context nor on what the callbacks do.
-/
theorem World.Consistent.run_commands_withoutId {operations : List (Operation ν)}
    {world final : World σ} {report : List (Happening ν)} (consistent : world.Consistent tools)
    (ran : run callees operations world = some (final, report))
    : (final.listeners, (invocations report).map (Prod.map id Event.withoutId))
      = runBroker ListenerModel.wants (operations.filterMap Operation.command?)
          world.listeners := by
  obtain ⟨shown, brokered⟩ := consistent.run_commands ran
  have sameWants
      : ∀ (model : ListenerModel) (event : Event ν),
          model.wants event.withoutId = model.wants event := by
    intro model event
    rw [ListenerModel.wants, Event.withoutId_type, ListenerModel.wants]
  rw [← brokerCommands_withoutId shown, runBroker_mapMessage sameWants, ← brokered]

end KokkosUtils.Callbacks
