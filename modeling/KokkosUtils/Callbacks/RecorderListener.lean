import KokkosUtils.Callbacks.Delivery
import KokkosUtils.Foundations.Histories

/-! RecorderListener objects, and `record` with the callables that it invokes.
The recorders that `record` makes live in the state outside the Manager. Callables are the
Kokkos and Manager operations they perform, with nested records and exceptions.
-/

namespace KokkosUtils.Callbacks

open KokkosUtils.Foundations KokkosUtils.Impl

variable {ν μ ρ : Type}

/-- An instance of the class template RecorderListener: its event types and its matcher type,
whose objects are default-constructed.
-/
structure RecorderClass (ν μ : Type) where
  name : String
  eventTypes : List EventType
  distinct : eventTypes.Nodup
  matcher : Acceptor (Event ν) μ

/-- The class as a type of listeners, with its `event_type_list_t`. -/
def RecorderClass.listener (recorderClass : RecorderClass ν μ) : Listener :=
  .explicit recorderClass.name recorderClass.eventTypes recorderClass.distinct

/-- A RecorderListener object. -/
structure RecorderListener (ν μ : Type) where
  recorderClass : RecorderClass ν μ
  recordedEvents : List (Event ν) := []
  matcher : μ

namespace RecorderListener

/-- The default constructor. -/
def new (recorderClass : RecorderClass ν μ) : RecorderListener ν μ :=
  { recorderClass := recorderClass, matcher := recorderClass.matcher.start }

/-- `operator()`, which exists for the event types of the class only. -/
def call (recorder : RecorderListener ν μ) (event : Event ν) : RecorderListener ν μ :=
  if typeListContains event.type recorder.recorderClass.eventTypes then
    let (matched, next) := recorder.recorderClass.matcher.step event recorder.matcher
    {
      recorder with
      matcher := next
      recordedEvents :=
        if matched then recorder.recordedEvents ++ [event] else recorder.recordedEvents
    }
  else
    recorder

end RecorderListener

/-- The state outside Kokkos and the Manager: the recorders that calls of `record` keep to
themselves, by their addresses, and everything else.
-/
structure Outside (ν μ ρ : Type) where
  recorders : Pointer → Option (RecorderListener ν μ)
  rest : ρ

/-- Stores, replaces or destroys the recorder at an address. -/
def setRecorder (pointer : Pointer) (recorder : Option (RecorderListener ν μ))
    (world : World (Outside ν μ ρ))
    : World (Outside ν μ ρ) :=
  {
    world with
    outside :=
      {
        world.outside with
        recorders := Function.update world.outside.recorders pointer recorder
      }
  }

/-- The event that a report entry, at any depth, delivers to the object at an address. -/
def Happening.delivered? (pointer : Pointer) : Happening ν → Option (Event ν)
  | .listener model event => if model.sharedPointer = some pointer then some event else none
  | .during happening => happening.delivered? pointer
  | _ => none

/-- The events delivered to the object at an address, in order of delivery. -/
def deliveries (pointer : Pointer) (report : List (Happening ν)) : List (Event ν) :=
  report.filterMap (Happening.delivered? pointer)

/-- The callbacks that are not recorders of `record`. They may raise events of their own, which
reach a recorder by deliveries to it; they change recorders in no other way.
-/
structure Bystanders (ν μ ρ : Type) where
  callees : Callees ν (Outside ν μ ρ)
  context_recorders
    : ∀ function call world pointer recorder,
        world.outside.recorders pointer = some recorder
        → (callees.context function call world).1.outside.recorders pointer
          = some
              ((deliveries pointer (callees.context function call world).2.2).foldl
                RecorderListener.call recorder)
  listener_recorders
    : ∀ model event world pointer recorder,
        world.outside.recorders pointer = some recorder
        → (callees.listener model event world).1.outside.recorders pointer
          = some
              ((deliveries pointer (callees.listener model event world).2).foldl
                RecorderListener.call recorder)

/-- All callbacks: the call operator of a model whose shared pointer holds a recorder calls
that recorder.
-/
def Bystanders.andRecorders (bystanders : Bystanders ν μ ρ) : Callees ν (Outside ν μ ρ) where
  context := bystanders.callees.context
  listener := fun model event world =>
    match model.sharedPointer with
    | some pointer =>
        match world.outside.recorders pointer with
        | some recorder => (setRecorder pointer (some (recorder.call event)) world, [])
        | none => bystanders.callees.listener model event world
    | none => bystanders.callees.listener model event world
  context_registry := bystanders.callees.context_registry
  listener_registry := by
    intro model event world
    split
    · split
      · rfl
      · exact bystanders.callees.listener_registry model event world
    · exact bystanders.callees.listener_registry model event world

/-- What a callable does when it is invoked: operations, calls of `record`, and exceptions,
which it may also catch.
-/
inductive Callable (ν μ : Type)
  | done
  | operation (operation : Operation ν) (next : Callable ν μ)
  | record (recorderClass : RecorderClass ν μ) (pointer : Pointer) (address : Address)
    (callable next : Callable ν μ)
  | throwException
  | tryCatch (body next : Callable ν μ)

/-- Whether an operation names no recorder that a call of `record` keeps to itself. -/
def Operation.sparesRecorders (recorders : Pointer → Option (RecorderListener ν μ))
    : Operation ν → Bool
  | .registerShared _ pointer _ => (recorders pointer).isNone
  | .unregisterByPointer _ pointer => (recorders pointer).isNone
  | _ => true

/-- The beginning of `record`: make a recorder and register it. -/
def beginRecord (recorderClass : RecorderClass ν μ) (pointer : Pointer) (address : Address)
    (world : World (Outside ν μ ρ))
    : Option (World (Outside ν μ ρ) × List (Happening ν)) :=
  -- The allocator never returns the address of an object that is still alive.
  if (world.outside.recorders pointer).isSome
      || world.listeners.any (fun model => model.sharedPointer == some pointer) then
    none
  else
    Manager.registerListenerImpl (.shared recorderClass.listener pointer address)
      (setRecorder pointer (some (.new recorderClass)) world)

/-- The end of `record`: unregister the recorder, move its events out and destroy it. -/
def endRecord (recorderClass : RecorderClass ν μ) (pointer : Pointer)
    (world : World (Outside ν μ ρ))
    : Option (World (Outside ν μ ρ) × List (Happening ν) × List (Event ν)) :=
  (Manager.unregisterListenerByPointer recorderClass.listener pointer world).bind
    fun (next, report) =>
      (next.outside.recorders pointer).map fun recorder =>
        (setRecorder pointer none next, report, recorder.recordedEvents)

/-- `record`. An exception of the callable leaves it before the recorder is unregistered; the
events are then not returned.
-/
def record (recorderClass : RecorderClass ν μ) (pointer : Pointer) (address : Address)
    (callable
      : World (Outside ν μ ρ) → Option (World (Outside ν μ ρ) × List (Happening ν) × Bool))
    (world : World (Outside ν μ ρ))
    : Option (World (Outside ν μ ρ) × List (Happening ν) × Option (List (Event ν))) :=
  (beginRecord recorderClass pointer address world).bind fun (begun, first) =>
    (callable begun).bind fun (ended, body, returns) =>
      if returns then
        (endRecord recorderClass pointer ended).map fun (final, last, events) =>
          (final, first ++ body ++ last, some events)
      else
        some (ended, first ++ body, none)

/-- The result of a callable whose execution goes on after the given report. -/
def goOn (report : List (Happening ν))
    (result : Option (World (Outside ν μ ρ) × List (Happening ν) × Bool))
    : Option (World (Outside ν μ ρ) × List (Happening ν) × Bool) :=
  result.map fun (final, reports, returns) => (final, report ++ reports, returns)

/-- Invokes a callable; the result says whether it returns normally. -/
def invoke (callees : Callees ν (Outside ν μ ρ))
    : Callable ν μ → World (Outside ν μ ρ)
      → Option (World (Outside ν μ ρ) × List (Happening ν) × Bool)
  | .done, world => some (world, [], true)
  | .operation operation next, world =>
      if operation.sparesRecorders world.outside.recorders then
        (perform callees operation world).bind fun (middle, report) =>
          goOn report (invoke callees next middle)
      else
        none
  | .record recorderClass pointer address callable next, world =>
      (record recorderClass pointer address (invoke callees callable) world).bind
        fun (middle, report, events) =>
          match events with
          | none => some (middle, report, false)
          | some _ => goOn report (invoke callees next middle)
  | .throwException, world => some (world, [], false)
  | .tryCatch body next, world =>
      (invoke callees body world).bind fun (middle, report, _) =>
        goOn report (invoke callees next middle)

theorem goOn_eq_some {first report : List (Happening ν)}
    {result : Option (World (Outside ν μ ρ) × List (Happening ν) × Bool)}
    {final : World (Outside ν μ ρ)} {returns : Bool}
    : goOn first result = some (final, report, returns)
      ↔ ∃ later, result = some (final, later, returns) ∧ report = first ++ later := by
  simp only [goOn, Option.map_eq_some_iff, Prod.exists, Prod.mk.injEq]
  constructor
  · rintro ⟨_, later, _, known, rfl, rfl, rfl⟩
    exact ⟨later, known, rfl⟩
  · rintro ⟨later, known, rfl⟩
    exact ⟨final, later, returns, known, rfl, rfl, rfl⟩

end KokkosUtils.Callbacks
