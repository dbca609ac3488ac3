import KokkosUtils.Callbacks.Manager
import KokkosUtils.Foundations.PartialRuns

/-! Runs of a process that uses Kokkos and the Manager.
An operation is a call of Kokkos or of the Manager's interface. What the called callbacks
do in turn is part of the callees; worlds inside a callback are reachable as well.
-/

namespace KokkosUtils.Callbacks

open KokkosUtils.Foundations

variable {ν σ : Type}

/-- A Kokkos profiling function calls its callback unless the pointer is null. -/
def kokkosCall (callees : Callees ν σ) (call : KokkosCall) (world : World σ)
    : Option (World σ × List (Happening ν)) :=
  match world.callbacks call.slot with
  | none => some (world, [.returned call])
  | some (.tool function) =>
      let (next, out, report) := callees.callContext function call world
      some (next, report ++ [.returned (call.leave out)])
  | some (.dispatching type) =>
      Manager.createDispatchingCallbackForEventTypeImpl callees type call world

/-- The free function `dispatch`, which does nothing unless the Manager is initialized. -/
def dispatch (callees : Callees ν σ) (event : Event ν) (world : World σ)
    : Option (World σ × List (Happening ν)) :=
  if world.singleton.isSome then Manager.dispatch callees event world else some (world, [])

/-- The free function `get_next_event_id`, whose id is invalid without a Manager. -/
def getNextEventId (world : World σ) : Option (World σ × EventId) :=
  if world.singleton.isSome then Manager.getNextEventId world else some (world, invalidEventId)

/-- The free function `get_next_section_id`, which presumes a Manager. -/
def getNextSectionId (world : World σ) : Option (World σ × SectionId) :=
  Manager.getNextSectionId world

/-- An operation of the process. Registration names the address that the allocator returns
for the new listener model, and unregistration by handle the address of its model.
-/
inductive Operation (ν : Type)
  | initializeSingleton
  | finalizeSingleton
  | registerShared (callable : Listener) (pointer : Pointer) (address : Address)
  | registerObject (callable : Listener) (address : Address)
  | unregisterByPointer (callable : Listener) (pointer : Pointer)
  | unregisterByHandle (handle : Address)
  | kokkosCall (call : KokkosCall)
  | dispatch (event : Event ν)
  | getNextEventId
  | getNextSectionId

/-- The Kokkos call that an operation is, if it is one. -/
def Operation.kokkosCall? : Operation ν → Option KokkosCall
  | .kokkosCall call => some call
  | _ => none

/-- Whether an operation is meant to change the registry. -/
def Operation.changesRegistry : Operation ν → Bool
  | .kokkosCall _ => false
  | .dispatch _ => false
  | .getNextEventId => false
  | .getNextSectionId => false
  | _ => true

/-- Performs an operation; there is no result if it has undefined behaviour. -/
def perform (callees : Callees ν σ) (operation : Operation ν) (world : World σ)
    : Option (World σ × List (Happening ν)) :=
  match operation with
  | .initializeSingleton => some (Manager.initializeSingleton world, [])
  | .finalizeSingleton => some (Manager.finalizeSingleton world, [.finalized])
  | .registerShared callable pointer address =>
      Manager.registerListenerImpl (.shared callable pointer address) world
  | .registerObject callable address =>
      Manager.registerListenerImpl (.object callable address) world
  | .unregisterByPointer callable pointer =>
      Manager.unregisterListenerByPointer callable pointer world
  | .unregisterByHandle handle => Manager.unregisterListenerByHandle handle world
  | .kokkosCall call => kokkosCall callees call world
  | .dispatch event =>
      (dispatch callees event world).map fun (next, report) => (next, .dispatched event :: report)
  | .getNextEventId =>
      (getNextEventId world).map fun (next, eventId) => (next, [.gotEventId eventId])
  | .getNextSectionId =>
      (getNextSectionId world).map fun (next, sectionId) => (next, [.gotSectionId sectionId])

/-- Callbacks that do nothing. -/
def Callees.quiet : Callees ν σ where
  context := fun _ call world => (world, call.out, [])
  listener := fun _ _ world => (world, [])
  context_registry := fun _ _ _ => rfl
  listener_registry := fun _ _ _ => rfl

/-- Performs operations one after the other. -/
def run (callees : Callees ν σ) : List (Operation ν) → World σ
    → Option (World σ × List (Happening ν)) :=
  runSteps (perform callees)

/-- The callback table that holds the given functions. -/
def toolCallbacks (tools : CallbackSlot → Option FunctionPointer) : EventSet :=
  fun slot => (tools slot).map Callback.tool

/-- The world before the Manager is first initialized, with the callbacks of the context. -/
def World.start (tools : CallbackSlot → Option FunctionPointer) (outside : σ) : World σ :=
  { callbacks := toolCallbacks tools, singleton := none, outside := outside }

/-- The worlds met in runs, between operations or inside a callback. Inside a callback any
change is possible that leaves the registry alone.
-/
inductive Reachable (callees : Callees ν σ) (tools : CallbackSlot → Option FunctionPointer)
    : World σ → Prop
  | start (outside : σ) : Reachable callees tools (World.start tools outside)
  | operation {operation world next report} (before : Reachable callees tools world)
    (performed : perform callees operation world = some (next, report))
    : Reachable callees tools next
  | callback {world next} (before : Reachable callees tools world)
    (frame : next.registry = world.registry)
    : Reachable callees tools next

/-- Runs from the start reach reachable worlds, since each operation does. -/
theorem Reachable.of_run {callees : Callees ν σ} {tools : CallbackSlot → Option FunctionPointer}
    {world final : World σ} {report : List (Happening ν)}
    (before : Reachable callees tools world) (operations : List (Operation ν))
    (ran : run callees operations world = some (final, report))
    : Reachable callees tools final :=
  runSteps_preserves (fun reachable performed => .operation reachable performed) before ran

end KokkosUtils.Callbacks
