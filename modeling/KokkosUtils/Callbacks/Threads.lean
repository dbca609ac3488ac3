import KokkosUtils.Callbacks.Runs

/-! Threads that call Kokkos and the Manager at the same time. Each thread has a stack of the
functions that it is inside, and a step of a run is a step of one thread. The dispatch functions of
the Manager are cut at their accesses to what the threads share; the `fetch_add` of a counter is one
such step. Registration and unregistration take no lock for the lists that they change, so that the
program has to serialize them: each takes place as a whole between steps of the other threads.
-/

namespace KokkosUtils.Callbacks

open KokkosUtils.Foundations

variable {ν σ : Type}

/-- A thread of the process. -/
abbrev ThreadId := ℕ

/-- A function that a thread is inside, and where it is there. The Kokkos calls are numbered in
the order in which they are made, and each frame of a dispatching function carries the number of
its call. The node of a loop is the one that it has last called.
-/
inductive Frame (ν : Type)
  | tool (function : FunctionPointer) (call : KokkosCall)
  | entered (number : ℕ) (call : KokkosCall) (event : KokkosEvent)
  | context (number : ℕ) (call : KokkosCall) (event : KokkosEvent) (function : FunctionPointer)
  | looping (number : ℕ) (call : KokkosCall) (event : KokkosEvent) (node : Option Address)
  | listening (number : ℕ) (call : KokkosCall) (event : KokkosEvent) (node : Address)
  | dispatching (event : Event ν) (node : Option Address)
  | attending (event : Event ν) (node : Address)

/-- The state of the process, with the stack of each thread and the number of Kokkos calls that
have been made.
-/
structure Process (ν σ : Type) where
  world : World σ
  stackOf : ThreadId → List (Frame ν)
  calls : ℕ

/-- What happens in a step: something that happens in runs without threads as well, or one of
the stages of a numbered Kokkos call. The Manager numbers its event, or a context callback has
left an id in it, and then it is delivered.
-/
inductive Occurrence (ν : Type)
  | happened (happening : Happening ν)
  | numbered (number : ℕ) (event : KokkosEvent)
  | answered (number : ℕ) (event : KokkosEvent)
  | delivered (number : ℕ) (model : ListenerModel) (event : KokkosEvent)

/-- What a thread does in a step. User code, which is all code but that of the Manager, calls
Kokkos, dispatches an event or performs another operation; the function on top of the stack goes
on, if it is the Manager's; or it returns, if it is user code, and leaves an answer in the
out-parameter that it has.
-/
inductive Action (ν : Type)
  | kokkosCall (call : KokkosCall)
  | dispatch (event : Event ν)
  | perform (operation : Operation ν)
  | resume
  | leave (answer : (call : KokkosCall) → call.Out)

/-- Whether an operation is a single step, as a serialized registration is. Calls and dispatches
have their own actions, and finalization ends the life of a Manager.
-/
def Operation.isStep : Operation ν → Bool
  | .kokkosCall _ => false
  | .dispatch _ => false
  | .finalizeSingleton => false
  | _ => true

/-- Callbacks that only leave an answer. -/
def Callees.answering (answer : (call : KokkosCall) → call.Out) : Callees ν σ where
  context := fun _ call world => (world, answer call, [])
  listener := fun _ _ world => (world, [])
  context_registry := (Callees.quiet : Callees ν σ).context_registry
  listener_registry := (Callees.quiet : Callees ν σ).listener_registry

/-- Whether user code runs on a thread: outside all functions, in a tool or in a listener. -/
def userCodeRuns : List (Frame ν) → Bool
  | [] => true
  | .tool .. :: _ => true
  | .context .. :: _ => true
  | .listening .. :: _ => true
  | .attending .. :: _ => true
  | _ => false

/-- The nodes that a loop has before it. The iterator of a node that has been erased may not be
used.
-/
def nodesAfter {α : Type} (address : α → Option Address) (nodes : List α)
    : Option Address → Option (List α)
  | none => some nodes
  | some node =>
      match nodes.dropWhile (fun other => address other != some node) with
      | [] => none
      | _ :: rest => some rest

/-- A step of a function of the Manager, with the frames that replace its own. -/
def resumeFrame (frame : Frame ν) (world : World σ)
    : Option (World σ × List (Frame ν) × List (Occurrence ν)) :=
  world.singleton.bind fun manager =>
    match frame with
    | .entered number call event =>
        match getCallbackFromEventset event.type manager.contextCallbacks with
        | some (.tool function) =>
            some (
              world,
              [.context number call event function],
              [.happened (.context function call)]
            )
        | some (.dispatching _) => none
        | none =>
            (Manager.incrementIdIfNeededForEventTypeImpl event world).map fun (next, numbered) =>
              (next, [.looping number call numbered none], [.numbered number numbered])
    | .looping number call event node =>
        (nodesAfter id (manager.registeredCallbacks event.type) node).bind fun pointers =>
          match pointers with
          | [] =>
              some (world, [], [.happened (.returned (Manager.writeBack call event))])
          | none :: _ => none
          | some address :: _ =>
              (manager.listeners.find? (fun model => model.address == address)).map fun model =>
                (
                  world,
                  [.listening number call event address],
                  [.delivered number model event]
                )
    | .dispatching event node =>
        (nodesAfter (fun model => some model.address) manager.listeners node).map fun models =>
          match models with
          | [] => (world, [], [])
          | model :: _ =>
              if (model.castToCallOperator event.type).isSome then
                (world, [.attending event model.address], [.happened (.listener model event)])
              else
                (world, [.dispatching event (some model.address)], [])
    | _ => none

/-- An event as a context callback leaves it. -/
def answeredEvent (answer : (call : KokkosCall) → call.Out) (function : FunctionPointer)
    (event : KokkosEvent) (world : World σ)
    : KokkosEvent :=
  (Manager.dispatchContextCallbackForEventTypeImpl (Callees.answering answer : Callees Unit σ)
    function event world).2.1

/-- The return of a callback, with the frames that replace its own. -/
def leaveFrame (answer : (call : KokkosCall) → call.Out) (frame : Frame ν) (world : World σ)
    : Option (List (Frame ν) × List (Occurrence ν)) :=
  match frame with
  | .tool _ call => some ([], [.happened (.returned (call.leave (answer call)))])
  | .context number call event function =>
      let answered := answeredEvent answer function event world
      some ([.looping number call answered none], [.answered number answered])
  | .listening number call event node => some ([.looping number call event (some node)], [])
  | .attending event node => some ([.dispatching event (some node)], [])
  | _ => none

/-- Gives a thread another stack. -/
def Process.setStack (process : Process ν σ) (thread : ThreadId) (stack : List (Frame ν))
    : Process ν σ :=
  { process with stackOf := Function.update process.stackOf thread stack }

/-- A Kokkos profiling function on a thread calls its callback unless the pointer is null. -/
def Process.kokkosCall (thread : ThreadId) (call : KokkosCall) (process : Process ν σ)
    : Option (Process ν σ × List (Occurrence ν)) :=
  let stack := process.stackOf thread
  let counted := { process with calls := process.calls + 1 }
  match process.world.callbacks call.slot with
  | none => some (counted, [.happened (.returned call)])
  | some (.tool function) =>
      some (
        counted.setStack thread (.tool function call :: stack),
        [.happened (.context function call)]
      )
  | some (.dispatching type) =>
      (Manager.packEvent type call).map fun event =>
        (counted.setStack thread (.entered process.calls call event :: stack), [])

/-- A step of a thread; there is no result if it has undefined behaviour or if the thread is not
where it can make this step. A serialized registration or unregistration is one step.
-/
def act : ThreadId × Action ν → Process ν σ → Option (Process ν σ × List (Occurrence ν))
  | (thread, action), process =>
      let stack := process.stackOf thread
      match action, stack with
      | .kokkosCall call, _ =>
          if userCodeRuns stack then process.kokkosCall thread call else none
      | .dispatch event, _ =>
          if userCodeRuns stack then
            if process.world.singleton.isSome then
              some (
                process.setStack thread (.dispatching event none :: stack),
                [.happened (.dispatched event)]
              )
            else
              some (process, [.happened (.dispatched event)])
          else
            none
      | .perform operation, _ =>
          if userCodeRuns stack && operation.isStep then
            (perform Callees.quiet operation process.world).map fun (next, report) =>
              ({ process with world := next }, report.map .happened)
          else
            none
      | .resume, frame :: outer =>
          (resumeFrame frame process.world).map fun (next, frames, shown) =>
            ({ process with world := next }.setStack thread (frames ++ outer), shown)
      | .leave answer, frame :: outer =>
          (leaveFrame answer frame process.world).map fun (frames, shown) =>
            (process.setStack thread (frames ++ outer), shown)
      | _, [] => none

/-- The process once the Manager is initialized with the callbacks of the context. Threads may be
inside functions of the tools at that time.
-/
def Process.initialized (callbacks : EventSet) (outside : σ)
    (tools : ThreadId → List (FunctionPointer × KokkosCall))
    : Process ν σ :=
  {
    world :=
      Manager.initializeSingleton
        { callbacks := callbacks, singleton := none, outside := outside }
    stackOf := fun thread => (tools thread).map (fun (function, call) => .tool function call)
    calls := 0
  }

/-- Performs the steps of the threads in the order of a schedule. -/
def interleave : List (ThreadId × Action ν) → Process ν σ
    → Option (Process ν σ × List (Occurrence ν)) :=
  runSteps act

end KokkosUtils.Callbacks
