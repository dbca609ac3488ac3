import Mathlib.Data.List.TakeWhile
import KokkosUtils.Callbacks.Invariants
import KokkosUtils.Callbacks.Threads
import KokkosUtils.Foundations.Tickets

/-! What a step of a thread can do, and what all steps keep: the world stays consistent, and no
number of a Kokkos call is in flight twice.
-/

namespace KokkosUtils.Callbacks

open KokkosUtils.Foundations

variable {ν σ : Type}

-----------------------------------------------------------------------------------------
-- Cases
-----------------------------------------------------------------------------------------

/-- A step of a thread, by what user code does in it or which frame goes on or returns. -/
inductive ThreadStep (thread : ThreadId) (process : Process ν σ)
    : Action ν → Process ν σ → List (Occurrence ν) → Prop
  | skips (call : KokkosCall) (user : userCodeRuns (process.stackOf thread) = true)
    (unset : process.world.callbacks call.slot = none)
    : ThreadStep thread process (.kokkosCall call) { process with calls := process.calls + 1 }
        [.happened (.returned call)]
  | callsTool (call : KokkosCall) (function : FunctionPointer)
    (user : userCodeRuns (process.stackOf thread) = true)
    (set : process.world.callbacks call.slot = some (.tool function))
    : ThreadStep thread process (.kokkosCall call)
        (({ process with calls := process.calls + 1 }).setStack thread
          (.tool function call :: process.stackOf thread))
        [.happened (.context function call)]
  | enters (call : KokkosCall) (type : KokkosEventType) (event : KokkosEvent)
    (user : userCodeRuns (process.stackOf thread) = true)
    (set : process.world.callbacks call.slot = some (.dispatching type))
    (packed : Manager.packEvent type call = some event)
    : ThreadStep thread process (.kokkosCall call)
        (({ process with calls := process.calls + 1 }).setStack thread
          (.entered process.calls call event :: process.stackOf thread))
        []
  | ignores (event : Event ν) (user : userCodeRuns (process.stackOf thread) = true)
    (idle : process.world.singleton = none)
    : ThreadStep thread process (.dispatch event) process [.happened (.dispatched event)]
  | dispatches (event : Event ν) (user : userCodeRuns (process.stackOf thread) = true)
    (active : process.world.singleton.isSome = true)
    : ThreadStep thread process (.dispatch event)
        (process.setStack thread (.dispatching event none :: process.stackOf thread))
        [.happened (.dispatched event)]
  | performs (operation : Operation ν) (world : World σ) (report : List (Happening ν))
    (user : userCodeRuns (process.stackOf thread) = true) (single : operation.isStep = true)
    (performed : perform Callees.quiet operation process.world = some (world, report))
    : ThreadStep thread process (.perform operation) { process with world := world }
        (report.map .happened)
  | resumes (frame : Frame ν) (outer frames : List (Frame ν)) (world : World σ)
    (shown : List (Occurrence ν)) (stack : process.stackOf thread = frame :: outer)
    (resumed : resumeFrame frame process.world = some (world, frames, shown))
    : ThreadStep thread process .resume
        (({ process with world := world }).setStack thread (frames ++ outer)) shown
  | leaves (answer : (call : KokkosCall) → call.Out) (frame : Frame ν)
    (outer frames : List (Frame ν)) (shown : List (Occurrence ν))
    (stack : process.stackOf thread = frame :: outer)
    (left : leaveFrame answer frame process.world = some (frames, shown))
    : ThreadStep thread process (.leave answer) (process.setStack thread (frames ++ outer)) shown

variable {thread : ThreadId} {process next : Process ν σ} {action : Action ν}
  {shown : List (Occurrence ν)}

/-- These are all steps, by cases on the action. -/
theorem ThreadStep.of_act (acted : act (thread, action) process = some (next, shown))
    : ThreadStep thread process action next shown := by
  cases action with
  | kokkosCall call =>
      simp only [act, Option.ite_none_right_eq_some] at acted
      obtain ⟨user, called⟩ := acted
      unfold Process.kokkosCall at called
      split at called
      · next unset =>
          obtain ⟨rfl, rfl⟩ := Prod.mk.inj (Option.some.inj called)
          exact .skips call user unset
      · next function set =>
          obtain ⟨rfl, rfl⟩ := Prod.mk.inj (Option.some.inj called)
          exact .callsTool call function user set
      · next type set =>
          obtain ⟨event, packed, same⟩ := Option.map_eq_some_iff.mp called
          obtain ⟨rfl, rfl⟩ := Prod.mk.inj same
          exact .enters call type event user set packed
  | dispatch event =>
      simp only [act, Option.ite_none_right_eq_some] at acted
      obtain ⟨user, dispatched⟩ := acted
      split at dispatched
      · next active =>
          obtain ⟨rfl, rfl⟩ := Prod.mk.inj (Option.some.inj dispatched)
          exact .dispatches event user active
      · next idle =>
          obtain ⟨rfl, rfl⟩ := Prod.mk.inj (Option.some.inj dispatched)
          exact .ignores event user (by simpa using idle)
  | perform operation =>
      simp only [act, Option.ite_none_right_eq_some, Bool.and_eq_true] at acted
      obtain ⟨⟨user, single⟩, acted⟩ := acted
      obtain ⟨⟨world, report⟩, performed, same⟩ := Option.map_eq_some_iff.mp acted
      obtain ⟨rfl, rfl⟩ := Prod.mk.inj same
      exact .performs operation world report user single performed
  | resume =>
      cases stack : process.stackOf thread with
      | nil => simp [act, stack] at acted
      | cons frame outer =>
          simp only [act, stack, Option.map_eq_some_iff] at acted
          obtain ⟨⟨world, frames, happened⟩, resumed, same⟩ := acted
          obtain ⟨rfl, rfl⟩ := Prod.mk.inj same
          exact .resumes frame outer frames world happened stack resumed
  | leave answer =>
      cases stack : process.stackOf thread with
      | nil => simp [act, stack] at acted
      | cons frame outer =>
          simp only [act, stack, Option.map_eq_some_iff] at acted
          obtain ⟨⟨frames, happened⟩, left, same⟩ := acted
          obtain ⟨rfl, rfl⟩ := Prod.mk.inj same
          exact .leaves answer frame outer frames happened stack left

/-- A step of a function of the Manager. -/
inductive Resumes (manager : Manager) (world : World σ)
    : Frame ν → World σ → List (Frame ν) → List (Occurrence ν) → Prop
  | asksTool (number : ℕ) (call : KokkosCall) (event : KokkosEvent) (function : FunctionPointer)
    (set : getCallbackFromEventset event.type manager.contextCallbacks = some (.tool function))
    : Resumes manager world (.entered number call event) world
        [.context number call event function] [.happened (.context function call)]
  | numbers (number : ℕ) (call : KokkosCall) (event numbered : KokkosEvent) (next : World σ)
    (unset : getCallbackFromEventset event.type manager.contextCallbacks = none)
    (incremented
      : Manager.incrementIdIfNeededForEventTypeImpl event world = some (next, numbered))
    : Resumes manager world (.entered number call event) next
        [.looping number call numbered none] [.numbered number numbered]
  | returns (number : ℕ) (call : KokkosCall) (event : KokkosEvent) (node : Option Address)
    (finished : nodesAfter id (manager.registeredCallbacks event.type) node = some [])
    : Resumes manager world (.looping number call event node) world []
        [.happened (.returned (Manager.writeBack call event))]
  | delivers (number : ℕ) (call : KokkosCall) (event : KokkosEvent) (node : Option Address)
    (address : Address) (rest : List (Option Address)) (model : ListenerModel)
    (before
      : nodesAfter id (manager.registeredCallbacks event.type) node = some (some address :: rest))
    (found : manager.listeners.find? (fun other => other.address == address) = some model)
    : Resumes manager world (.looping number call event node) world
        [.listening number call event address] [.delivered number model event]
  | finishes (event : Event ν) (node : Option Address)
    : Resumes manager world (.dispatching event node) world [] []
  | attends (event : Event ν) (node : Option Address) (model : ListenerModel)
    (rest : List ListenerModel)
    (before
      : nodesAfter (fun model => some model.address) manager.listeners node = some (model :: rest))
    : Resumes manager world (.dispatching event node) world [.attending event model.address]
        [.happened (.listener model event)]
  | passes (event : Event ν) (node : Option Address) (model : ListenerModel)
    (rest : List ListenerModel)
    (before
      : nodesAfter (fun model => some model.address) manager.listeners node = some (model :: rest))
    : Resumes manager world (.dispatching event node) world
        [.dispatching event (some model.address)] []

variable {world : World σ} {manager : Manager} {frame : Frame ν} {frames : List (Frame ν)}
  {later : World σ}

/-- These are all steps of the Manager's functions, by cases on where the function is. -/
theorem Resumes.of_resumeFrame (active : world.singleton = some manager)
    (resumed : resumeFrame frame world = some (later, frames, shown))
    : Resumes manager world frame later frames shown := by
  rw [resumeFrame, active, Option.bind_some] at resumed
  cases frame with
  | entered number call event =>
      cases context : getCallbackFromEventset event.type manager.contextCallbacks with
      | none =>
          simp only [context, Option.map_eq_some_iff, Prod.mk.injEq, Prod.exists] at resumed
          obtain ⟨moved, numbered, incremented, rfl, rfl, rfl⟩ := resumed
          exact .numbers number call event numbered moved context incremented
      | some callback =>
          cases callback with
          | dispatching type => simp [context] at resumed
          | tool function =>
              simp only [context, Option.some.injEq, Prod.mk.injEq] at resumed
              obtain ⟨rfl, rfl, rfl⟩ := resumed
              exact .asksTool number call event function context
  | looping number call event node =>
      obtain ⟨pointers, here, moved⟩ := Option.bind_eq_some_iff.mp resumed
      rcases pointers with _ | ⟨_ | address, rest⟩
      · obtain ⟨rfl, rfl, rfl⟩ := by simpa using moved
        exact .returns number call event node here
      · cases moved
      · simp only [Option.map_eq_some_iff, Prod.mk.injEq] at moved
        obtain ⟨model, found, rfl, rfl, rfl⟩ := moved
        exact .delivers number call event node address rest model here found
  | dispatching event node =>
      obtain ⟨models, before, moved⟩ := Option.map_eq_some_iff.mp resumed
      cases models with
      | nil =>
          obtain ⟨rfl, rfl, rfl⟩ := by simpa using moved
          exact .finishes event node
      | cons model rest =>
          simp only at moved
          split at moved
          · obtain ⟨rfl, rfl, rfl⟩ := by simpa using moved
            exact .attends event node model rest before
          · obtain ⟨rfl, rfl, rfl⟩ := by simpa using moved
            exact .passes event node model rest before
  | _ => cases resumed

-----------------------------------------------------------------------------------------
-- Invariants
-----------------------------------------------------------------------------------------

/-- The Kokkos call that a dispatching function serves, with its number and its event. -/
def Frame.call? : Frame ν → Option (ℕ × KokkosCall × KokkosEvent)
  | .entered number call event => some (number, call, event)
  | .context number call event _ => some (number, call, event)
  | .looping number call event _ => some (number, call, event)
  | .listening number call event _ => some (number, call, event)
  | _ => none

/-- The number of that call. -/
def Frame.number? (frame : Frame ν) : Option ℕ := frame.call?.map Prod.fst

/-- The numbers of the calls that a thread is inside. -/
def Process.inFlight (process : Process ν σ) (thread : ThreadId) : List ℕ :=
  (process.stackOf thread).filterMap Frame.number?

theorem Process.inFlight_setStack (process : Process ν σ) (thread : ThreadId)
    (stack : List (Frame ν))
    : (process.setStack thread stack).inFlight
      = Function.update process.inFlight thread (stack.filterMap Frame.number?) := by
  funext other
  by_cases same : other = thread
  · subst same
    simp [inFlight, setStack]
  · simp [inFlight, setStack, same]

/-- A function that goes on serves no other call than before. -/
theorem Resumes.number?_eq (resumed : Resumes manager world frame later frames shown)
    : ∀ inner ∈ frames, inner.number? = frame.number? := by
  cases resumed <;> simp [Frame.number?, Frame.call?]

/-- It leaves at most one frame. -/
theorem Resumes.length_le (resumed : Resumes manager world frame later frames shown)
    : frames.length ≤ 1 := by
  cases resumed <;> simp

/-- A callback that returns leaves the function that has called it at the same call. -/
theorem leaveFrame_number?_eq {answer : (call : KokkosCall) → call.Out}
    (left : leaveFrame answer frame world = some (frames, shown))
    : frames.length ≤ 1 ∧ ∀ inner ∈ frames, inner.number? = frame.number? := by
  cases frame with
  | tool function call =>
      obtain ⟨rfl, rfl⟩ := Prod.mk.inj (Option.some.inj left)
      simp
  | context number call event function =>
      obtain ⟨rfl, rfl⟩ := Prod.mk.inj (Option.some.inj left)
      simp [Frame.number?, Frame.call?]
  | listening number call event node =>
      obtain ⟨rfl, rfl⟩ := Prod.mk.inj (Option.some.inj left)
      simp [Frame.number?, Frame.call?]
  | attending event node =>
      obtain ⟨rfl, rfl⟩ := Prod.mk.inj (Option.some.inj left)
      simp [Frame.number?, Frame.call?]
  | _ => cases left

/-- What replaces a frame holds no other number than the frame did. -/
theorem sublist_of_number?_eq {outer : List (Frame ν)} (single : frames.length ≤ 1)
    (same : ∀ inner ∈ frames, inner.number? = frame.number?)
    : ((frames ++ outer).filterMap Frame.number?).Sublist
        ((frame :: outer).filterMap Frame.number?) := by
  match frames with
  | [] => exact (List.sublist_cons_self ..).filterMap _
  | [inner] =>
      have equal := same inner (List.mem_singleton_self inner)
      rw [List.singleton_append, List.filterMap_cons, List.filterMap_cons, equal]
  | _ :: _ :: _ => simp at single

/-- Numbering an event takes at most an id from the Manager. -/
theorem incrementIdIfNeeded_registry {event numbered : KokkosEvent}
    (incremented
      : Manager.incrementIdIfNeededForEventTypeImpl event world = some (later, numbered))
    : later.registry = world.registry ∧ numbered.type = event.type := by
  cases event with
  | beginEvent construct name devId eventId =>
      obtain ⟨⟨_, _⟩, taken, same⟩ := Option.map_eq_some_iff.mp incremented
      obtain ⟨rfl, rfl⟩ := Prod.mk.inj same
      obtain ⟨manager, active, equal⟩ := Option.map_eq_some_iff.mp taken
      obtain ⟨rfl, -⟩ := Prod.mk.inj equal
      exact ⟨by simp [World.registry, active, Manager.withoutIds], rfl⟩
  | createProfileSectionEvent name sectionId =>
      obtain ⟨⟨_, _⟩, taken, same⟩ := Option.map_eq_some_iff.mp incremented
      obtain ⟨rfl, rfl⟩ := Prod.mk.inj same
      exact ⟨(getNextSectionId_kept taken).1, rfl⟩
  | _ =>
      obtain ⟨rfl, rfl⟩ := Prod.mk.inj (Option.some.inj incremented)
      exact ⟨rfl, rfl⟩

/-- A step of a function of the Manager keeps the registry. -/
theorem Resumes.registry (resumed : Resumes manager world frame later frames shown)
    : later.registry = world.registry := by
  cases resumed with
  | numbers number call event numbered next unset incremented =>
      exact (incrementIdIfNeeded_registry incremented).1
  | _ => rfl

/-- The pointers that the Manager has for an event type. -/
def World.pointers (world : World σ) (type : KokkosEventType) : List (Option Address) :=
  (world.listeners.filter (fun model => model.handles (.kokkos type))).map
    (fun model => some model.address)

/-- A list of listeners after some have been unregistered, which has been reported, and some have
been registered at free addresses.
-/
def Relists (listeners next : List ListenerModel) (report : List (Happening ν)) : Prop :=
  ∃ (keep : Address → Bool) (added : List ListenerModel),
    next = listeners.filter (fun model => keep model.address) ++ added
    ∧ (∀ model ∈ added, model.address ∉ listeners.map ListenerModel.address)
    ∧ ∀ address, keep address = false → .unregistered address ∈ report

section

variable {listeners : List ListenerModel} {happened : List (Happening ν)}

theorem Relists.nothing (report : List (Happening ν)) : Relists listeners listeners report :=
  ⟨fun _ => true, [], by simp, nofun, nofun⟩

theorem Relists.registered {model : ListenerModel} (report : List (Happening ν))
    (fresh : model.address ∉ listeners.map ListenerModel.address)
    : Relists listeners (listeners ++ [model]) report :=
  ⟨fun _ => true, [model], by simp, fun _ member => List.mem_singleton.mp member ▸ fresh, nofun⟩

theorem Relists.unregistered {model : ListenerModel}
    (distinct : (listeners.map ListenerModel.address).Nodup)
    : Relists (ν := ν) listeners
        (listeners.eraseP (fun other => other.address == model.address))
        [.unregistered model.address] := by
  refine ⟨fun address => address != model.address, [], ?_, nofun, ?_⟩
  · rw [List.append_nil, eraseP_eq_filter distinct]
  · intro address removed
    rw [bne_eq_false_iff_eq.mp removed]
    exact List.mem_singleton_self _

/-- An operation that is a single step relists the listeners of a Manager, by cases on the
operation.
-/
theorem World.Consistent.perform_relists {tools : CallbackSlot → Option FunctionPointer}
    {callees : Callees ν σ} {operation : Operation ν} (consistent : world.Consistent tools)
    (initialized : world.singleton.isSome = true) (single : operation.isStep = true)
    (performed : perform callees operation world = some (later, happened))
    : later.singleton.isSome = true
      ∧ Relists world.listeners later.listeners happened := by
  have sameRegistry (unchanging : operation.changesRegistry = false)
      : later.singleton.isSome = true
        ∧ Relists world.listeners later.listeners happened := by
    have frame := consistent.perform_registry performed unchanging
    obtain ⟨manager, active⟩ := Option.isSome_iff_exists.mp initialized
    obtain ⟨current, still, -⟩ := World.singleton_of_registry frame active
    refine ⟨Option.isSome_of_eq_some still, ?_⟩
    rw [World.listeners_of_registry frame]
    exact .nothing happened
  cases operation with
  | initializeSingleton =>
      obtain ⟨manager, active⟩ := Option.isSome_iff_exists.mp initialized
      have same : Manager.initializeSingleton world = world := by
        rw [Manager.initializeSingleton, active]
      obtain ⟨rfl, rfl⟩ := Prod.mk.inj (Option.some.inj performed)
      rw [same]
      exact ⟨initialized, .nothing _⟩
  | registerShared callable pointer address =>
      obtain ⟨fresh, -, relisted⟩ := consistent.registerListenerImpl performed
      exact ⟨relisted.initialized, relisted.listeners_eq ▸ .registered _ fresh⟩
  | registerObject callable address =>
      obtain ⟨fresh, -, relisted⟩ := consistent.registerListenerImpl performed
      exact ⟨relisted.initialized, relisted.listeners_eq ▸ .registered _ fresh⟩
  | unregisterByPointer callable pointer =>
      obtain ⟨model, -, rfl, relisted⟩ := consistent.unregisterListenerByPointer performed
      exact ⟨relisted.initialized,
        relisted.listeners_eq ▸ .unregistered consistent.addresses⟩
  | unregisterByHandle handle =>
      obtain ⟨model, -, -, rfl, relisted⟩ := consistent.unregisterListenerByHandle performed
      exact ⟨relisted.initialized,
        relisted.listeners_eq ▸ .unregistered consistent.addresses⟩
  | getNextEventId => exact sameRegistry rfl
  | getNextSectionId => exact sameRegistry rfl
  | kokkosCall call => cases single
  | dispatch event => cases single
  | finalizeSingleton => cases single

end

/-- A world that is consistent with the callbacks of the context, with an initialized Manager, and
calls in flight that have distinct numbers.
-/
structure Process.Sound (tools : CallbackSlot → Option FunctionPointer) (process : Process ν σ)
    : Prop where
  consistent : process.world.Consistent tools
  initialized : process.world.singleton.isSome = true
  tickets : Tickets process.inFlight process.calls

/-- What a step reports of the Manager itself. -/
def Occurrence.happening? : Occurrence ν → Option (Happening ν)
  | .happened happening => some happening
  | _ => none

variable {tools : CallbackSlot → Option FunctionPointer}

/-- What a step does to the listeners: it relists them as it reports, and keeps all else sound. -/
theorem Process.Sound.step (sound : process.Sound tools)
    (stepped : ThreadStep thread process action next shown)
    : next.Sound tools
      ∧ Relists process.world.listeners next.world.listeners
          (shown.filterMap Occurrence.happening?) := by
  obtain ⟨consistent, initialized, tickets⟩ := sound
  cases stepped with
  | skips call user unset =>
      exact ⟨⟨consistent, initialized, tickets.skip⟩, .nothing _⟩
  | callsTool call function user set =>
      refine ⟨⟨consistent, initialized, ?_⟩, .nothing _⟩
      rw [Process.inFlight_setStack]
      exact (tickets.giveBack (List.Sublist.refl _)).skip
  | enters call type event user set packed =>
      refine ⟨⟨consistent, initialized, ?_⟩, .nothing _⟩
      rw [Process.inFlight_setStack]
      exact tickets.draw thread
  | ignores event user idle => exact ⟨⟨consistent, initialized, tickets⟩, .nothing _⟩
  | dispatches event user active =>
      refine ⟨⟨consistent, initialized, ?_⟩, .nothing _⟩
      rw [Process.inFlight_setStack]
      exact tickets.giveBack (List.Sublist.refl _)
  | performs operation world report user single performed =>
      obtain ⟨still, relists⟩ :=
        consistent.perform_relists initialized single performed
      have same : (report.map .happened).filterMap Occurrence.happening? = report := by
        simp [List.filterMap_map, Function.comp_def, Occurrence.happening?]
      exact ⟨⟨consistent.of_perform performed, still, tickets⟩, same.symm ▸ relists⟩
  | resumes frame outer frames world shown stack resumed =>
      obtain ⟨manager, active⟩ := Option.isSome_iff_exists.mp initialized
      have moved := Resumes.of_resumeFrame active resumed
      obtain ⟨current, still, -⟩ := World.singleton_of_registry moved.registry active
      refine ⟨⟨consistent.of_registry moved.registry, Option.isSome_of_eq_some still, ?_⟩, ?_⟩
      · rw [Process.inFlight_setStack]
        refine tickets.giveBack ?_
        rw [Process.inFlight, stack]
        exact sublist_of_number?_eq moved.length_le moved.number?_eq
      · have same : world.listeners = process.world.listeners :=
          World.listeners_of_registry moved.registry
        simp only [Process.setStack, same]
        exact .nothing _
  | leaves answer frame outer frames shown stack left =>
      obtain ⟨single, same⟩ := leaveFrame_number?_eq left
      refine ⟨⟨consistent, initialized, ?_⟩, .nothing _⟩
      rw [Process.inFlight_setStack]
      refine tickets.giveBack ?_
      rw [Process.inFlight, stack]
      exact sublist_of_number?_eq single same

/-- At first no call is in flight. -/
theorem Process.Sound.start (outside : σ)
    (frames : ThreadId → List (FunctionPointer × KokkosCall))
    : (Process.initialized (toolCallbacks tools) outside frames : Process ν σ).Sound tools where
  consistent := (World.Consistent.start outside).initializeSingleton
  initialized := rfl
  tickets := by
    have idle
        : (Process.initialized (toolCallbacks tools) outside frames : Process ν σ).inFlight
          = fun _ => [] := by
      funext thread
      simp [Process.inFlight, Process.initialized, List.filterMap_map, Function.comp_def,
        Frame.number?, Frame.call?]
    exact idle ▸ .none 0

/-- All states that threads reach are sound. -/
theorem Process.Sound.interleave {schedule : List (ThreadId × Action ν)}
    {report : List (Occurrence ν)} (sound : process.Sound tools)
    (ran : interleave schedule process = some (next, report))
    : next.Sound tools :=
  runSteps_preserves (fun sound acted => (sound.step (.of_act acted)).1) sound ran

/-- The call of the frame on top of a stack is in flight. -/
theorem Process.mem_inFlight_of_top {top : Frame ν} {outer : List (Frame ν)} {number : ℕ}
    (stack : process.stackOf thread = top :: outer) (onTop : top.number? = some number)
    : number ∈ process.inFlight thread := by
  rw [inFlight, stack, List.filterMap_cons_some onTop]
  exact List.mem_cons_self

/-- A frame with the number of the frame on top of a stack is that frame. -/
theorem Process.Sound.eq_top (sound : process.Sound tools) {top : Frame ν} {outer : List (Frame ν)}
    {number : ℕ} (stack : process.stackOf thread = top :: outer) (onTop : top.number? = some number)
    {other : ThreadId} (member : frame ∈ process.stackOf other) (same : frame.number? = some number)
    : other = thread ∧ frame = top := by
  have here := Process.mem_inFlight_of_top stack onTop
  obtain rfl := sound.tickets.holder_unique (List.mem_filterMap.mpr ⟨frame, member, same⟩) here
  refine ⟨rfl, ?_⟩
  have distinct := sound.tickets.distinct other
  rw [Process.inFlight, stack, List.filterMap_cons_some onTop, List.nodup_cons] at distinct
  rw [stack, List.mem_cons] at member
  exact member.resolve_right fun below =>
    distinct.1 (List.mem_filterMap.mpr ⟨frame, below, same⟩)

/-- Without the frame on top of a stack, its number is in flight no more. -/
theorem Process.Sound.gone (sound : process.Sound tools) {top : Frame ν} {outer : List (Frame ν)}
    {number : ℕ} (stack : process.stackOf thread = top :: outer) (onTop : top.number? = some number)
    (world : World σ) (other : ThreadId)
    : number ∉ (({ process with world := world }).setStack thread outer).inFlight other := by
  intro member
  obtain ⟨frame, inside, same⟩ := List.mem_filterMap.mp member
  by_cases here : other = thread
  · subst here
    have distinct := sound.tickets.distinct other
    rw [Process.inFlight, stack, List.filterMap_cons_some onTop, List.nodup_cons] at distinct
    simp only [Process.setStack, Function.update_self] at inside
    exact distinct.1 (List.mem_filterMap.mpr ⟨frame, inside, same⟩)
  · simp only [Process.setStack, Function.update_of_ne here] at inside
    exact here (sound.eq_top stack onTop inside same).1

/-- A call in flight after a step was in flight before it, or it is the one made in the step. -/
theorem ThreadStep.mem_inFlight (sound : process.Sound tools)
    (stepped : ThreadStep thread process action next shown) {number : ℕ} {other : ThreadId}
    (member : number ∈ next.inFlight other)
    : number ∈ process.inFlight other ∨ number = process.calls := by
  cases stepped with
  | skips call user unset => exact .inl member
  | callsTool call function user set =>
      rw [Process.inFlight_setStack] at member
      exact .inl (Tickets.mem_of_mem_update (List.Sublist.refl _) member)
  | enters call type event user set packed =>
      rw [Process.inFlight_setStack] at member
      exact (Tickets.mem_drawn member).symm.imp_right And.right
  | ignores event user idle => exact .inl member
  | dispatches event user active =>
      rw [Process.inFlight_setStack] at member
      exact .inl (Tickets.mem_of_mem_update (List.Sublist.refl _) member)
  | performs operation world report user single performed => exact .inl member
  | resumes frame outer frames world shown stack resumed =>
      obtain ⟨manager, active⟩ := Option.isSome_iff_exists.mp sound.initialized
      have moved := Resumes.of_resumeFrame active resumed
      have fewer
          : ((frames ++ outer).filterMap Frame.number?).Sublist (process.inFlight thread) := by
        rw [Process.inFlight, stack]
        exact sublist_of_number?_eq moved.length_le moved.number?_eq
      rw [Process.inFlight_setStack] at member
      exact .inl (Tickets.mem_of_mem_update fewer member)
  | leaves answer frame outer frames shown stack left =>
      obtain ⟨single, same⟩ := leaveFrame_number?_eq left
      rw [Process.inFlight_setStack] at member
      refine .inl (Tickets.mem_of_mem_update ?_ member)
      rw [Process.inFlight, stack]
      exact sublist_of_number?_eq single same

/-- Whether an action replaces the frame on top of the stack of its thread. -/
def Action.replacesTop : Action ν → Bool
  | .resume => true
  | .leave _ => true
  | _ => false

/-- A step leaves all frames where they are but the one that it replaces. -/
theorem ThreadStep.mem_stackOf (stepped : ThreadStep thread process action next shown)
    {other : ThreadId} (member : frame ∈ process.stackOf other)
    (below
      : action.replacesTop = true
        → ∀ outer, other = thread → process.stackOf thread ≠ frame :: outer)
    : frame ∈ next.stackOf other := by
  have onTop {stack : List (Frame ν)} {world : World σ} {calls : ℕ}
      (kept : other = thread → frame ∈ stack)
      : frame ∈ (({ process with world := world, calls := calls } : Process ν σ).setStack thread
          stack).stackOf other := by
    by_cases here : other = thread
    · simpa only [here, Process.setStack, Function.update_self] using kept here
    · simpa only [Process.setStack, Function.update_of_ne here] using member
  cases stepped with
  | skips call user unset => exact member
  | callsTool call function user set =>
      exact onTop fun here => List.mem_cons_of_mem _ (here ▸ member)
  | enters call type event user set packed =>
      exact onTop fun here => List.mem_cons_of_mem _ (here ▸ member)
  | ignores event user idle => exact member
  | dispatches event user active =>
      exact onTop fun here => List.mem_cons_of_mem _ (here ▸ member)
  | performs operation world report user single performed => exact member
  | resumes top outer frames world shown stack resumed =>
      refine onTop fun here => List.mem_append_right _ ?_
      rw [here, stack, List.mem_cons] at member
      exact member.resolve_left fun same => below rfl outer here (same ▸ stack)
  | leaves answer top outer frames shown stack left =>
      refine onTop fun here => List.mem_append_right _ ?_
      rw [here, stack, List.mem_cons] at member
      exact member.resolve_left fun same => below rfl outer here (same ▸ stack)

end KokkosUtils.Callbacks
