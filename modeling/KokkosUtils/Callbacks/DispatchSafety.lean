import Mathlib.Algebra.Order.Ring.Nat
import KokkosUtils.Callbacks.ConcurrentDelivery
import KokkosUtils.Callbacks.Identifiers
import KokkosUtils.Foundations.BoundedRuns

/-! Dispatch loops of several threads while listeners come and go, each by a serialized registration
or unregistration. A loop can go on as long as the listener at whose node it stands stays
registered, and it needs no other thread for that.
-/

namespace KokkosUtils.Callbacks

open KokkosUtils.Foundations

variable {ν σ : Type} {tools : CallbackSlot → Option FunctionPointer}

-----------------------------------------------------------------------------------------
-- Iterators
-----------------------------------------------------------------------------------------

/-- An iterator over objects is one over their addresses. -/
theorem nodesAfter_map {α : Type} (address : α → Option Address) (nodes : List α)
    (node : Option Address)
    : nodesAfter id (nodes.map address) node
      = (nodesAfter address nodes node).map (List.map address) := by
  cases node with
  | none => rfl
  | some here =>
      simp only [nodesAfter, List.dropWhile_map, Function.comp_def, id_eq]
      cases nodes.dropWhile (fun other => address other != some here) <;> rfl

/-- An iterator is invalid once its node has been erased. -/
theorem nodesAfter_eq_none {nodes : List (Option Address)} {here : Address}
    (erased : some here ∉ nodes)
    : nodesAfter id nodes (some here) = none := by
  refine Option.eq_none_iff_forall_not_mem.mpr fun rest found => erased ?_
  obtain ⟨before, -, rfl⟩ := nodesAfter_eq_some.mp found
  simp

/-- What an iterator has before it are nodes of the list. -/
theorem mem_of_nodesAfter {nodes rest : List (Option Address)} {node entry : Option Address}
    (found : nodesAfter id nodes node = some rest) (member : entry ∈ rest)
    : entry ∈ nodes := by
  cases node with
  | none => exact Option.some.inj found ▸ member
  | some here =>
      obtain ⟨before, -, rfl⟩ := nodesAfter_eq_some.mp found
      exact List.mem_append_right _ (List.mem_cons_of_mem _ member)

-----------------------------------------------------------------------------------------
-- Frames
-----------------------------------------------------------------------------------------

/-- The nodes that the loop of a function goes over: a dispatching function has its own list for
each event type, and `dispatch` goes over all listeners.
-/
def Frame.nodes (world : World σ) : Frame ν → List (Option Address)
  | .looping _ _ event _ => world.pointers event.type
  | .listening _ _ event _ => world.pointers event.type
  | .dispatching _ _ => world.listeners.map fun model => some model.address
  | .attending _ _ => world.listeners.map fun model => some model.address
  | _ => []

/-- The nodes that a loop has before it, if its iterator is valid. -/
def Frame.ahead (world : World σ) (frame : Frame ν) : Option (List (Option Address)) :=
  nodesAfter id (frame.nodes world) frame.node?

/-- The iterator of a function is valid, if it has one. -/
def Frame.Valid (world : World σ) (frame : Frame ν) : Prop := (frame.ahead world).isSome = true

/-- All iterators are valid. -/
def Process.Valid (process : Process ν σ) : Prop :=
  ∀ thread, ∀ frame ∈ process.stackOf thread, frame.Valid process.world

/-- A function once the callback that it calls has returned. -/
def Frame.returned : Frame ν → Frame ν
  | .listening number call event node => .looping number call event (some node)
  | .attending event node => .dispatching event (some node)
  | frame => frame

theorem Frame.valid_of_node?_eq_none {world : World σ} {frame : Frame ν} (idle : frame.node? = none)
    : frame.Valid world := by
  rw [Valid, ahead, idle]
  rfl

/-- What a frame goes over after some listeners have been unregistered and others registered. -/
theorem Frame.Valid.relisted {world next : World σ} {frame : Frame ν} {keep : Address → Bool}
    {added : List ListenerModel} (valid : frame.Valid world)
    (listed
      : next.listeners = world.listeners.filter (fun model => keep model.address) ++ added)
    (stands : ∀ here, frame.node? = some here → keep here = true)
    : frame.Valid next := by
  have whole
      : ∃ others,
          frame.nodes next
            = (frame.nodes world).filter (fun pointer => pointer.all keep) ++ others := by
    have all
        : next.listeners.map (fun model => some model.address)
          = (world.listeners.map (fun model => some model.address)).filter
              (fun pointer => pointer.all keep)
            ++ added.map (fun model => some model.address) := by
      rw [listed, List.map_append, List.filter_map]
      rfl
    cases frame with
    | looping number call event node => exact ⟨_, World.pointers_relisted listed _⟩
    | listening number call event node => exact ⟨_, World.pointers_relisted listed _⟩
    | dispatching event node => exact ⟨_, all⟩
    | attending event node => exact ⟨_, all⟩
    | _ => exact ⟨[], rfl⟩
  obtain ⟨others, whole⟩ := whole
  obtain ⟨rest, found⟩ := Option.isSome_iff_exists.mp valid
  have moved
      : nodesAfter id
            ((frame.nodes world).filter (fun pointer => pointer.all keep) ++ others) frame.node?
        = some (rest.filter (fun pointer => pointer.all keep) ++ others) :=
    nodesAfter_relisted others (fun current here => stands current here) found
  rw [Valid, ahead, whole, moved]
  rfl

variable {thread : ThreadId} {process next : Process ν σ} {action : Action ν} {frame : Frame ν}
  {frames outer : List (Frame ν)} {shown : List (Occurrence ν)} {world later : World σ}
  {manager : Manager}

/-- The nodes of a loop are distinct. -/
theorem World.Consistent.nodes_nodup (consistent : world.Consistent tools) (frame : Frame ν)
    : (frame.nodes world).Nodup := by
  have all : (world.listeners.map fun model => some model.address).Nodup := by
    have distinct := consistent.addresses.map (fun _ _ same => Option.some.inj same)
    rwa [List.map_map] at distinct
  cases frame with
  | looping number call event node => exact consistent.pointers_nodup _
  | listening number call event node => exact consistent.pointers_nodup _
  | dispatching event node => exact all
  | attending event node => exact all
  | _ => exact List.nodup_nil

/-- How many steps a thread needs at most to leave a function, if its callbacks only return: two for
each node before the iterator.
-/
def Frame.work (world : World σ) (frame : Frame ν) : ℕ :=
  let ahead := ((frame.ahead world).getD []).length
  match frame with
  | .tool _ _ => 1
  | .entered _ _ event => 2 * (world.pointers event.type).length + 3
  | .context _ _ event _ => 2 * (world.pointers event.type).length + 2
  | .looping .. => 2 * ahead + 1
  | .listening .. => 2 * ahead + 2
  | .dispatching .. => 2 * ahead + 1
  | .attending .. => 2 * ahead + 2

/-- What a frame goes over and has to do depends on the listeners only. -/
theorem Frame.ahead_congr (same : later.listeners = world.listeners) (frame : Frame ν)
    : frame.ahead later = frame.ahead world := by
  cases frame <;> simp only [ahead, nodes, World.pointers, same]

theorem Frame.work_congr (same : later.listeners = world.listeners) (frame : Frame ν)
    : frame.work later = frame.work world := by
  unfold work
  rw [Frame.ahead_congr same]
  cases frame <;> simp only [World.pointers, same]

theorem World.Consistent.pointers_eq (consistent : world.Consistent tools)
    (active : world.singleton = some manager) (type : KokkosEventType)
    : manager.registeredCallbacks type = world.pointers type :=
  consistent.registeredCallbacks_eq active type

/-- The iterator of a loop that comes to the next node is valid and has one node less before it, so
there is less to do, also if the callback at the node is called.
-/
theorem Frame.settles_next (consistent : world.Consistent tools) {address : Address}
    {rest : List (Option Address)} {inner : Frame ν}
    (before : frame.ahead world = some (some address :: rest))
    (sameNodes : inner.nodes world = frame.nodes world) (there : inner.node? = some address)
    (loops : frame.work world = 2 * ((frame.ahead world).getD []).length + 1)
    (calls : inner.work world ≤ 2 * ((inner.ahead world).getD []).length + 2)
    : inner.Valid world ∧ inner.work world < frame.work world := by
  have next : inner.ahead world = some rest := by
    rw [ahead, sameNodes, there]
    exact nodesAfter_next (consistent.nodes_nodup frame) before
  refine ⟨Option.isSome_of_eq_some next, ?_⟩
  simp only [before, next, Option.getD_some, List.length_cons] at loops calls
  omega

/-- What `dispatch` has before it. -/
theorem Frame.ahead_dispatching (active : world.singleton = some manager) (event : Event ν)
    {node : Option Address} {models : List ListenerModel}
    (before : nodesAfter (fun model => some model.address) manager.listeners node = some models)
    : (Frame.dispatching event node).ahead world
      = some (models.map fun model => some model.address) := by
  rw [ahead, nodes, World.listeners_eq active, node?, nodesAfter_map, before]
  rfl

/-- A function of the Manager that goes on has a valid iterator and less to do. -/
theorem Resumes.settles (consistent : world.Consistent tools)
    (active : world.singleton = some manager)
    (resumed : Resumes manager world frame later frames shown)
    : ∀ inner ∈ frames, inner.Valid later ∧ inner.work later < frame.work world := by
  intro inner member
  have same := World.listeners_of_registry resumed.registry
  rw [Frame.Valid, Frame.ahead_congr same, Frame.work_congr same]
  cases resumed with
  | asksTool number call event function set =>
      rw [List.mem_singleton.mp member]
      exact ⟨rfl, Nat.lt_succ_self _⟩
  | numbers number call event numbered next unset incremented =>
      rw [List.mem_singleton.mp member]
      have ahead
          : (Frame.looping number call numbered none : Frame ν).ahead world
            = some (world.pointers numbered.type) :=
        rfl
      refine ⟨Option.isSome_of_eq_some ahead, ?_⟩
      rw [(incrementIdIfNeeded_registry incremented).2] at ahead
      simp only [Frame.work, ahead, Option.getD_some]
      omega
  | returns number call event node finished => cases member
  | delivers number call event node address rest model before found =>
      rw [List.mem_singleton.mp member]
      rw [consistent.pointers_eq active] at before
      exact Frame.settles_next consistent before rfl rfl rfl le_rfl
  | finishes event node => cases member
  | attends event node model rest before =>
      rw [List.mem_singleton.mp member]
      exact Frame.settles_next consistent (Frame.ahead_dispatching active event before) rfl rfl rfl
        le_rfl
  | passes event node model rest before =>
      rw [List.mem_singleton.mp member]
      exact Frame.settles_next consistent (Frame.ahead_dispatching active event before) rfl rfl rfl
        (Nat.le_succ _)

/-- So has a function to which a callback returns, if its iterator was valid. -/
theorem leaveFrame_settles {answer : (call : KokkosCall) → call.Out} (valid : frame.Valid world)
    (left : leaveFrame answer frame world = some (frames, shown))
    : ∀ inner ∈ frames, inner.Valid world ∧ inner.work world < frame.work world := by
  intro inner member
  cases frame with
  | tool function call =>
      obtain ⟨rfl, -⟩ := Prod.mk.inj (Option.some.inj left)
      cases member
  | context number call event function =>
      obtain ⟨rfl, -⟩ := Prod.mk.inj (Option.some.inj left)
      rw [List.mem_singleton.mp member]
      have ahead
          : (Frame.looping number call (answeredEvent answer function event world) none
              : Frame ν).ahead world
            = some (world.pointers event.type) := by
        rw [← answeredEvent_type answer function event world]
        rfl
      refine ⟨Option.isSome_of_eq_some ahead, ?_⟩
      simp only [Frame.work, ahead, Option.getD_some]
      omega
  | listening number call event node =>
      obtain ⟨rfl, -⟩ := Prod.mk.inj (Option.some.inj left)
      rw [List.mem_singleton.mp member]
      exact ⟨valid, Nat.lt_succ_self _⟩
  | attending event node =>
      obtain ⟨rfl, -⟩ := Prod.mk.inj (Option.some.inj left)
      rw [List.mem_singleton.mp member]
      exact ⟨valid, Nat.lt_succ_self _⟩
  | _ => cases left

/-- Whether a function is the Manager's, and not a callback. -/
def Frame.isManagers : Frame ν → Bool
  | .entered .. => true
  | .looping .. => true
  | .dispatching .. => true
  | _ => false

/-- An initialized Manager has an id for each event that needs one. -/
theorem incrementIdIfNeeded_defined (active : world.singleton = some manager) (event : KokkosEvent)
    : ∃ next numbered,
        Manager.incrementIdIfNeededForEventTypeImpl event world = some (next, numbered) := by
  cases event <;>
    simp [Manager.incrementIdIfNeededForEventTypeImpl, Manager.getNextEventId,
      Manager.getNextSectionId, active]

/-- A function of the Manager whose iterator is valid can go on, by cases on where it is. -/
theorem resumeFrame_defined (consistent : world.Consistent tools)
    (active : world.singleton = some manager) (valid : frame.Valid world)
    (managers : frame.isManagers = true)
    : ∃ later frames shown, resumeFrame frame world = some (later, frames, shown) := by
  cases frame with
  | entered number call event =>
      have context
          : getCallbackFromEventset event.type manager.contextCallbacks
            = (tools (callbackMember event.type)).map .tool := by
        rw [(consistent.active active).context]
        rfl
      obtain ⟨next, numbered, incremented⟩ := incrementIdIfNeeded_defined active event
      cases set : tools (callbackMember event.type) with
      | none => simp [resumeFrame, active, context, set, incremented]
      | some function => simp [resumeFrame, active, context, set]
  | looping number call event node =>
      obtain ⟨pointers, before⟩ := Option.isSome_iff_exists.mp valid
      have here
          : nodesAfter id (manager.registeredCallbacks event.type) node = some pointers := by
        rw [consistent.pointers_eq active]
        exact before
      rcases pointers with _ | ⟨pointer, rest⟩
      · simp [resumeFrame, active, here]
      · have listed := mem_of_nodesAfter before List.mem_cons_self
        obtain ⟨model, handles, rfl⟩ := List.mem_map.mp listed
        have registered := List.mem_of_mem_filter handles
        rw [World.listeners_eq active] at registered
        have found
            : (manager.listeners.find? (fun other => other.address == model.address)).isSome
              = true := by
          rw [List.find?_isSome]
          exact ⟨model, registered, beq_self_eq_true _⟩
        obtain ⟨other, found⟩ := Option.isSome_iff_exists.mp found
        simp [resumeFrame, active, here, found]
  | dispatching event node =>
      obtain ⟨pointers, before⟩ := Option.isSome_iff_exists.mp valid
      rw [Frame.ahead, Frame.nodes, World.listeners_eq active, nodesAfter_map] at before
      obtain ⟨models, here, -⟩ := Option.map_eq_some_iff.mp before
      change nodesAfter _ _ node = some models at here
      simp only [resumeFrame, active, Option.bind_some, here, Option.map_some]
      exact ⟨_, _, _, rfl⟩
  | _ => cases managers

/-- A function of the Manager whose iterator is invalid cannot go on. -/
theorem resumeFrame_eq_none (consistent : world.Consistent tools) (invalid : ¬frame.Valid world)
    : resumeFrame frame.returned world = none := by
  have nowhere : frame.ahead world = none := Option.not_isSome_iff_eq_none.mp invalid
  cases active : world.singleton with
  | none => rw [resumeFrame, active, Option.bind_none]
  | some manager =>
      have loop {event : KokkosEvent} {node : Option Address}
          (nowhere : nodesAfter id (world.pointers event.type) node = none)
          : nodesAfter id (manager.registeredCallbacks event.type) node = none := by
        rwa [consistent.pointers_eq active]
      have scan {node : Option Address}
          (nowhere
            : nodesAfter id (world.listeners.map fun model => some model.address) node = none)
          : nodesAfter (fun model => some model.address) manager.listeners node = none := by
        rw [World.listeners_eq active, nodesAfter_map] at nowhere
        exact Option.map_eq_none_iff.mp nowhere
      cases frame with
      | looping number call event node =>
          have here : nodesAfter id (manager.registeredCallbacks event.type) node = none :=
            loop nowhere
          simp [Frame.returned, resumeFrame, active, here]
      | listening number call event node =>
          have here : nodesAfter id (manager.registeredCallbacks event.type) (some node) = none :=
            loop nowhere
          simp [Frame.returned, resumeFrame, active, here]
      | dispatching event node =>
          have here : nodesAfter (fun model => some model.address) manager.listeners node = none :=
            scan nowhere
          simp [Frame.returned, resumeFrame, active, here]
      | attending event node =>
          have here
              : nodesAfter (fun model => some model.address) manager.listeners (some node)
                = none :=
            scan nowhere
          simp [Frame.returned, resumeFrame, active, here]
      | _ => exact absurd (Frame.valid_of_node?_eq_none rfl) invalid

-----------------------------------------------------------------------------------------
-- Steps
-----------------------------------------------------------------------------------------

/-- A listener that a step reports to be unregistered is gone. -/
theorem ThreadStep.unregistered_gone (sound : process.Sound tools)
    (stepped : ThreadStep thread process action next shown) {address : Address}
    (erased : Unregisters shown address)
    : address ∉ next.world.listeners.map ListenerModel.address := by
  obtain ⟨operation, report, rfl, single, performed, inReport⟩ :=
    stepped.performs_of_unregisters sound.initialized erased
  have gone {model : ListenerModel} (reported : report = [.unregistered model.address])
      (relisted
        : World.Relisted tools process.world next.world
            (process.world.listeners.eraseP (fun other => other.address == model.address)))
      : address ∉ next.world.listeners.map ListenerModel.address := by
    obtain rfl := Happening.unregistered.inj (List.mem_singleton.mp (reported ▸ inReport))
    rw [relisted.listeners_eq, eraseP_eq_filter sound.consistent.addresses]
    simp
  cases operation with
  | unregisterByPointer callable pointer =>
      obtain ⟨model, -, reported, relisted⟩ :=
        sound.consistent.unregisterListenerByPointer performed
      exact gone reported relisted
  | unregisterByHandle handle =>
      obtain ⟨model, -, -, reported, relisted⟩ :=
        sound.consistent.unregisterListenerByHandle performed
      exact gone reported relisted
  | _ => exact absurd inReport (perform_not_unregistered sound.consistent single rfl performed)

/-- A step leaves all iterators valid, if it unregisters no listener at whose node a loop stands. -/
theorem ThreadStep.valid (sound : process.Sound tools) (valid : process.Valid)
    (stepped : ThreadStep thread process action next shown)
    (spared : ∀ address, Unregisters shown address → ¬process.StandsAt address)
    : next.Valid := by
  obtain ⟨keep, added, relisted, -, kept⟩ := stepped.relists sound
  have old : ∀ other, ∀ frame ∈ process.stackOf other, frame.Valid next.world := by
    intro other frame member
    refine (valid other frame member).relisted relisted fun here stands => kept here ?_
    exact fun erased => spared here erased ⟨other, frame, member, stands⟩
  have replaced {stack : List (Frame ν)} (each : ∀ frame ∈ stack, frame.Valid next.world)
      (same : next.stackOf = Function.update process.stackOf thread stack)
      : next.Valid := by
    intro other frame member
    rw [same] at member
    by_cases here : other = thread
    · subst here
      rw [Function.update_self] at member
      exact each frame member
    · rw [Function.update_of_ne here] at member
      exact old other frame member
  cases stepped with
  | skips call user unset => exact old
  | callsTool call function user set =>
      refine replaced (List.forall_mem_cons.mpr ⟨?_, old thread⟩) rfl
      exact Frame.valid_of_node?_eq_none rfl
  | enters call type event user set packed =>
      refine replaced (List.forall_mem_cons.mpr ⟨?_, old thread⟩) rfl
      exact Frame.valid_of_node?_eq_none rfl
  | ignores event user idle => exact old
  | dispatches event user active =>
      refine replaced (List.forall_mem_cons.mpr ⟨?_, old thread⟩) rfl
      exact Frame.valid_of_node?_eq_none rfl
  | performs operation world report user single performed => exact old
  | resumes top outer frames world shown stack resumed =>
      obtain ⟨manager, active⟩ := Option.isSome_iff_exists.mp sound.initialized
      have moved := Resumes.of_resumeFrame active resumed
      refine replaced (List.forall_mem_append.mpr ⟨?_, ?_⟩) rfl
      · exact fun inner member => (moved.settles sound.consistent active inner member).1
      · exact fun inner member => old thread inner (stack ▸ List.mem_cons_of_mem _ member)
  | leaves answer top outer frames shown stack left =>
      have topValid : top.Valid process.world := valid thread top (stack ▸ List.mem_cons_self)
      refine replaced (List.forall_mem_append.mpr ⟨?_, ?_⟩) rfl
      · exact fun inner member => (leaveFrame_settles topValid left inner member).1
      · exact fun inner member => old thread inner (stack ▸ List.mem_cons_of_mem _ member)

/-- At first no thread is inside a loop. -/
theorem Process.Valid.start (outside : σ) (frames : ThreadId → List (FunctionPointer × KokkosCall))
    : (Process.initialized (toolCallbacks tools) outside frames : Process ν σ).Valid := by
  intro thread frame member
  obtain ⟨called, -, rfl⟩ := List.mem_map.mp member
  exact Frame.valid_of_node?_eq_none rfl

/-- All iterators stay valid in runs that spare the loops, by induction on the schedule from its
end.
-/
theorem Process.Valid.interleave {schedule : List (ThreadId × Action ν)}
    {report : List (Occurrence ν)} (valid : process.Valid) (sound : process.Sound tools)
    (spared : LoopsSpared schedule process)
    (ran : interleave schedule process = some (next, report))
    : next.Valid := by
  induction schedule using List.reverseRecOn generalizing next report with
  | nil =>
      obtain ⟨rfl, -⟩ := Prod.mk.inj (Option.some.inj ran)
      exact valid
  | append_singleton schedule step ih =>
      obtain ⟨middle, earlier, later, before, last, rfl⟩ := runSteps_append_eq_some.mp ran
      obtain ⟨final, shown, rest, acted, finished, -⟩ := runSteps_cons_eq_some.mp last
      obtain ⟨rfl, -⟩ := Prod.mk.inj (Option.some.inj finished)
      refine (ThreadStep.of_act acted).valid (sound.interleave before) ?_ ?_
      · exact ih spared.of_earlier before
      · exact spared schedule step [] middle final earlier shown rfl before acted

/-- The function on top of a stack is the Manager's unless user code runs. -/
theorem userCodeRuns_cons (frame : Frame ν) (outer : List (Frame ν))
    : userCodeRuns (frame :: outer) = !frame.isManagers := by
  cases frame <;> rfl

/-- User code does not go on by itself. -/
theorem isManagers_of_resumeFrame (resumed : resumeFrame frame world = some (later, frames, shown))
    : frame.isManagers = true := by
  obtain ⟨manager, active, -⟩ := Option.bind_eq_some_iff.mp resumed
  cases Resumes.of_resumeFrame active resumed <;> rfl

/-- As long as all iterators are valid, a thread can go on exactly if it is inside a function of the
Manager.
-/
theorem Process.Valid.resume_iff (valid : process.Valid) (sound : process.Sound tools)
    (thread : ThreadId)
    : (act (thread, .resume) process).isSome = true
      ↔ userCodeRuns (process.stackOf thread) = false := by
  cases stack : process.stackOf thread with
  | nil => simp [act, stack, userCodeRuns]
  | cons frame outer =>
      have topValid : frame.Valid process.world :=
        valid thread frame (stack ▸ List.mem_cons_self)
      obtain ⟨manager, active⟩ := Option.isSome_iff_exists.mp sound.initialized
      rw [userCodeRuns_cons, Bool.not_eq_false']
      simp only [act, stack, Option.isSome_map]
      constructor
      · intro defined
        obtain ⟨⟨later, frames, shown⟩, resumed⟩ := Option.isSome_iff_exists.mp defined
        exact isManagers_of_resumeFrame resumed
      · intro managers
        obtain ⟨later, frames, shown, resumed⟩ :=
          resumeFrame_defined sound.consistent active topValid managers
        exact Option.isSome_of_eq_some resumed

/-- The iterator of a loop at the node of a listener that is gone is invalid. -/
theorem Frame.not_valid_of_gone {address : Address} (stands : frame.node? = some address)
    (gone : address ∉ world.listeners.map ListenerModel.address)
    : ¬frame.Valid world := by
  have absent : some address ∉ frame.nodes world := by
    intro member
    have found : ∃ model ∈ world.listeners, model.address = address := by
      cases frame with
      | looping number call event node =>
          obtain ⟨model, handles, same⟩ := List.mem_map.mp member
          exact ⟨model, List.mem_of_mem_filter handles, Option.some.inj same⟩
      | listening number call event node =>
          obtain ⟨model, handles, same⟩ := List.mem_map.mp member
          exact ⟨model, List.mem_of_mem_filter handles, Option.some.inj same⟩
      | dispatching event node =>
          obtain ⟨model, listed, same⟩ := List.mem_map.mp member
          exact ⟨model, listed, Option.some.inj same⟩
      | attending event node =>
          obtain ⟨model, listed, same⟩ := List.mem_map.mp member
          exact ⟨model, listed, Option.some.inj same⟩
      | _ => cases stands
    exact gone (List.mem_map.mpr found)
  rw [Valid, ahead, stands, nodesAfter_eq_none absent]
  exact Bool.false_ne_true

/-- Dispatching is safe under concurrency exactly as long as the loops are spared. In any
interleaving of threads that call Kokkos, dispatch events, register and unregister listeners, from
the initialization of the Manager on, in which each registration and unregistration is serialized as
a whole between steps of other threads: if no listener has been unregistered at whose node a loop
stood, then each thread inside a function of the Manager can go on. A step that unregisters a
listener leaves each loop that stands at its node with an iterator that cannot be used.
-/
theorem concurrentDispatch_safe {outside : σ}
    {frames : ThreadId → List (FunctionPointer × KokkosCall)}
    {schedule : List (ThreadId × Action ν)} {report : List (Occurrence ν)}
    (ran
      : interleave schedule (.initialized (toolCallbacks tools) outside frames)
        = some (process, report))
    (spared : LoopsSpared schedule (.initialized (toolCallbacks tools) outside frames))
    : (∀ thread,
        (act (thread, .resume) process).isSome = true
        ↔ userCodeRuns (process.stackOf thread) = false)
      ∧ ∀ step next shown address,
          act step process = some (next, shown)
          → Unregisters shown address
          → ∀ thread, ∀ frame ∈ process.stackOf thread,
              frame.node? = some address
              → frame ∈ next.stackOf thread ∧ resumeFrame frame.returned next.world = none := by
  have started
      : (Process.initialized (toolCallbacks tools) outside frames : Process ν σ).Sound tools :=
    .start outside frames
  have sound := started.interleave ran
  have valid := (Process.Valid.start outside frames).interleave started spared ran
  refine ⟨valid.resume_iff sound, ?_⟩
  rintro ⟨actor, action⟩ next shown address acted erased thread frame member stands
  have stepped := ThreadStep.of_act acted
  have gone := stepped.unregistered_gone sound erased
  constructor
  · obtain ⟨operation, -, rfl, -⟩ := stepped.performs_of_unregisters sound.initialized erased
    exact stepped.mem_stackOf member nofun
  · have consistent := (sound.step stepped).1.consistent
    exact resumeFrame_eq_none consistent (Frame.not_valid_of_gone stands gone)

/-- A marker is delivered to a listener, which has not returned yet. -/
def insideListener : List (ThreadId × Action Unit) :=
  [
    (0, .perform (.registerObject marksAndReductions 5)),
    (0, .kokkosCall (.profileEvent "marker")),
    (0, .resume),
    (0, .resume)
  ]

theorem insideListener_spared
    : LoopsSpared insideListener
        (.initialized (toolCallbacks fun _ => none) () fun _ => [] : Process Unit Unit) := by
  have sound
      : (Process.initialized (toolCallbacks fun _ => none) () fun _ => [] : Process Unit Unit).Sound
          fun _ => none :=
    .start () fun _ => []
  exact loopsSpared_of_keeps sound (by decide)

/-- If the listener unregisters itself, the loop that has called it is lost. -/
theorem concurrentDispatch_safe_selfUnregistration
    : ∃ (process next : Process Unit Unit) (report shown : List (Occurrence Unit))
        (frame : Frame Unit),
        interleave insideListener (.initialized (toolCallbacks fun _ => none) () fun _ => [])
          = some (process, report)
        ∧ act (0, .perform (.unregisterByHandle 5)) process = some (next, shown)
        ∧ next.stackOf 0 = [frame]
        ∧ resumeFrame frame.returned next.world = none := by
  have ran
      : interleave insideListener (.initialized (toolCallbacks fun _ => none) () fun _ => [])
        = some (_, _) :=
    rfl
  obtain ⟨-, lost⟩ := concurrentDispatch_safe ran insideListener_spared
  refine ⟨_, _, _, _, _, ran, rfl, rfl, ?_⟩
  exact (lost (0, .perform (.unregisterByHandle 5)) _ _ 5 rfl List.mem_cons_self 0 _
    List.mem_cons_self rfl).2

-----------------------------------------------------------------------------------------
-- Threads on their own
-----------------------------------------------------------------------------------------

/-- What a thread does that leaves functions: the Manager's go on, and callbacks return. -/
def leaving (answer : (call : KokkosCall) → call.Out) (resumes : Bool) : Action ν :=
  if resumes then .resume else .leave answer

/-- How many steps a thread needs at most to leave all functions that it is inside. -/
def Process.work (thread : ThreadId) (process : Process ν σ) : ℕ :=
  ((process.stackOf thread).map (Frame.work process.world)).sum

theorem Frame.work_pos (world : World σ) (frame : Frame ν) : 0 < frame.work world := by
  cases frame <;> exact Nat.succ_pos _

/-- What replaces a frame leaves less to do than the frame. -/
theorem sum_work_lt (same : later.listeners = world.listeners) (single : frames.length ≤ 1)
    (less : ∀ inner ∈ frames, inner.work later < frame.work world) (outer : List (Frame ν))
    : ((frames ++ outer).map (Frame.work later)).sum
      < ((frame :: outer).map (Frame.work world)).sum := by
  have below : outer.map (Frame.work later) = outer.map (Frame.work world) :=
    List.map_congr_left fun inner _ => inner.work_congr same
  rw [List.map_append, List.sum_append, List.map_cons, List.sum_cons, below]
  refine Nat.add_lt_add_right ?_ _
  match frames with
  | [] => exact frame.work_pos world
  | [inner] => simpa using less inner (List.mem_singleton_self inner)
  | _ :: _ :: _ => simp at single

/-- A state that a thread reaches on its own on the way out of functions. -/
structure Process.Alone (tools : CallbackSlot → Option FunctionPointer) (thread : ThreadId)
    (process start : Process ν σ)
    : Prop where
  sound : process.Sound tools
  valid : process.Valid
  others : ∀ other, other ≠ thread → process.stackOf other = start.stackOf other
  registry : process.world.registry = start.world.registry

/-- Each step on the way out of functions leaves less to do. -/
theorem Process.Alone.step {start : Process ν σ} {answer : (call : KokkosCall) → call.Out}
    {resumes : Bool} (alone : process.Alone tools thread start)
    (acted : act (thread, leaving answer resumes) process = some (next, shown))
    : next.Alone tools thread start ∧ next.work thread < process.work thread := by
  have stepped := ThreadStep.of_act acted
  have sound := (alone.sound.step stepped).1
  have valid : next.Valid := by
    refine stepped.valid alone.sound alone.valid fun address erased => ?_
    obtain ⟨operation, -, same, -⟩ := stepped.performs_of_unregisters alone.sound.initialized erased
    cases resumes <;> cases same
  have others {world : World σ} {stack : List (Frame ν)} (other : ThreadId)
      (differs : other ≠ thread)
      : (({ process with world := world } : Process ν σ).setStack thread stack).stackOf other
        = start.stackOf other := by
    simp only [Process.setStack, Function.update_of_ne differs]
    exact alone.others other differs
  cases resumes with
  | true =>
      cases stepped with
      | resumes top outer frames world shown stack resumed =>
          obtain ⟨manager, active⟩ := Option.isSome_iff_exists.mp alone.sound.initialized
          have moved := Resumes.of_resumeFrame active resumed
          refine ⟨⟨sound, valid, others, moved.registry.trans alone.registry⟩, ?_⟩
          have less := sum_work_lt (World.listeners_of_registry moved.registry) moved.length_le
            (fun inner member => (moved.settles alone.sound.consistent active inner member).2) outer
          simpa only [Process.work, Process.setStack, Function.update_self, stack] using less
  | false =>
      cases stepped with
      | leaves answer top outer frames shown stack left =>
          refine ⟨⟨sound, valid, others, alone.registry⟩, ?_⟩
          have topValid : top.Valid process.world :=
            alone.valid thread top (stack ▸ List.mem_cons_self)
          have less := sum_work_lt rfl (leaveFrame_number?_eq left).1
            (fun inner member => (leaveFrame_settles topValid left inner member).2) outer
          simpa only [Process.work, Process.setStack, Function.update_self, stack] using less

/-- As long as a thread is inside a function, it can make such a step. -/
theorem Process.Alone.progress {start : Process ν σ} (answer : (call : KokkosCall) → call.Out)
    (alone : process.Alone tools thread start) (inside : process.stackOf thread ≠ [])
    : ∃ resumes next shown, act (thread, leaving answer resumes) process = some (next, shown) := by
  obtain ⟨frame, outer, stack⟩ := List.exists_cons_of_ne_nil inside
  cases managers : frame.isManagers with
  | true =>
      have defined : (act (thread, .resume) process).isSome = true := by
        rw [alone.valid.resume_iff alone.sound, stack, userCodeRuns_cons, managers]
        rfl
      obtain ⟨⟨next, shown⟩, acted⟩ := Option.isSome_iff_exists.mp defined
      exact ⟨true, next, shown, acted⟩
  | false =>
      refine ⟨false, ?_⟩
      simp only [leaving, act, stack]
      cases frame with
      | entered number call event => cases managers
      | looping number call event node => cases managers
      | dispatching event node => cases managers
      | _ => exact ⟨_, _, rfl⟩

/-- No thread waits for another one. From any state that threads reach with serialized registrations
and while the loops are spared, a thread can leave all functions that it is inside on its own: it
goes on in those of the Manager, and the callbacks return. It takes at most two steps for each node
that its loops have before them, and some for each function; the other threads stay where they are,
and the registry stays as it is.
-/
theorem concurrentDispatch_finishes_alone {outside : σ}
    {frames : ThreadId → List (FunctionPointer × KokkosCall)}
    {schedule : List (ThreadId × Action ν)} {report : List (Occurrence ν)}
    (ran
      : interleave schedule (.initialized (toolCallbacks tools) outside frames)
        = some (process, report))
    (spared : LoopsSpared schedule (.initialized (toolCallbacks tools) outside frames))
    (thread : ThreadId) (answer : (call : KokkosCall) → call.Out)
    : ∃ (choices : List Bool) (final : Process ν σ) (shown : List (Occurrence ν)),
        interleave (choices.map fun resumes => (thread, leaving answer resumes)) process
          = some (final, shown)
        ∧ choices.length ≤ process.work thread
        ∧ final.stackOf = Function.update process.stackOf thread []
        ∧ final.world.registry = process.world.registry := by
  have started
      : (Process.initialized (toolCallbacks tools) outside frames : Process ν σ).Sound tools :=
    .start outside frames
  have sound := started.interleave ran
  have valid := (Process.Valid.start outside frames).interleave started spared ran
  have alone : process.Alone tools thread process := ⟨sound, valid, fun _ _ => rfl, rfl⟩
  have kept {resumes : Bool} {state next : Process ν σ} {shown : List (Occurrence ν)}
      (alone : state.Alone tools thread process)
      (acted : act (thread, leaving answer resumes) state = some (next, shown))
      : next.Alone tools thread process ∧ next.work thread < state.work thread :=
    alone.step acted
  have progress {state : Process ν σ} (alone : state.Alone tools thread process)
      (inside : ¬state.stackOf thread = [])
      : ∃ resumes next shown,
          act (thread, leaving answer resumes) state = some (next, shown) :=
    alone.progress answer inside
  obtain ⟨choices, final, shown, left, ended⟩ := runSteps_completes kept progress alone
  have bounded := runSteps_length_le kept alone left
  have reached := runSteps_preserves (fun alone acted => (kept alone acted).1) alone left
  refine ⟨choices, final, shown, ?_, by omega, ?_, reached.registry⟩
  · rw [← left, interleave, runSteps_map]
  · funext other
    by_cases here : other = thread
    · rw [here, ended, Function.update_self]
    · rw [reached.others other here, Function.update_of_ne here]

/-- The thread inside the listener finishes its call. -/
theorem concurrentDispatch_finishes_alone_insideListener
    : ∃ (process final : Process Unit Unit) (report shown : List (Occurrence Unit))
        (choices : List Bool),
        interleave insideListener (.initialized (toolCallbacks fun _ => none) () fun _ => [])
          = some (process, report)
        ∧ interleave (choices.map fun resumes => (0, leaving KokkosCall.out resumes)) process
          = some (final, shown)
        ∧ process.stackOf 0 ≠ []
        ∧ final.stackOf 0 = [] := by
  have ran
      : interleave insideListener (.initialized (toolCallbacks fun _ => none) () fun _ => [])
        = some (_, _) :=
    rfl
  obtain ⟨choices, final, shown, left, -, ended, -⟩ :=
    concurrentDispatch_finishes_alone ran insideListener_spared 0 KokkosCall.out
  refine ⟨_, final, _, shown, choices, ran, left, ?_, ?_⟩
  · exact List.cons_ne_nil _ _
  · rw [ended, Function.update_self]

end KokkosUtils.Callbacks
