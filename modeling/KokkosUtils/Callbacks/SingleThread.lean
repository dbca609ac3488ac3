import KokkosUtils.Callbacks.Delivery
import KokkosUtils.Callbacks.Threads

/-! A Kokkos call that one thread makes while no other thread makes a step. With callbacks that
only answer, it does what the same call does in a run without threads.
-/

namespace KokkosUtils.Callbacks

open KokkosUtils.Foundations

variable {ν σ : Type}

/-- What runs without threads report of an occurrence. -/
def Occurrence.happenings : Occurrence ν → List (Happening ν)
  | .happened happening => [happening]
  | .numbered .. => []
  | .answered .. => []
  | .delivered _ model event => [.listener model (.kokkos event)]

variable {process : Process ν σ} {thread : ThreadId}

@[simp] theorem Process.setStack_world (stack : List (Frame ν))
    : (process.setStack thread stack).world = process.world := rfl

@[simp] theorem Process.stackOf_setStack (stack : List (Frame ν))
    : (process.setStack thread stack).stackOf thread = stack :=
  Function.update_self ..

@[simp] theorem Process.setStack_setStack (first second : List (Frame ν))
    : (process.setStack thread first).setStack thread second = process.setStack thread second := by
  simp [Process.setStack]

/-- One thread takes a process from one state to another with these occurrences, and no other
thread makes a step.
-/
def RunsAlone (thread : ThreadId) (process final : Process ν σ) (shown : List (Occurrence ν))
    : Prop :=
  ∃ schedule,
    (∀ step ∈ schedule, step.1 = thread) ∧ interleave schedule process = some (final, shown)

theorem RunsAlone.of_act {action : Action ν} {final : Process ν σ} {shown : List (Occurrence ν)}
    (acted : act (thread, action) process = some (final, shown))
    : RunsAlone thread process final shown := by
  have ran := runSteps_cons_eq_some.mpr ⟨final, shown, [], acted, runSteps_nil _, rfl⟩
  rw [List.append_nil] at ran
  exact ⟨[(thread, action)], by simp, ran⟩

theorem RunsAlone.trans {middle final : Process ν σ} {shown later : List (Occurrence ν)}
    (first : RunsAlone thread process middle shown) (second : RunsAlone thread middle final later)
    : RunsAlone thread process final (shown ++ later) := by
  obtain ⟨firstSchedule, firstAlone, firstRan⟩ := first
  obtain ⟨secondSchedule, secondAlone, secondRan⟩ := second
  refine ⟨firstSchedule ++ secondSchedule, ?_,
    runSteps_append_eq_some.mpr ⟨middle, shown, later, firstRan, secondRan, rfl⟩⟩
  intro step member
  exact (List.mem_append.mp member).elim (firstAlone step) (secondAlone step)

-----------------------------------------------------------------------------------------
-- Loops
-----------------------------------------------------------------------------------------

/-- An iterator finds its node by its address, which no earlier node has. -/
theorem nodesAfter_append {α : Type} {address : α → Option Address} {before rest : List α}
    {node : α} {here : Address} (there : address node = some here)
    (fresh : ∀ other ∈ before, address other ≠ some here)
    : nodesAfter address (before ++ node :: rest) (some here) = some rest := by
  have skipped
      : (before ++ node :: rest).dropWhile (fun other => address other != some here)
        = node :: rest := by
    rw [List.dropWhile_append_of_pos (by simpa using fresh),
      List.dropWhile_cons_of_neg (by simp [there])]
  simp only [nodesAfter, skipped]

/-- The pointers to some models. -/
def pointersTo (models : List ListenerModel) : List (Option Address) :=
  models.map (fun model => some model.address)

/-- After a model come the models behind it, if no two have the same address. -/
theorem nodesAfter_pointersTo {before rest : List ListenerModel} {model : ListenerModel}
    (distinct : ((before ++ model :: rest).map ListenerModel.address).Nodup)
    : nodesAfter id (pointersTo (before ++ model :: rest)) (some model.address)
      = some (pointersTo rest) := by
  rw [pointersTo, List.map_append, List.map_cons]
  refine nodesAfter_append rfl fun pointer member => ?_
  obtain ⟨other, earlier, rfl⟩ := List.mem_map.mp member
  rw [List.map_append, List.map_cons] at distinct
  have apart :=
    (List.nodup_append.mp distinct).2.2 other.address (List.mem_map_of_mem earlier) model.address
      List.mem_cons_self
  exact fun same => apart (Option.some.inj same)

/-- A thread that nothing interrupts delivers its event to the remaining models, in order, and
returns: induction on these models.
-/
theorem interleave_loop (process : Process ν σ) (before rest : List ListenerModel)
    (node : Option Address) {number : ℕ} {call : KokkosCall} {event : KokkosEvent}
    {outer : List (Frame ν)} {manager : Manager} (active : process.world.singleton = some manager)
    (pointers : manager.registeredCallbacks event.type = pointersTo (before ++ rest))
    (distinct : ((before ++ rest).map ListenerModel.address).Nodup)
    (found
      : ∀ model ∈ rest,
          manager.listeners.find? (fun other => other.address == model.address) = some model)
    (iterator : nodesAfter id (pointersTo (before ++ rest)) node = some (pointersTo rest))
    (top : process.stackOf thread = .looping number call event node :: outer)
    : RunsAlone thread process (process.setStack thread outer)
        (rest.map (fun model => .delivered number model event)
          ++ [.happened (.returned (Manager.writeBack call event))]) := by
  induction rest generalizing process before node with
  | nil =>
      have returned
          : act (thread, .resume) process
            = some
                (
                  process.setStack thread outer,
                  [.happened (.returned (Manager.writeBack call event))]
                ) := by
        simp only [act, top, resumeFrame, active, Option.bind_some, pointers, iterator]
        rfl
      exact .of_act returned
  | cons model rest ih =>
      have delivered
          : act (thread, .resume) process
            = some
                (
                  process.setStack thread (.listening number call event model.address :: outer),
                  [.delivered number model event]
                ) := by
        simp only [act, top, resumeFrame, active, Option.bind_some, pointers, iterator]
        simp only [pointersTo, List.map_cons, found model (by simp), Option.map_some]
        rfl
      have back
          : act (thread, .leave KokkosCall.out)
              (process.setStack thread (.listening number call event model.address :: outer))
            = some
                (
                  process.setStack thread
                    (.looping number call event (some model.address) :: outer),
                  []
                ) := by
        simp [act, leaveFrame]
      have split : before ++ model :: rest = (before ++ [model]) ++ rest := by simp
      have remaining :=
        ih (process.setStack thread (.looping number call event (some model.address) :: outer))
          (before ++ [model]) (some model.address) active (by rw [pointers, split])
          (by rwa [← split]) (fun other member => found other (List.mem_cons_of_mem _ member))
          (by rw [← split, nodesAfter_pointersTo distinct]) (Process.stackOf_setStack _)
      rw [Process.setStack_setStack] at remaining
      exact (RunsAlone.of_act delivered).trans ((RunsAlone.of_act back).trans remaining)

/-- In a consistent world, a loop at its start delivers its event to the listeners that handle
the type of the event.
-/
theorem interleave_loop_consistent {tools : CallbackSlot → Option FunctionPointer}
    (process : Process ν σ) (thread : ThreadId) {number : ℕ} {call : KokkosCall}
    {event : KokkosEvent} {outer : List (Frame ν)} {manager : Manager}
    (consistent : process.world.Consistent tools)
    (active : process.world.singleton = some manager)
    (top : process.stackOf thread = .looping number call event none :: outer)
    : RunsAlone thread process (process.setStack thread outer)
        ((process.world.listeners.filter (fun model => model.handles (.kokkos event.type))).map
            (fun model => .delivered number model event)
          ++ [.happened (.returned (Manager.writeBack call event))]) := by
  have aligned := (consistent.active active).aligned
  have all := World.listeners_eq active
  refine interleave_loop process [] _ none active ?_ ?_ ?_ rfl top
  · rw [consistent.registeredCallbacks_eq active]
    rfl
  · rw [List.nil_append, all]
    exact aligned.addresses.sublist (List.filter_sublist.map _)
  · intro model member
    rw [all] at member
    exact aligned.find?_address (List.mem_of_mem_filter member)

-----------------------------------------------------------------------------------------
-- Whole calls
-----------------------------------------------------------------------------------------

/-- Listeners that do nothing are only notified. -/
theorem notifyAll_answering (answer : (call : KokkosCall) → call.Out) (event : Event ν)
    (models : List ListenerModel) (world : World σ)
    : notifyAll (Callees.answering answer) event models world
      = (world, models.map (fun model => .listener model event)) := by
  induction models with
  | nil => rfl
  | cons model rest ih =>
      simp only [notifyAll, Callees.callListener, Callees.answering] at ih ⊢
      rw [ih]
      rfl

/-- A dispatching function on a thread that nothing interrupts answers its call and then runs its
loop, by cases on the source of the answer.
-/
theorem interleave_entered {tools : CallbackSlot → Option FunctionPointer} (process : Process ν σ)
    (answer : (call : KokkosCall) → call.Out) (call : KokkosCall) {number : ℕ}
    {outer : List (Frame ν)} {manager : Manager} (consistent : process.world.Consistent tools)
    (active : process.world.singleton = some manager)
    (top : process.stackOf thread = .entered number call call.event :: outer)
    : let answered :=
        answerCall (Callees.answering answer : Callees ν σ) (tools call.slot) manager call
          process.world
      ∃ shown,
        RunsAlone thread process
          (({ process with world := answered.1 }).setStack thread
            (.looping number call (call.leave answered.2.1).event none :: outer))
          shown
        ∧ shown.flatMap Occurrence.happenings = answered.2.2 := by
  intro answered
  have captured : getCallbackFromEventset call.event.type manager.contextCallbacks
      = (tools call.slot).map .tool := by
    rw [(consistent.active active).context, KokkosCall.event_type]
    rfl
  cases context : tools call.slot with
  | none =>
      rw [context, Option.map_none] at captured
      have numbered
          : act (thread, .resume) process
            = some
                (
                  ({ process with
                      world :=
                        {
                          process.world with
                          singleton := some (manager.afterNextOut call)
                        } }).setStack thread
                    (.looping number call (call.leave (manager.nextOut call)).event none :: outer),
                  [.numbered number (call.leave (manager.nextOut call)).event]
                ) := by
        simp only [act, top, resumeFrame, active, Option.bind_some, captured,
          Manager.incrementIdIfNeededForEventTypeImpl_eq active, Option.map_some]
        rfl
      simp only [answered, context, answerCall]
      exact ⟨_, .of_act numbered, rfl⟩
  | some function =>
      rw [context, Option.map_some] at captured
      have entered
          : act (thread, .resume) process
            = some
                (
                  process.setStack thread (.context number call call.event function :: outer),
                  [.happened (.context function call)]
                ) := by
        simp only [act, top, resumeFrame, active, Option.bind_some, captured, Option.map_some]
        rfl
      have left
          : act (thread, .leave answer)
              (process.setStack thread (.context number call call.event function :: outer))
            = some
                (
                  process.setStack thread
                    (.looping number call (call.leave (answer call)).event none :: outer),
                  [.answered number (call.leave (answer call)).event]
                ) := by
        simp [act, leaveFrame, answeredEvent, Manager.dispatchContextCallbackForEventTypeImpl_eq,
          Callees.callContext, Callees.answering]
      simp only [answered, context, answerCall]
      exact ⟨_, (RunsAlone.of_act entered).trans (.of_act left), rfl⟩

/-- A Kokkos call of one thread, with no step of any other thread in between, does what the same
call does in a run without threads: it leaves the same world and reports the same, and the thread
is back where it was.
-/
def CallsAlone (thread : ThreadId) (process : Process ν σ)
    (answer : (call : KokkosCall) → call.Out) (call : KokkosCall)
    : Prop :=
  ∃ final shown,
    RunsAlone thread process final shown
    ∧ kokkosCall (Callees.answering answer : Callees ν σ) call process.world
      = some (final.world, shown.flatMap Occurrence.happenings)
    ∧ final.stackOf = process.stackOf

/-- A call that no listener handles, on a thread that nothing interrupts: it goes to the tool, if
there is one.
-/
theorem interleave_unhandled {tools : CallbackSlot → Option FunctionPointer} (process : Process ν σ)
    (thread : ThreadId) (answer : (call : KokkosCall) → call.Out) {call : KokkosCall}
    (installed : process.world.callbacks call.slot = (tools call.slot).map .tool)
    (user : userCodeRuns (process.stackOf thread) = true)
    : CallsAlone thread process answer call := by
  cases context : tools call.slot with
  | none =>
      rw [context, Option.map_none] at installed
      have called
          : act (thread, .kokkosCall call) process
            = some ({ process with calls := process.calls + 1 }, [.happened (.returned call)]) := by
        simp [act, user, Process.kokkosCall, installed]
      refine ⟨_, _, .of_act called, ?_, rfl⟩
      simp [kokkosCall, installed, Occurrence.happenings]
  | some function =>
      rw [context, Option.map_some] at installed
      have called
          : act (thread, .kokkosCall call) process
            = some
                (
                  ({ process with calls := process.calls + 1 }).setStack thread
                    (.tool function call :: process.stackOf thread),
                  [.happened (.context function call)]
                ) := by
        simp [act, user, Process.kokkosCall, installed]
      have left
          : act (thread, .leave answer)
              (({ process with calls := process.calls + 1 }).setStack thread
                (.tool function call :: process.stackOf thread))
            = some
                (
                  ({ process with calls := process.calls + 1 }).setStack thread
                    (process.stackOf thread),
                  [.happened (.returned (call.leave (answer call)))]
                ) := by
        simp [act, leaveFrame]
      refine ⟨_, _, (RunsAlone.of_act called).trans (.of_act left), ?_, Function.update_eq_self ..⟩
      simp [kokkosCall, installed, Callees.callContext, Callees.answering, Occurrence.happenings]

/-- A call that listeners handle, on a thread that nothing interrupts: it is answered, and its loop
delivers the answered event to these listeners.
-/
theorem interleave_handled {tools : CallbackSlot → Option FunctionPointer} (process : Process ν σ)
    (thread : ThreadId) (answer : (call : KokkosCall) → call.Out) {call : KokkosCall}
    (consistent : process.world.Consistent tools)
    (handled
      : process.world.listeners.filter (fun model => model.handles (.kokkos call.type)) ≠ [])
    (user : userCodeRuns (process.stackOf thread) = true)
    : CallsAlone thread process answer call := by
  obtain ⟨model, member⟩ := List.exists_mem_of_ne_nil _ handled
  obtain ⟨manager, active, -⟩ := World.mem_listeners.mp (List.mem_of_mem_filter member)
  have installed : process.world.callbacks call.slot = some (.dispatching call.type) := by
    rw [KokkosCall.slot, consistent.callbacks_eq, if_neg (by simpa using handled)]
  have called
      : act (thread, .kokkosCall call) process
        = some
            (
              ({ process with calls := process.calls + 1 }).setStack thread
                (.entered process.calls call call.event :: process.stackOf thread),
              []
            ) := by
    simp [act, user, Process.kokkosCall, installed, Manager.packEvent_type]
  obtain ⟨shown, answering, reported⟩ :=
    interleave_entered
      (({ process with calls := process.calls + 1 }).setStack thread
        (.entered process.calls call call.event :: process.stackOf thread))
      answer call consistent active (Process.stackOf_setStack _)
  have frame :=
    answerCall_registry (Callees.answering answer : Callees ν σ) active (tools call.slot) call
  obtain ⟨current, still, -⟩ := World.singleton_of_registry frame active
  have later := consistent.of_registry frame
  have sequential :=
    consistent.kokkosCall_eq_of_handled (Callees.answering answer : Callees ν σ) active handled
  simp only [Process.setStack_world] at answering reported
  generalize answerCall (Callees.answering answer : Callees ν σ) (tools call.slot) manager call
    process.world = answered at *
  obtain ⟨world, out, happenings⟩ := answered
  -- the world that the answer leaves has the same listeners
  have loop :=
    interleave_loop_consistent
      (({ process with world := world, calls := process.calls + 1 }).setStack thread
        (.looping process.calls call (call.leave out).event none :: process.stackOf thread))
      thread later still (Process.stackOf_setStack _)
  simp only [Process.setStack_world, World.listeners_of_registry frame, KokkosCall.event_type,
    KokkosCall.leave_type] at loop
  simp only [Process.setStack, Function.update_idem, Function.update_eq_self] at answering loop
  have whole := (RunsAlone.of_act called).trans (answering.trans loop)
  simp only [notifyAll_answering] at sequential
  refine ⟨_, _, whole, ?_, rfl⟩
  simp only [sequential, List.nil_append, List.flatMap_append, reported, List.flatMap_map,
    Occurrence.happenings, Manager.writeBack_leave, List.flatMap_singleton, List.append_assoc]
  rw [List.map_eq_flatMap]

/-- With callbacks that only answer, a Kokkos call of a thread that nothing interrupts does what it
does in a run without threads, by cases on whether a listener handles it.
-/
theorem interleave_alone {tools : CallbackSlot → Option FunctionPointer} (process : Process ν σ)
    (thread : ThreadId) (answer : (call : KokkosCall) → call.Out) (call : KokkosCall)
    (consistent : process.world.Consistent tools)
    (user : userCodeRuns (process.stackOf thread) = true)
    : CallsAlone thread process answer call := by
  by_cases handled
      : process.world.listeners.filter (fun model => model.handles (.kokkos call.type)) = []
  · have installed : process.world.callbacks call.slot = (tools call.slot).map .tool := by
      rw [KokkosCall.slot, consistent.callbacks_eq, if_pos (by simp [handled])]
      rfl
    exact interleave_unhandled process thread answer installed user
  · exact interleave_handled process thread answer consistent handled user

end KokkosUtils.Callbacks
