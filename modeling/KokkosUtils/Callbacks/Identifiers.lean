import KokkosUtils.Callbacks.ProfileSections
import KokkosUtils.Callbacks.Threads
import KokkosUtils.Foundations.Counters

/-! Uniqueness of the identifiers that the Manager and the callbacks of the context hand out.
The ids issued so far are the first ones of the counters, whatever the threads do; each event
that is delivered has its id from the one source of its type.
-/

namespace KokkosUtils.Callbacks

open KokkosUtils.Foundations

variable {ν σ : Type}

/-- The event id that the Manager issues in a step: to a begin event that it numbers, or to a
caller of `get_next_event_id`.
-/
def Occurrence.issuedEventId? : Occurrence ν → Option EventId
  | .numbered _ (.beginEvent _ _ _ eventId) => some eventId
  | .happened (.gotEventId eventId) => some eventId
  | _ => none

/-- The section id that the Manager issues in a step: to a create-section event that it numbers,
or to a caller of `get_next_section_id`.
-/
def Occurrence.issuedSectionId? : Occurrence ν → Option SectionId
  | .numbered _ (.createProfileSectionEvent _ sectionId) => some sectionId
  | .happened (.gotSectionId sectionId) => some sectionId
  | _ => none

/-- The event id that a context callback leaves in the begin event of a construct. -/
def Occurrence.leftEventId? (construct : Construct) : Occurrence ν → Option EventId
  | .answered _ (.beginEvent other _ _ eventId) =>
      if other = construct then some eventId else none
  | _ => none

-----------------------------------------------------------------------------------------
-- The counters
-----------------------------------------------------------------------------------------

/-- A step issues ids: it leaves the context alone, and the ids that it issues are those that the
counters hand out in it.
-/
structure Issues (before after : Manager) (shown : List (Occurrence ν)) : Prop where
  context : after.contextCallbacks = before.contextCallbacks
  eventIds
    : ∀ ids,
        HandedOut (· + 1) 0 ids before.nextEventId
        → HandedOut (· + 1) 0 (ids ++ shown.filterMap Occurrence.issuedEventId?)
            after.nextEventId
  sectionIds
    : ∀ ids,
        HandedOut (· + 1) 0 ids before.nextSectionId
        → HandedOut (· + 1) 0 (ids ++ shown.filterMap Occurrence.issuedSectionId?)
            after.nextSectionId

section

variable {before after : Manager} {shown : List (Occurrence ν)}

/-- A step that touches no counter issues no ids. -/
theorem Issues.nothing (context : after.contextCallbacks = before.contextCallbacks)
    (eventId : after.nextEventId = before.nextEventId)
    (sectionId : after.nextSectionId = before.nextSectionId)
    (noEventIds : shown.filterMap Occurrence.issuedEventId? = [])
    (noSectionIds : shown.filterMap Occurrence.issuedSectionId? = [])
    : Issues before after shown := by
  refine ⟨context, fun ids handed => ?_, fun ids handed => ?_⟩
  · rw [noEventIds, List.append_nil, eventId]
    exact handed
  · rw [noSectionIds, List.append_nil, sectionId]
    exact handed

theorem Issues.eventId {occurrence : Occurrence ν}
    (issued : occurrence.issuedEventId? = some before.nextEventId)
    (noSectionId : occurrence.issuedSectionId? = none)
    : Issues before { before with nextEventId := before.nextEventId + 1 } [occurrence] := by
  refine ⟨rfl, fun ids handed => ?_, fun ids handed => ?_⟩
  · rw [List.filterMap_cons_some issued]
    exact handed.concat
  · rw [List.filterMap_cons_none noSectionId, List.filterMap_nil, List.append_nil]
    exact handed

theorem Issues.sectionId {occurrence : Occurrence ν}
    (noEventId : occurrence.issuedEventId? = none)
    (issued : occurrence.issuedSectionId? = some before.nextSectionId)
    : Issues before { before with nextSectionId := before.nextSectionId + 1 } [occurrence] := by
  refine ⟨rfl, fun ids handed => ?_, fun ids handed => ?_⟩
  · rw [List.filterMap_cons_none noEventId, List.filterMap_nil, List.append_nil]
    exact handed
  · rw [List.filterMap_cons_some issued]
    exact handed.concat

end

variable {world next : World σ} {manager : Manager}

/-- The Manager numbers an event that needs an id from the counter of its kind. -/
theorem incrementIdIfNeeded_issues {event numbered : KokkosEvent} {number : ℕ}
    (active : world.singleton = some manager)
    (performed
      : Manager.incrementIdIfNeededForEventTypeImpl event world = some (next, numbered))
    : ∃ after,
        next.singleton = some after
        ∧ Issues (ν := ν) manager after [.numbered number numbered]
        ∧ numbered.type = event.type := by
  cases event with
  | beginEvent construct name devId eventId =>
      simp only [Manager.incrementIdIfNeededForEventTypeImpl, Manager.getNextEventId, active,
        Option.map_some, Option.some.injEq, Prod.mk.injEq] at performed
      obtain ⟨rfl, rfl⟩ := performed
      exact ⟨_, rfl, .eventId rfl rfl, rfl⟩
  | createProfileSectionEvent name sectionId =>
      simp only [Manager.incrementIdIfNeededForEventTypeImpl, Manager.getNextSectionId, active,
        Option.map_some, Option.some.injEq, Prod.mk.injEq] at performed
      obtain ⟨rfl, rfl⟩ := performed
      exact ⟨_, rfl, .sectionId rfl rfl, rfl⟩
  | _ =>
      obtain ⟨rfl, rfl⟩ := Prod.mk.inj (Option.some.inj performed)
      exact ⟨manager, active, .nothing rfl rfl rfl rfl rfl, rfl⟩

/-- An operation that is a single step issues the ids that it reports, by cases on the
operation.
-/
theorem perform_issues {callees : Callees ν σ} {operation : Operation ν}
    {report : List (Happening ν)} (active : world.singleton = some manager)
    (single : operation.isStep = true)
    (performed : perform callees operation world = some (next, report))
    : ∃ after, next.singleton = some after ∧ Issues manager after (report.map .happened) := by
  cases operation with
  | initializeSingleton =>
      simp only [perform, Manager.initializeSingleton, active, Option.some.injEq,
        Prod.mk.injEq] at performed
      obtain ⟨rfl, rfl⟩ := performed
      exact ⟨manager, active, .nothing rfl rfl rfl rfl rfl⟩
  | registerShared callable pointer address =>
      simp only [perform, Manager.registerListenerImpl, active, Option.bind_some,
        Option.ite_none_left_eq_some, Option.some.injEq, Prod.mk.injEq] at performed
      obtain ⟨-, rfl, rfl⟩ := performed
      exact ⟨_, rfl, .nothing rfl rfl rfl rfl rfl⟩
  | registerObject callable address =>
      simp only [perform, Manager.registerListenerImpl, active, Option.bind_some,
        Option.ite_none_left_eq_some, Option.some.injEq, Prod.mk.injEq] at performed
      obtain ⟨-, rfl, rfl⟩ := performed
      exact ⟨_, rfl, .nothing rfl rfl rfl rfl rfl⟩
  | unregisterByPointer callable pointer =>
      simp only [perform, Manager.unregisterListenerByPointer, active, Option.bind_some,
        Option.map_eq_some_iff, Prod.mk.injEq] at performed
      obtain ⟨model, -, rfl, rfl⟩ := performed
      exact ⟨_, rfl, .nothing rfl rfl rfl rfl rfl⟩
  | unregisterByHandle handle =>
      simp only [perform, Manager.unregisterListenerByHandle, active, Option.bind_some,
        Option.map_eq_some_iff, Prod.mk.injEq] at performed
      obtain ⟨model, -, rfl, rfl⟩ := performed
      exact ⟨_, rfl, .nothing rfl rfl rfl rfl rfl⟩
  | getNextEventId =>
      simp only [perform, getNextEventId, Manager.getNextEventId, active, Option.isSome_some,
        if_true, Option.map_some, Option.some.injEq, Prod.mk.injEq] at performed
      obtain ⟨rfl, rfl⟩ := performed
      exact ⟨_, rfl, .eventId rfl rfl⟩
  | getNextSectionId =>
      simp only [perform, getNextSectionId, Manager.getNextSectionId, active, Option.map_some,
        Option.some.injEq, Prod.mk.injEq] at performed
      obtain ⟨rfl, rfl⟩ := performed
      exact ⟨_, rfl, .sectionId rfl rfl⟩
  | kokkosCall call => cases single
  | dispatch event => cases single
  | finalizeSingleton => cases single

-----------------------------------------------------------------------------------------
-- The sources of the ids
-----------------------------------------------------------------------------------------

/-- Where the id of a numbered call's event comes from: the context callback for its type if
there is one, and the Manager otherwise.
-/
def sourceOf (callbacks : EventSet) (number : ℕ) (event : KokkosEvent) : Occurrence ν :=
  if (getCallbackFromEventset event.type callbacks).isSome then
    .answered number event
  else
    .numbered number event

theorem sourceOf_beginEvent (callbacks : EventSet) (number : ℕ) (construct : Construct)
    (name : String) (devId : UInt32) (eventId : EventId)
    : (sourceOf callbacks number (.beginEvent construct name devId eventId) : Occurrence ν)
      = if (getCallbackFromEventset (.beginEvent construct) callbacks).isSome then
          .answered number (.beginEvent construct name devId eventId)
        else
          .numbered number (.beginEvent construct name devId eventId) :=
  rfl

/-- A frame with an event that is ready to be delivered holds it as its source left it, and a
context callback is that for the type of the event.
-/
def Frame.Sourced (callbacks : EventSet) (report : List (Occurrence ν)) : Frame ν → Prop
  | .context _ _ event function =>
      getCallbackFromEventset event.type callbacks = some (.tool function)
  | .looping number _ event _ => sourceOf callbacks number event ∈ report
  | .listening number _ event _ => sourceOf callbacks number event ∈ report
  | _ => True

/-- The events that a report shows as delivered have the ids of their sources. -/
def DeliveredSourced (callbacks : EventSet) (report shown : List (Occurrence ν)) : Prop :=
  ∀ number model event,
    .delivered number model event ∈ shown → sourceOf callbacks number event ∈ report

variable {callbacks : EventSet} {report shown : List (Occurrence ν)} {frame : Frame ν}
  {frames : List (Frame ν)}

/-- What happens later leaves a frame as its source has made it. -/
theorem Frame.Sourced.append (sourced : frame.Sourced callbacks report)
    (shown : List (Occurrence ν))
    : frame.Sourced callbacks (report ++ shown) := by
  cases frame with
  | looping number call event node => exact List.mem_append_left shown sourced
  | listening number call event node => exact List.mem_append_left shown sourced
  | _ => exact sourced

/-- What a step of a frame keeps: it issues ids, and what it leaves on the stack and what it
delivers have the ids of their sources.
-/
structure KeepsSources (manager : Manager) (report : List (Occurrence ν)) (next : World σ)
    (frames : List (Frame ν)) (shown : List (Occurrence ν))
    : Prop where
  issues : ∃ after, next.singleton = some after ∧ Issues manager after shown
  sourced : ∀ frame ∈ frames, frame.Sourced manager.contextCallbacks (report ++ shown)
  delivered : DeliveredSourced manager.contextCallbacks report shown

/-- A step that neither issues nor delivers keeps sources if the frames that it leaves have them. -/
theorem KeepsSources.of_quiet (active : next.singleton = some manager)
    (noEventIds : shown.filterMap Occurrence.issuedEventId? = [])
    (noSectionIds : shown.filterMap Occurrence.issuedSectionId? = [])
    (sourced : ∀ frame ∈ frames, frame.Sourced manager.contextCallbacks (report ++ shown))
    (nothing : ∀ number model event, .delivered number model event ∉ shown)
    : KeepsSources manager report next frames shown :=
  {
    issues := ⟨manager, active, .nothing rfl rfl rfl noEventIds noSectionIds⟩
    sourced := sourced
    delivered := fun number model event absurd => (nothing number model event absurd).elim
  }

/-- A dispatching function turns to the source of the id of its event. -/
theorem keepsSources_of_entered {number : ℕ} {call : KokkosCall} {event : KokkosEvent}
    (active : world.singleton = some manager)
    (resumed : resumeFrame (.entered number call event) world = some (next, frames, shown))
    : KeepsSources manager report next frames shown := by
  rw [resumeFrame, active, Option.bind_some] at resumed
  cases context : getCallbackFromEventset event.type manager.contextCallbacks with
  | none =>
      simp only [context, Option.map_eq_some_iff, Prod.mk.injEq, Prod.exists] at resumed
      obtain ⟨moved, numbered, incremented, rfl, rfl, rfl⟩ := resumed
      obtain ⟨after, stands, issues, sameType⟩ := incrementIdIfNeeded_issues active incremented
      have source
          : sourceOf manager.contextCallbacks number numbered
            = (.numbered number numbered : Occurrence ν) := by
        rw [sourceOf, sameType, context]
        rfl
      refine ⟨⟨after, stands, issues⟩, fun inner member => ?_, fun _ _ _ absurd => ?_⟩
      · obtain rfl := List.mem_singleton.mp member
        change sourceOf manager.contextCallbacks number numbered ∈ _
        rw [source]
        exact List.mem_append_right _ (List.mem_singleton_self _)
      · cases List.mem_singleton.mp absurd
  | some callback =>
      cases callback with
      | dispatching type => simp [context] at resumed
      | tool function =>
          simp only [context, Option.some.injEq, Prod.mk.injEq] at resumed
          obtain ⟨rfl, rfl, rfl⟩ := resumed
          refine .of_quiet active rfl rfl (fun inner member => ?_) (by simp)
          obtain rfl := List.mem_singleton.mp member
          exact context

/-- The loop over the registered callbacks delivers the event that it has. -/
theorem keepsSources_of_looping {number : ℕ} {call : KokkosCall} {event : KokkosEvent}
    {node : Option Address} (active : world.singleton = some manager)
    (sourced : sourceOf manager.contextCallbacks number event ∈ report)
    (resumed : resumeFrame (.looping number call event node) world = some (next, frames, shown))
    : KeepsSources manager report next frames shown := by
  rw [resumeFrame, active, Option.bind_some] at resumed
  obtain ⟨pointers, -, moved⟩ := Option.bind_eq_some_iff.mp resumed
  rcases pointers with _ | ⟨_ | address, rest⟩
  · obtain ⟨rfl, rfl, rfl⟩ := by simpa using moved
    exact .of_quiet active rfl rfl (by simp) (by simp)
  · cases moved
  · simp only [Option.map_eq_some_iff, Prod.mk.injEq] at moved
    obtain ⟨model, -, rfl, rfl, rfl⟩ := moved
    refine ⟨⟨manager, active, .nothing rfl rfl rfl rfl rfl⟩, fun inner member => ?_,
      fun _ _ _ delivered => ?_⟩
    · obtain rfl := List.mem_singleton.mp member
      exact List.mem_append_left _ sourced
    · obtain ⟨rfl, -, rfl⟩ := by simpa using delivered
      exact sourced

/-- The loop of a dispatch by a user has no numbered event. -/
theorem keepsSources_of_dispatching {event : Event ν} {node : Option Address}
    (active : world.singleton = some manager)
    (resumed : resumeFrame (.dispatching event node) world = some (next, frames, shown))
    : KeepsSources manager report next frames shown := by
  rw [resumeFrame, active, Option.bind_some] at resumed
  obtain ⟨models, -, moved⟩ := Option.map_eq_some_iff.mp resumed
  cases models with
  | nil =>
      obtain ⟨rfl, rfl, rfl⟩ := by simpa using moved
      exact .of_quiet active rfl rfl (by simp) (by simp)
  | cons model rest =>
      simp only at moved
      split at moved
      · obtain ⟨rfl, rfl, rfl⟩ := by simpa using moved
        exact .of_quiet active rfl rfl (by simp [Frame.Sourced]) (by simp)
      · obtain ⟨rfl, rfl, rfl⟩ := by simpa using moved
        exact .of_quiet active rfl rfl (by simp [Frame.Sourced]) (by simp)

/-- A function of the Manager goes on with sourced events only, by cases on where it is. -/
theorem Frame.Sourced.resume (sourced : frame.Sourced manager.contextCallbacks report)
    (active : world.singleton = some manager)
    (resumed : resumeFrame frame world = some (next, frames, shown))
    : KeepsSources manager report next frames shown := by
  cases frame with
  | entered number call event => exact keepsSources_of_entered active resumed
  | looping number call event node => exact keepsSources_of_looping active sourced resumed
  | dispatching event node => exact keepsSources_of_dispatching active resumed
  | _ => simp [resumeFrame, active] at resumed

/-- A context callback leaves an event of the same type. -/
@[simp] theorem answeredEvent_type (answer : (call : KokkosCall) → call.Out)
    (function : FunctionPointer) (event : KokkosEvent) (world : World σ)
    : (answeredEvent answer function event world).type = event.type := by
  cases event <;> rfl

/-- A callback returns to a function with a sourced event, by cases on what has called it. -/
theorem Frame.Sourced.leave {answer : (call : KokkosCall) → call.Out}
    (sourced : frame.Sourced manager.contextCallbacks report)
    (active : world.singleton = some manager)
    (left : leaveFrame answer frame world = some (frames, shown))
    : KeepsSources manager report world frames shown := by
  cases frame with
  | tool function call =>
      obtain ⟨rfl, rfl⟩ := Prod.mk.inj (Option.some.inj left)
      exact .of_quiet active rfl rfl (by simp) (by simp)
  | context number call event function =>
      obtain ⟨rfl, rfl⟩ := Prod.mk.inj (Option.some.inj left)
      refine .of_quiet active rfl rfl (fun inner member => ?_) (by simp)
      obtain rfl := List.mem_singleton.mp member
      have context : getCallbackFromEventset event.type manager.contextCallbacks = _ := sourced
      simp [Frame.Sourced, sourceOf, context]
  | listening number call event node =>
      obtain ⟨rfl, rfl⟩ := Prod.mk.inj (Option.some.inj left)
      refine .of_quiet active rfl rfl (fun inner member => ?_) (by simp)
      obtain rfl := List.mem_singleton.mp member
      exact List.mem_append_left _ sourced
  | attending event node =>
      obtain ⟨rfl, rfl⟩ := Prod.mk.inj (Option.some.inj left)
      exact .of_quiet active rfl rfl (by simp [Frame.Sourced]) (by simp)
  | _ => cases left

-----------------------------------------------------------------------------------------
-- Interleavings
-----------------------------------------------------------------------------------------

/-- The ids of a process after a report: those issued so far are the first ones of the counters,
and all events that are ready or delivered have the ids of their sources.
-/
structure Process.Identified (callbacks : EventSet) (report : List (Occurrence ν))
    (process : Process ν σ)
    : Prop where
  active
    : ∃ manager,
        process.world.singleton = some manager
        ∧ manager.contextCallbacks = callbacks
        ∧ HandedOut (· + 1) 0 (report.filterMap Occurrence.issuedEventId?) manager.nextEventId
        ∧ HandedOut (· + 1) 0 (report.filterMap Occurrence.issuedSectionId?)
            manager.nextSectionId
  sourced : ∀ thread, ∀ frame ∈ process.stackOf thread, frame.Sourced callbacks report
  delivered : DeliveredSourced callbacks report report

variable {process following : Process ν σ} {thread : ThreadId}

/-- A step that keeps sources, and leaves no other frames than it is meant to, keeps a process
identified.
-/
theorem Process.Identified.step (identified : process.Identified callbacks report)
    (frames : List (Frame ν))
    (keeps
      : ∀ manager,
          process.world.singleton = some manager
          → manager.contextCallbacks = callbacks
          → KeepsSources manager report following.world frames shown)
    (others
      : ∀ other frame,
          frame ∈ following.stackOf other → frame ∈ frames ∨ frame ∈ process.stackOf other)
    : following.Identified callbacks (report ++ shown) := by
  obtain ⟨manager, active, rfl, eventIds, sectionIds⟩ := identified.active
  obtain ⟨⟨after, stands, issues⟩, sourced, delivered⟩ := keeps manager active rfl
  refine ⟨⟨after, stands, issues.context, ?_, ?_⟩, fun other frame member => ?_,
    fun number model event member => ?_⟩
  · rw [List.filterMap_append]
    exact issues.eventIds _ eventIds
  · rw [List.filterMap_append]
    exact issues.sectionIds _ sectionIds
  · rcases others other frame member with left | before
    · exact sourced frame left
    · exact (identified.sourced other frame before).append shown
  · rcases List.mem_append.mp member with earlier | now
    · exact List.mem_append_left _ (identified.delivered number model event earlier)
    · exact List.mem_append_left _ (delivered number model event now)

/-- A step that keeps sources and puts its frames on the stack of its thread. -/
theorem Process.Identified.setStack (identified : process.Identified callbacks report)
    (world : World σ) (calls : ℕ) (frames : List (Frame ν)) {outer : List (Frame ν)}
    (kept : ∀ frame ∈ outer, frame ∈ process.stackOf thread)
    (keeps
      : ∀ manager,
          process.world.singleton = some manager
          → manager.contextCallbacks = callbacks
          → KeepsSources manager report world frames shown)
    : (({ process with world := world, calls := calls } : Process ν σ).setStack thread
        (frames ++ outer)).Identified callbacks (report ++ shown) := by
  refine identified.step frames keeps fun other frame member => ?_
  by_cases same : other = thread
  · subst same
    simp only [Process.setStack, Function.update_self] at member
    exact (List.mem_append.mp member).imp_right (kept frame)
  · simp only [Process.setStack, Function.update_of_ne same] at member
    exact .inr member

/-- A Kokkos call issues no id yet, by cases on the callback. -/
theorem Process.Identified.kokkosCall (identified : process.Identified callbacks report)
    {call : KokkosCall} (called : process.kokkosCall thread call = some (following, shown))
    : following.Identified callbacks (report ++ shown) := by
  unfold Process.kokkosCall at called
  split at called
  · obtain ⟨rfl, rfl⟩ := Prod.mk.inj (Option.some.inj called)
    exact identified.step [] (fun _ active _ => .of_quiet active rfl rfl (by simp) (by simp))
      fun _ _ member => .inr member
  · obtain ⟨rfl, rfl⟩ := Prod.mk.inj (Option.some.inj called)
    exact identified.setStack process.world _ [_] (fun _ member => member)
      fun _ active _ => .of_quiet active rfl rfl (by simp [Frame.Sourced]) (by simp)
  · obtain ⟨event, -, same⟩ := Option.map_eq_some_iff.mp called
    obtain ⟨rfl, rfl⟩ := Prod.mk.inj same
    exact identified.setStack process.world _ [_] (fun _ member => member)
      fun _ active _ => .of_quiet active rfl rfl (by simp [Frame.Sourced]) (by simp)

/-- Each step of each thread keeps a process identified, by cases on the action. -/
theorem Process.Identified.act (identified : process.Identified callbacks report)
    {action : Action ν} (acted : act (thread, action) process = some (following, shown))
    : following.Identified callbacks (report ++ shown) := by
  cases action with
  | kokkosCall call =>
      simp only [Callbacks.act, Option.ite_none_right_eq_some] at acted
      exact identified.kokkosCall acted.2
  | dispatch event =>
      simp only [Callbacks.act, Option.ite_none_right_eq_some] at acted
      obtain ⟨-, dispatched⟩ := acted
      split at dispatched
      · obtain ⟨rfl, rfl⟩ := Prod.mk.inj (Option.some.inj dispatched)
        exact identified.setStack process.world process.calls [_] (fun _ member => member)
          fun _ active _ => .of_quiet active rfl rfl (by simp [Frame.Sourced]) (by simp)
      · obtain ⟨rfl, rfl⟩ := Prod.mk.inj (Option.some.inj dispatched)
        exact identified.step [] (fun _ active _ => .of_quiet active rfl rfl (by simp) (by simp))
          fun _ _ member => .inr member
  | perform operation =>
      simp only [Callbacks.act, Option.ite_none_right_eq_some, Bool.and_eq_true] at acted
      obtain ⟨⟨-, single⟩, acted⟩ := acted
      obtain ⟨⟨next, happened⟩, performed, same⟩ := Option.map_eq_some_iff.mp acted
      obtain ⟨rfl, rfl⟩ := Prod.mk.inj same
      refine identified.step [] (fun manager active _ => ?_) fun _ _ member => .inr member
      exact ⟨perform_issues active single performed, by simp, fun _ _ _ absurd => by simp at absurd⟩
  | resume =>
      cases stack : process.stackOf thread with
      | nil => simp [Callbacks.act, stack] at acted
      | cons frame outer =>
          simp only [Callbacks.act, stack, Option.map_eq_some_iff] at acted
          obtain ⟨⟨next, frames, happened⟩, resumed, same⟩ := acted
          obtain ⟨rfl, rfl⟩ := Prod.mk.inj same
          have sourced := identified.sourced thread frame (by simp [stack])
          refine identified.setStack next process.calls frames (by simp_all)
            fun manager active same => ?_
          subst same
          exact sourced.resume active resumed
  | leave answer =>
      cases stack : process.stackOf thread with
      | nil => simp [Callbacks.act, stack] at acted
      | cons frame outer =>
          simp only [Callbacks.act, stack, Option.map_eq_some_iff] at acted
          obtain ⟨⟨frames, happened⟩, left, same⟩ := acted
          obtain ⟨rfl, rfl⟩ := Prod.mk.inj same
          have sourced := identified.sourced thread frame (by simp [stack])
          refine identified.setStack process.world process.calls frames (by simp_all)
            fun manager active same => ?_
          subst same
          exact sourced.leave active left

/-- Nothing has been issued or delivered when the Manager has just been initialized. -/
theorem Process.Identified.initialized (callbacks : EventSet) (outside : σ)
    (tools : ThreadId → List (FunctionPointer × KokkosCall))
    : (Process.initialized callbacks outside tools : Process ν σ).Identified callbacks [] where
  active := ⟨_, rfl, rfl, .start, .start⟩
  sourced := by
    intro thread frame member
    obtain ⟨⟨function, call⟩, -, rfl⟩ := List.mem_map.mp member
    trivial
  delivered := fun _ _ _ absurd => by cases absurd

/-- A process is identified in each interleaving of its threads: induction on the schedule from
its end.
-/
theorem Process.Identified.interleave {schedule : List (ThreadId × Action ν)}
    {initial final : Process ν σ} (start : initial.Identified callbacks [])
    (ran : interleave schedule initial = some (final, report))
    : final.Identified callbacks report := by
  induction schedule using List.reverseRecOn generalizing final report with
  | nil =>
      obtain ⟨rfl, rfl⟩ := Prod.mk.inj (Option.some.inj ran)
      exact start
  | append_singleton schedule step ih =>
      obtain ⟨middle, earlier, later, before, last, rfl⟩ := runSteps_append_eq_some.mp ran
      obtain ⟨next, shown, rest, acted, finished, rfl⟩ := runSteps_cons_eq_some.mp last
      obtain ⟨rfl, rfl⟩ := Prod.mk.inj (Option.some.inj finished)
      rw [List.append_nil]
      exact (ih before).act acted

-----------------------------------------------------------------------------------------
-- Uniqueness
-----------------------------------------------------------------------------------------

/-- Two numbered calls whose begin events are delivered with the same id are the same call, if
the source of the ids for their construct hands out distinct ones.
-/
theorem number_unique_of_delivered {construct : Construct}
    (delivered : DeliveredSourced callbacks report report)
    (issued : (report.filterMap Occurrence.issuedEventId?).Nodup)
    (left
      : (getCallbackFromEventset (.beginEvent construct) callbacks).isSome = true
        → (report.filterMap (Occurrence.leftEventId? construct)).Nodup)
    {number otherNumber : ℕ} {model otherModel : ListenerModel} {name otherName : String}
    {devId otherDevId : UInt32} {eventId : EventId}
    (seen : .delivered number model (.beginEvent construct name devId eventId) ∈ report)
    (otherSeen
      : .delivered otherNumber otherModel (.beginEvent construct otherName otherDevId eventId)
        ∈ report)
    : number = otherNumber := by
  have source := delivered _ _ _ seen
  have otherSource := delivered _ _ _ otherSeen
  by_cases context : (getCallbackFromEventset (.beginEvent construct) callbacks).isSome = true
  · rw [sourceOf_beginEvent, if_pos context] at source otherSource
    have mark {number : ℕ} {name : String} {devId : UInt32}
        : Occurrence.leftEventId? construct
            (.answered number (.beginEvent construct name devId eventId) : Occurrence ν)
          = some eventId :=
      if_pos rfl
    exact (Occurrence.answered.inj
      (eq_of_nodup_filterMap (left context) source otherSource mark mark)).1
  · rw [sourceOf_beginEvent, if_neg context] at source otherSource
    exact (Occurrence.numbered.inj
      (eq_of_nodup_filterMap issued source otherSource rfl rfl)).1

/-- Identifiers are unique, in each interleaving of the threads during the life of a Manager and
whatever they register and unregister. The event ids and the section ids that the Manager issues
are distinct and valid while its counters do not wrap around. The begin events of a construct that
Kokkos delivers have distinct ids for distinct calls, if a context callback that is set for them
leaves distinct ids.
-/
theorem identifiers_unique (callbacks : EventSet) (outside : σ)
    (tools : ThreadId → List (FunctionPointer × KokkosCall))
    {schedule : List (ThreadId × Action ν)} {final : Process ν σ} {report : List (Occurrence ν)}
    (ran : interleave schedule (.initialized callbacks outside tools) = some (final, report))
    (fewEventIds : (report.filterMap Occurrence.issuedEventId?).length < UInt64.size - 1)
    (fewSectionIds : (report.filterMap Occurrence.issuedSectionId?).length < UInt32.size - 1)
    : (report.filterMap Occurrence.issuedEventId?).Nodup
      ∧ invalidEventId ∉ report.filterMap Occurrence.issuedEventId?
      ∧ (report.filterMap Occurrence.issuedSectionId?).Nodup
      ∧ invalidSectionId ∉ report.filterMap Occurrence.issuedSectionId?
      ∧ ∀ construct,
          ((getCallbackFromEventset (.beginEvent construct) callbacks).isSome = true
            → (report.filterMap (Occurrence.leftEventId? construct)).Nodup)
          → ∀ number otherNumber model otherModel name otherName devId otherDevId eventId,
              .delivered number model (.beginEvent construct name devId eventId) ∈ report
              → .delivered otherNumber otherModel
                  (.beginEvent construct otherName otherDevId eventId) ∈ report
              → number = otherNumber := by
  have identified := (Process.Identified.initialized callbacks outside tools).interleave ran
  obtain ⟨manager, -, -, eventIds, sectionIds⟩ := identified.active
  have eventIdsFit := Nat.le_of_lt (Nat.lt_of_lt_of_le fewEventIds (Nat.sub_le UInt64.size 1))
  have sectionIdsFit := Nat.le_of_lt (Nat.lt_of_lt_of_le fewSectionIds (Nat.sub_le UInt32.size 1))
  have issued := eventIds.nodup counts_uint64 eventIdsFit
  refine ⟨issued, fun invalid => ?_, sectionIds.nodup counts_uint32 sectionIdsFit,
    fun invalid => ?_, ?_⟩
  · exact Nat.lt_asymm fewEventIds (eventIds.read_lt counts_uint64 eventIdsFit invalid)
  · exact Nat.lt_asymm fewSectionIds (sectionIds.read_lt counts_uint32 sectionIdsFit invalid)
  · intro construct left number otherNumber model otherModel name otherName devId otherDevId
      eventId seen otherSeen
    exact number_unique_of_delivered identified.delivered issued left seen otherSeen

/-- A listener for the begin events of two constructs. -/
def beginListener : Listener :=
  .explicit "BeginListener" [.kokkos .beginParallelForEvent, .kokkos .beginFenceEvent] (by decide)

/-- Two threads whose begin events overlap. A third event has its id from a tool, and in between
a listener asks for an id.
-/
def overlappingThreads : List (ThreadId × Action Unit) :=
  [
    (0, .perform (.registerObject beginListener 5)),
    (0, .kokkosCall (.beginEvent .parallelFor "first" 0 invalidEventId)),
    (1, .kokkosCall (.beginEvent .parallelFor "second" 0 invalidEventId)),
    (1, .resume),
    (0, .resume),
    (0, .resume),
    (0, .perform .getNextEventId),
    (0, .kokkosCall (.beginEvent .fence "nested" 0 invalidEventId)),
    (0, .resume),
    (1, .resume),
    (0, .leave (fun call => match call with | .beginEvent .. => 0 | other => other.out)),
    (0, .resume),
    (1, .leave KokkosCall.out),
    (1, .resume),
    (1, .perform .getNextSectionId)
  ]

/-- The tool that numbers the fences. -/
def fenceTool : EventSet :=
  toolCallbacks (fun slot => if slot = .beginFence then some 3 else none)

theorem identifiers_unique_overlapping_threads
    : ∃ (final : Process Unit Unit) (report : List (Occurrence Unit)),
        interleave overlappingThreads (.initialized fenceTool () (fun _ => []))
          = some (final, report)
        ∧ report.filterMap Occurrence.issuedEventId? = [0, 1, 2]
        ∧ (report.filterMap Occurrence.issuedEventId?).Nodup
        ∧ ∀ number otherNumber model otherModel name otherName devId otherDevId eventId,
            .delivered number model (.beginEvent .fence name devId eventId) ∈ report
            → .delivered otherNumber otherModel
                (.beginEvent .fence otherName otherDevId eventId) ∈ report
            → number = otherNumber := by
  have performed
      : (interleave overlappingThreads
          (.initialized fenceTool () (fun _ => []) : Process Unit Unit)).map
            (fun result => (
              result.2.filterMap Occurrence.issuedEventId?,
              result.2.filterMap Occurrence.issuedSectionId?,
              result.2.filterMap (Occurrence.leftEventId? .fence)))
        = some ([0, 1, 2], [0], [0]) := by decide +kernel
  obtain ⟨⟨final, report⟩, ran, shown⟩ := Option.map_eq_some_iff.mp performed
  obtain ⟨eventIds, sectionIds, left⟩ := by simpa only [Prod.mk.injEq] using shown
  obtain ⟨distinct, -, -, -, seen⟩ :=
    identifiers_unique fenceTool () (fun _ => []) ran (by rw [eventIds]; decide)
      (by rw [sectionIds]; decide)
  exact ⟨final, report, ran, eventIds, distinct, seen .fence fun _ => by rw [left]; decide⟩

end KokkosUtils.Callbacks
