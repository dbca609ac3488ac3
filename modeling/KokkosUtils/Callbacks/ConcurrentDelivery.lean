import Mathlib.Data.List.Induction
import KokkosUtils.Callbacks.ThreadSteps

/-! Delivery of Kokkos calls that several threads make at the same time, while listeners come and
go.
A listener that stays registered gets the event of each call once, whatever the schedule is.
-/

namespace KokkosUtils.Callbacks

open KokkosUtils.Foundations

variable {ν σ : Type}

-----------------------------------------------------------------------------------------
-- Iterators
-----------------------------------------------------------------------------------------

section

variable {nodes rest : List (Option Address)} {node : Option Address} {here : Address}

/-- An iterator that stands at a node has the nodes behind it before it. -/
theorem nodesAfter_eq_some
    : nodesAfter id nodes (some here) = some rest
      ↔ ∃ before, some here ∉ before ∧ nodes = before ++ some here :: rest := by
  constructor
  · intro found
    simp only [nodesAfter, id_eq] at found
    split at found
    · cases found
    · next head tail dropped =>
        obtain rfl := Option.some.inj found
        have stands := List.head?_dropWhile_not (fun other => other != some here) nodes
        have whole := List.takeWhile_append_dropWhile (p := fun other => other != some here)
          (l := nodes)
        rw [dropped, List.head?_cons] at stands
        obtain rfl : head = some here := by simpa using stands
        rw [dropped] at whole
        refine ⟨_, fun member => ?_, whole.symm⟩
        simpa using List.mem_takeWhile_imp member
  · rintro ⟨before, fresh, rfl⟩
    have skipped
        : (before ++ some here :: rest).dropWhile (fun other => other != some here)
          = some here :: rest := by
      rw [List.dropWhile_append_of_pos, List.dropWhile_cons_of_neg (by simp)]
      intro other member
      rw [bne_iff_ne]
      exact fun same => fresh (same ▸ member)
    simp only [nodesAfter, id_eq, skipped]

/-- The next node of a list of distinct nodes has the others behind it. -/
theorem nodesAfter_next (distinct : nodes.Nodup)
    (found : nodesAfter id nodes node = some (some here :: rest))
    : nodesAfter id nodes (some here) = some rest := by
  apply nodesAfter_eq_some.mpr
  cases node with
  | none =>
      obtain rfl := Option.some.inj found
      exact ⟨[], List.not_mem_nil, rfl⟩
  | some current =>
      obtain ⟨before, -, rfl⟩ := nodesAfter_eq_some.mp found
      refine ⟨before ++ [some current], fun member => ?_, by simp⟩
      rw [List.append_cons, List.nodup_append] at distinct
      exact distinct.2.2 _ member _ List.mem_cons_self rfl

/-- Erasing other nodes and appending new ones leaves an iterator where it is. -/
theorem nodesAfter_relisted {keep : Option Address → Bool} (added : List (Option Address))
    (stands : ∀ current, node = some current → keep (some current) = true)
    (found : nodesAfter id nodes node = some rest)
    : nodesAfter id (nodes.filter keep ++ added) node = some (rest.filter keep ++ added) := by
  cases node with
  | none =>
      obtain rfl := Option.some.inj found
      rfl
  | some current =>
      obtain ⟨before, fresh, rfl⟩ := nodesAfter_eq_some.mp found
      apply nodesAfter_eq_some.mpr
      refine ⟨before.filter keep, fun member => fresh (List.mem_of_mem_filter member), ?_⟩
      rw [List.filter_append, List.filter_cons_of_pos (stands current rfl)]
      simp

end

/-- The pointers for an event type in a list of listeners. -/
theorem World.pointers_relisted {world next : World σ} {keep : Address → Bool}
    {added : List ListenerModel}
    (listed
      : next.listeners
        = world.listeners.filter (fun model => keep model.address) ++ added)
    (type : KokkosEventType)
    : next.pointers type
      = (world.pointers type).filter (fun pointer => pointer.all keep)
        ++ (added.filter (fun model => model.handles (.kokkos type))).map
            (fun model => some model.address) := by
  unfold World.pointers
  rw [listed, List.filter_append, List.map_append, List.filter_map, List.filter_filter,
    List.filter_filter]
  congr 3
  funext model
  exact Bool.and_comm ..

/-- The pointers of a consistent world are distinct. -/
theorem World.Consistent.pointers_nodup {tools : CallbackSlot → Option FunctionPointer}
    {world : World σ} (consistent : world.Consistent tools) (type : KokkosEventType)
    : (world.pointers type).Nodup := by
  have distinct := consistent.addresses.map (fun _ _ same => Option.some.inj same)
  rw [List.map_map] at distinct
  exact (List.filter_sublist.map _).nodup distinct

-----------------------------------------------------------------------------------------
-- Accounts
-----------------------------------------------------------------------------------------

/-- The event that an entry of a report delivers to the listener at an address for the call of a
number.
-/
def Occurrence.delivery? (address : Address) (number : ℕ) : Occurrence ν → Option KokkosEvent
  | .delivered other model event =>
      if other = number ∧ model.address = address then some event else none
  | _ => none

/-- The events that a report delivers to a listener for the call of a number. -/
def deliveriesOf (model : ListenerModel) (number : ℕ) (report : List (Occurrence ν))
    : List KokkosEvent :=
  report.filterMap (Occurrence.delivery? model.address number)

/-- The event that an entry of a report gives its id, for the call of a number: the Manager numbers
it, or the context answers it.
-/
def Occurrence.answer? (number : ℕ) : Occurrence ν → Option KokkosEvent
  | .numbered other event => if other = number then some event else none
  | .answered other event => if other = number then some event else none
  | _ => none

/-- The events with the ids that the call of a number is given. -/
def answersOf (number : ℕ) (report : List (Occurrence ν)) : List KokkosEvent :=
  report.filterMap (Occurrence.answer? number)

/-- The call that an entry of a report concerns. -/
def Occurrence.number? : Occurrence ν → Option ℕ
  | .numbered number _ => some number
  | .answered number _ => some number
  | .delivered number _ _ => some number
  | .happened _ => none

/-- A loop over nodes has delivered its event to a listener if and only if the node of the listener
is no longer before its iterator.
-/
def LoopAccounts (model : ListenerModel) (nodes : List (Option Address)) (node : Option Address)
    (event : KokkosEvent) (delivered : List KokkosEvent)
    : Prop :=
  ∃ rest,
    nodesAfter id nodes node = some rest
    ∧ delivered = if some model.address ∈ rest then [] else [event]

/-- A dispatching function has delivered its event to a listener if its loop has come to it. -/
def Frame.Accounts (model : ListenerModel) (world : World σ) (delivered : List KokkosEvent)
    : Frame ν → Prop
  | .looping _ _ event node => LoopAccounts model (world.pointers event.type) node event delivered
  | .listening _ _ event node =>
      LoopAccounts model (world.pointers event.type) (some node) event delivered
  | _ => delivered = []

/-- The node that a loop stands at. -/
def Frame.node? : Frame ν → Option Address
  | .looping _ _ _ node => node
  | .listening _ _ _ node => some node
  | .dispatching _ node => node
  | .attending _ node => some node
  | _ => none

/-- Whether some loop stands at the node of a listener. -/
def Process.StandsAt (process : Process ν σ) (address : Address) : Prop :=
  ∃ thread, ∃ frame ∈ process.stackOf thread, frame.node? = some address

/-- The event of a dispatching function is that of its call, and from the loop on it is the one with
the id that the call was given.
-/
def Frame.Carries (answers : List KokkosEvent) : Frame ν → Prop
  | .entered _ call event => event = call.event ∧ answers = []
  | .context _ call event _ => event = call.event ∧ answers = []
  | .looping _ call event _ => answers = [event] ∧ ∃ out, event = (call.leave out).event
  | .listening _ call event _ => answers = [event] ∧ ∃ out, event = (call.leave out).event
  | _ => True

variable {model : ListenerModel} {number : ℕ} {call : KokkosCall}
  {report shown : List (Occurrence ν)}

theorem deliveriesOf_append
    : deliveriesOf model number (report ++ shown)
      = deliveriesOf model number report ++ deliveriesOf model number shown :=
  List.filterMap_append

theorem answersOf_append
    : answersOf number (report ++ shown) = answersOf number report ++ answersOf number shown :=
  List.filterMap_append

/-- Entries that do not concern a call neither deliver it nor give it an id. -/
theorem unconcerned (model : ListenerModel)
    (other : ∀ occurrence ∈ shown, occurrence.number? ≠ some number)
    : deliveriesOf model number shown = [] ∧ answersOf number shown = [] := by
  have apart {here : ℕ} {occurrence : Occurrence ν} (member : occurrence ∈ shown)
      (concerns : occurrence.number? = some here)
      : here ≠ number :=
    fun same => other occurrence member (same ▸ concerns)
  constructor <;> refine List.filterMap_eq_nil_iff.mpr fun occurrence member => ?_
  · cases occurrence with
    | delivered here model event => exact if_neg fun both => apart member rfl both.1
    | _ => rfl
  · cases occurrence with
    | numbered here event => exact if_neg (apart member rfl)
    | answered here event => exact if_neg (apart member rfl)
    | _ => rfl

/-- The loop of a frame's account is not affected when other listeners come and go. -/
theorem LoopAccounts.relisted {world next : World σ} {keep : Address → Bool}
    {added : List ListenerModel} {type : KokkosEventType} {node : Option Address}
    {event : KokkosEvent} {delivered : List KokkosEvent}
    (accounts : LoopAccounts model (world.pointers type) node event delivered)
    (listed
      : next.listeners
        = world.listeners.filter (fun model => keep model.address) ++ added)
    (kept : keep model.address = true) (fresh : ∀ other ∈ added, other.address ≠ model.address)
    (stands : ∀ current, node = some current → keep current = true)
    : LoopAccounts model (next.pointers type) node event delivered := by
  obtain ⟨rest, found, delivered⟩ := accounts
  rw [World.pointers_relisted listed]
  refine ⟨_, nodesAfter_relisted _ stands found, delivered.trans ?_⟩
  have same
      : (some model.address ∈ rest.filter (fun pointer => pointer.all keep)
          ++ (added.filter (fun model => model.handles (.kokkos type))).map
            (fun model => some model.address))
        ↔ some model.address ∈ rest := by
    simp only [List.mem_append, List.mem_filter, Option.all_some, kept, and_true, List.mem_map,
      Option.some.injEq, or_iff_left_iff_imp, forall_exists_index, and_imp]
    intro other member _ equal
    exact (fresh other member equal).elim
  simp only [same]

/-- What a frame has delivered does not change when other listeners come and go, unless the node is
erased at which its loop stands.
-/
theorem Frame.Accounts.relisted {world next : World σ} {frame : Frame ν} {keep : Address → Bool}
    {added : List ListenerModel} {delivered : List KokkosEvent}
    (accounts : frame.Accounts model world delivered)
    (listed
      : next.listeners
        = world.listeners.filter (fun model => keep model.address) ++ added)
    (kept : keep model.address = true) (fresh : ∀ other ∈ added, other.address ≠ model.address)
    (stands : ∀ current, frame.node? = some current → keep current = true)
    : frame.Accounts model next delivered := by
  cases frame with
  | looping number call event node =>
      exact LoopAccounts.relisted accounts listed kept fresh stands
  | listening number call event node =>
      exact LoopAccounts.relisted accounts listed kept fresh stands
  | _ => exact accounts

/-- What has become of a numbered call: a thread is inside it, and its frame tells whether its event
has been delivered to a listener; or it has been delivered, if the listener handles it, with the id
that the call was given and has returned.
-/
inductive Served (model : ListenerModel) (number : ℕ) (call : KokkosCall)
    (returned : KokkosCall → Prop) (process : Process ν σ) (report : List (Occurrence ν))
    : Prop
  | inFlight (thread : ThreadId) (frame : Frame ν) (event : KokkosEvent)
    (member : frame ∈ process.stackOf thread)
    (serves : frame.call? = some (number, call, event))
    (carries : frame.Carries (answersOf number report))
    (accounts
      : model.handles (.kokkos call.type) = true
        → frame.Accounts model process.world (deliveriesOf model number report))
  | finished (gone : ∀ thread, number ∉ process.inFlight thread)
    (delivered
      : model.handles (.kokkos call.type) = true
        → ∃ out,
            returned (call.leave out)
            ∧ answersOf number report = [(call.leave out).event]
            ∧ deliveriesOf model number report = [(call.leave out).event])

-----------------------------------------------------------------------------------------
-- Steps
-----------------------------------------------------------------------------------------

variable {tools : CallbackSlot → Option FunctionPointer} {process next : Process ν σ}
  {thread : ThreadId} {action : Action ν} {returned returnedLater : KokkosCall → Prop}

/-- What a step shows of a call belongs to the frame on top of the stack of its thread. -/
theorem ThreadStep.number?_eq (sound : process.Sound tools)
    (stepped : ThreadStep thread process action next shown) {occurrence : Occurrence ν}
    (member : occurrence ∈ shown) (concerns : occurrence.number? = some number)
    : action.replacesTop = true
      ∧ ∃ top outer, process.stackOf thread = top :: outer ∧ top.number? = some number := by
  cases stepped with
  | performs operation world report user single performed =>
      obtain ⟨happening, -, rfl⟩ := List.mem_map.mp member
      cases concerns
  | resumes top outer frames world shown stack resumed =>
      obtain ⟨manager, active⟩ := Option.isSome_iff_exists.mp sound.initialized
      refine ⟨rfl, top, outer, stack, ?_⟩
      cases Resumes.of_resumeFrame active resumed with
      | numbers here call event numbered later unset incremented =>
          obtain rfl := List.mem_singleton.mp member
          exact concerns
      | delivers here call event node address rest found before search =>
          obtain rfl := List.mem_singleton.mp member
          exact concerns
      | passes event node model rest before => cases member
      | finishes event node => cases member
      | _ =>
          obtain rfl := List.mem_singleton.mp member
          cases concerns
  | leaves answer top outer frames shown stack left =>
      refine ⟨rfl, top, outer, stack, ?_⟩
      cases top with
      | context here call event function =>
          obtain ⟨-, rfl⟩ := Prod.mk.inj (Option.some.inj left)
          obtain rfl := List.mem_singleton.mp member
          exact concerns
      | tool function call =>
          obtain ⟨-, rfl⟩ := Prod.mk.inj (Option.some.inj left)
          obtain rfl := List.mem_singleton.mp member
          cases concerns
      | listening here call event node =>
          obtain ⟨-, rfl⟩ := Prod.mk.inj (Option.some.inj left)
          cases member
      | attending event node =>
          obtain ⟨-, rfl⟩ := Prod.mk.inj (Option.some.inj left)
          cases member
      | _ => cases left
  | enters call type event user set packed => cases member
  | _ =>
      obtain rfl := List.mem_singleton.mp member
      cases concerns

/-- The pointers of the Manager are those of the world. -/
theorem Process.Sound.registeredCallbacks_eq (sound : process.Sound tools) {manager : Manager}
    (active : process.world.singleton = some manager) (type : KokkosEventType)
    : manager.registeredCallbacks type = process.world.pointers type :=
  sound.consistent.registeredCallbacks_eq active type

/-- A loop at its start has all nodes before it. -/
theorem LoopAccounts.start {world : World σ} {event : KokkosEvent}
    (listed : model ∈ world.listeners) (handles : model.handles (.kokkos event.type) = true)
    : LoopAccounts model (world.pointers event.type) none event [] := by
  refine ⟨_, rfl, ?_⟩
  rw [if_pos]
  exact List.mem_map.mpr ⟨model, List.mem_filter.mpr ⟨listed, handles⟩, rfl⟩

/-- The call operator of a listener is called when the loop comes to its node, and not again. -/
theorem LoopAccounts.advance {nodes rest : List (Option Address)} {node : Option Address}
    {address : Address} {event : KokkosEvent} {delivered : List KokkosEvent}
    (distinct : nodes.Nodup)
    (accounts : LoopAccounts model nodes node event delivered)
    (found : nodesAfter id nodes node = some (some address :: rest))
    : LoopAccounts model nodes (some address) event
        (delivered ++ if address = model.address then [event] else []) := by
  obtain ⟨_, same, delivered⟩ := accounts
  obtain rfl := Option.some.inj (found.symm.trans same)
  refine ⟨rest, nodesAfter_next distinct found, ?_⟩
  by_cases here : address = model.address
  · have passed : some model.address ∉ rest := by
      obtain ⟨before, -, whole⟩ := nodesAfter_eq_some.mp (nodesAfter_next distinct found)
      rw [whole, List.nodup_append, List.nodup_cons] at distinct
      exact here ▸ distinct.2.1.1
    rw [delivered, if_pos here, if_neg passed, if_pos (by rw [here]; exact List.mem_cons_self)]
    rfl
  · rw [delivered, if_neg here, List.append_nil]
    simp only [List.mem_cons, Option.some.injEq, Ne.symm here, false_or]

/-- A call that a thread is inside is served further when that thread goes on with it, by cases on
where the dispatching function is.
-/
theorem Served.resume (sound : process.Sound tools) (listed : model ∈ process.world.listeners)
    {top : Frame ν} {outer frames : List (Frame ν)} {world : World σ} {event : KokkosEvent}
    (stack : process.stackOf thread = top :: outer)
    (resumed : resumeFrame top process.world = some (world, frames, shown))
    (serves : top.call? = some (number, call, event))
    (carries : top.Carries (answersOf number report))
    (accounts
      : model.handles (.kokkos call.type) = true
        → top.Accounts model process.world (deliveriesOf model number report))
    (back
      : ∀ other,
          shown = [.happened (.returned other)]
          → number ∉ (({ process with world := world }).setStack thread (frames ++ outer)).inFlight
              thread
          → returned other)
    : Served model number call returned
        (({ process with world := world }).setStack thread (frames ++ outer))
        (report ++ shown) := by
  obtain ⟨manager, active⟩ := Option.isSome_iff_exists.mp sound.initialized
  have onTop : top.number? = some number := by
    rw [Frame.number?, serves]
    rfl
  have moved := Resumes.of_resumeFrame active resumed
  have listeners : world.listeners = process.world.listeners :=
    World.listeners_of_registry moved.registry
  have replaced (frame : Frame ν) (single : frames = [frame])
      : frame ∈ (({ process with world := world }).setStack thread (frames ++ outer)).stackOf
          thread := by
    simp [Process.setStack, single]
  cases moved with
  | asksTool here call event function set =>
      cases serves
      refine .inFlight thread _ event (replaced _ rfl) rfl ?_ fun handles => ?_
      · obtain ⟨same, unanswered⟩ := carries
        refine ⟨same, ?_⟩
        rw [answersOf_append, unanswered]
        rfl
      · rw [deliveriesOf_append, accounts handles]
        rfl
  | numbers here call event numbered next unset incremented =>
      cases serves
      obtain ⟨rfl, unanswered⟩ := carries
      rw [Manager.incrementIdIfNeededForEventTypeImpl_eq active, Option.some.injEq,
        Prod.mk.injEq] at incremented
      obtain ⟨-, rfl⟩ := incremented
      refine .inFlight thread _ _ (replaced _ rfl) rfl ⟨?_, _, rfl⟩ fun handles => ?_
      · rw [answersOf_append, unanswered]
        simp [answersOf, Occurrence.answer?]
      · rw [deliveriesOf_append, accounts handles]
        refine LoopAccounts.start ?_ ?_
        · exact listeners ▸ listed
        · rwa [KokkosCall.event_type, KokkosCall.leave_type]
  | returns here call event node finished =>
      cases serves
      obtain ⟨answered, out, rfl⟩ := carries
      have gone := sound.gone stack onTop process.world
      refine .finished gone fun handles => ⟨out, ?_, ?_, ?_⟩
      · refine back _ ?_ (gone thread)
        rw [Manager.writeBack_leave]
      · rw [answersOf_append, answered]
        rfl
      · obtain ⟨rest, found, delivered⟩ := accounts handles
        rw [sound.registeredCallbacks_eq active] at finished
        obtain rfl := Option.some.inj (finished.symm.trans found)
        rw [deliveriesOf_append, delivered, if_neg List.not_mem_nil]
        rfl
  | delivers here call event node address rest found before search =>
      cases serves
      rw [sound.registeredCallbacks_eq active] at before
      have at_ : found.address = address := by simpa using List.find?_some search
      have shownHere
          : deliveriesOf model number [(.delivered number found event : Occurrence ν)]
            = if address = model.address then [event] else [] := by
        rw [← at_]
        by_cases same : found.address = model.address <;>
          simp [deliveriesOf, Occurrence.delivery?, same]
      refine .inFlight thread _ event (replaced _ rfl) rfl ?_ fun handles => ?_
      · obtain ⟨answered, made⟩ := carries
        refine ⟨?_, made⟩
        rw [answersOf_append, answered]
        rfl
      · rw [deliveriesOf_append, shownHere]
        exact LoopAccounts.advance (sound.consistent.pointers_nodup _) (accounts handles) before
  | finishes event node => cases serves
  | attends event node found _ _ => cases serves
  | passes event node found _ _ => cases serves

/-- It is served further when a callback of the context or a listener returns. -/
theorem Served.leave (listed : model ∈ process.world.listeners) {top : Frame ν}
    {outer frames : List (Frame ν)} {answer : (call : KokkosCall) → call.Out} {event : KokkosEvent}
    (left : leaveFrame answer top process.world = some (frames, shown))
    (serves : top.call? = some (number, call, event))
    (carries : top.Carries (answersOf number report))
    (accounts
      : model.handles (.kokkos call.type) = true
        → top.Accounts model process.world (deliveriesOf model number report))
    : Served model number call returned (process.setStack thread (frames ++ outer))
        (report ++ shown) := by
  have replaced (frame : Frame ν) (single : frames = [frame])
      : frame ∈ (process.setStack thread (frames ++ outer)).stackOf thread := by
    simp [Process.setStack, single]
  cases top with
  | context here call event function =>
      cases serves
      obtain ⟨rfl, unanswered⟩ := carries
      obtain ⟨rfl, rfl⟩ := Prod.mk.inj (Option.some.inj left)
      have answered
          : answeredEvent answer function call.event process.world
            = (call.leave (answer call)).event := by
        rw [answeredEvent, Manager.dispatchContextCallbackForEventTypeImpl_eq]
        rfl
      refine .inFlight thread _ _ (replaced _ rfl) rfl ⟨?_, answer call, answered⟩ fun handles => ?_
      · rw [answersOf_append, unanswered]
        simp [answersOf, Occurrence.answer?]
      · rw [deliveriesOf_append, accounts handles]
        refine LoopAccounts.start listed ?_
        rwa [answered, KokkosCall.event_type, KokkosCall.leave_type]
  | listening here call event node =>
      cases serves
      obtain ⟨rfl, rfl⟩ := Prod.mk.inj (Option.some.inj left)
      rw [List.append_nil]
      exact .inFlight thread _ event (replaced _ rfl) rfl carries accounts
  | entered here call event => cases left
  | looping here call event node => cases left
  | tool function call => cases serves
  | dispatching event node => cases serves
  | attending event node => cases serves

/-- The listeners that a report shows to be unregistered. -/
def Unregisters (shown : List (Occurrence ν)) (address : Address) : Prop :=
  .happened (.unregistered address) ∈ shown

/-- The listeners after a step are those before it that it does not report to be unregistered, and
new ones.
-/
theorem ThreadStep.relists (sound : process.Sound tools)
    (stepped : ThreadStep thread process action next shown)
    : ∃ (keep : Address → Bool) (added : List ListenerModel),
        next.world.listeners
          = process.world.listeners.filter (fun model => keep model.address) ++ added
        ∧ (∀ other ∈ added, ∀ model ∈ process.world.listeners, other.address ≠ model.address)
        ∧ ∀ address, ¬Unregisters shown address → keep address = true := by
  obtain ⟨-, keep, added, relisted, fresh, reported⟩ := sound.step stepped
  refine ⟨keep, added, relisted, ?_, ?_⟩
  · intro other member model listed same
    exact fresh other member (same ▸ List.mem_map_of_mem listed)
  · intro address stays
    refine Bool.of_not_eq_false fun removed => stays ?_
    obtain ⟨occurrence, member, same⟩ := List.mem_filterMap.mp (reported address removed)
    cases occurrence with
    | happened happening =>
        obtain rfl := Option.some.inj same
        exact member
    | _ => cases same

/-- A call that has been made is served further in each step, as long as the listener stays
registered and no other one is unregistered at whose node a loop stands: by cases on whether the
call belongs to the frame on top of the stack of the thread that makes the step.
-/
theorem Served.step (sound : process.Sound tools) (listed : model ∈ process.world.listeners)
    (stepped : ThreadStep thread process action next shown)
    (stays : ¬Unregisters shown model.address)
    (spared : ∀ address, Unregisters shown address → ¬process.StandsAt address)
    (made : number < process.calls) (kept : ∀ other, returned other → returnedLater other)
    (back
      : ∀ other,
          shown = [.happened (.returned other)]
          → number ∈ process.inFlight thread
          → number ∉ next.inFlight thread
          → returnedLater other)
    (served : Served model number call returned process report)
    : Served model number call returnedLater next (report ++ shown) := by
  obtain ⟨keep, added, relisted, fresh, staying⟩ := stepped.relists sound
  cases served with
  | finished gone delivered =>
      have other : ∀ occurrence ∈ shown, occurrence.number? ≠ some number := by
        intro occurrence member concerns
        obtain ⟨-, top, outer, stack, onTop⟩ := stepped.number?_eq sound member concerns
        exact gone thread (Process.mem_inFlight_of_top stack onTop)
      obtain ⟨undelivered, unanswered⟩ := unconcerned model other
      refine .finished (fun other member => ?_) fun handles => ?_
      · rcases stepped.mem_inFlight sound member with before | new
        · exact gone other before
        · exact made.ne new
      · rw [deliveriesOf_append, undelivered, List.append_nil, answersOf_append, unanswered,
          List.append_nil]
        obtain ⟨out, before, rest⟩ := delivered handles
        exact ⟨out, kept _ before, rest⟩
  | inFlight other frame event member serves carries accounts =>
      have numbered : frame.number? = some number := by
        rw [Frame.number?, serves]
        rfl
      by_cases onTop
          : action.replacesTop = true
            ∧ ∃ top outer, process.stackOf thread = top :: outer ∧ top.number? = some number
      · obtain ⟨replaces, top, outer, stack, same⟩ := onTop
        obtain ⟨rfl, rfl⟩ := sound.eq_top stack same member numbered
        have inside := Process.mem_inFlight_of_top stack same
        cases stepped with
        | resumes top rest frames world shown there resumed =>
            obtain ⟨rfl, rfl⟩ := List.cons.inj (stack.symm.trans there)
            exact Served.resume sound listed stack resumed serves carries accounts
              fun other same => back other same inside
        | leaves answer top rest frames shown there left =>
            obtain ⟨rfl, rfl⟩ := List.cons.inj (stack.symm.trans there)
            exact Served.leave listed left serves carries accounts
        | _ => cases replaces
      · have apart : ∀ occurrence ∈ shown, occurrence.number? ≠ some number :=
          fun occurrence inShown concerns => onTop (stepped.number?_eq sound inShown concerns)
        obtain ⟨undelivered, unanswered⟩ := unconcerned model apart
        refine .inFlight other frame event ?_ serves ?_ fun handles => ?_
        · refine stepped.mem_stackOf member fun replaces outer _ stack => ?_
          exact onTop ⟨replaces, frame, outer, stack, numbered⟩
        · rwa [answersOf_append, unanswered, List.append_nil]
        · rw [deliveriesOf_append, undelivered, List.append_nil]
          refine (accounts handles).relisted relisted (staying _ stays)
            (fun new added => fresh new added model listed) fun current stands => staying current ?_
          exact fun erased => spared current erased ⟨other, frame, member, stands⟩

-----------------------------------------------------------------------------------------
-- Runs
-----------------------------------------------------------------------------------------

/-- The Kokkos call that an action makes. -/
def Action.call? : Action ν → Option KokkosCall
  | .kokkosCall call => some call
  | _ => none

/-- The Kokkos calls that the threads make, in order. -/
def callsOf (schedule : List (ThreadId × Action ν)) : List KokkosCall :=
  schedule.filterMap (fun step => step.2.call?)

theorem callsOf_concat (schedule : List (ThreadId × Action ν)) (step : ThreadId × Action ν)
    : callsOf (schedule ++ [step]) = callsOf schedule ++ step.2.call?.toList := by
  simp [callsOf, Option.toList, List.filterMap_cons]
  cases step.2.call? <;> rfl

/-- The Kokkos calls are counted. -/
theorem ThreadStep.calls_eq (stepped : ThreadStep thread process action next shown)
    : next.calls = process.calls + action.call?.toList.length := by
  cases stepped <;> rfl

/-- A callback slot that a registered listener is for holds a dispatching function of its type. -/
theorem Process.Sound.dispatching (sound : process.Sound tools)
    (listed : model ∈ process.world.listeners)
    (handles : model.handles (.kokkos call.type) = true)
    : process.world.callbacks call.slot = some (.dispatching call.type) := by
  rw [KokkosCall.slot, sound.consistent.callbacks_eq, if_neg]
  rw [List.isEmpty_iff]
  exact List.ne_nil_of_mem (List.mem_filter.mpr ⟨listed, handles⟩)

/-- A dispatching function is only ever installed for its own type. -/
theorem Process.Sound.dispatching_type (sound : process.Sound tools) {type : KokkosEventType}
    (set : process.world.callbacks call.slot = some (.dispatching type))
    : type = call.type := by
  rw [KokkosCall.slot, sound.consistent.callbacks_eq] at set
  split at set
  · simp [toolCallbacks] at set
  · exact (Callback.dispatching.inj (Option.some.inj set)).symm

/-- Since the first of some calls was made, a listener has been registered and each call has been
served so far.
-/
structure Process.Serves (tools : CallbackSlot → Option FunctionPointer) (model : ListenerModel)
    (first : ℕ) (calls : List KokkosCall) (returned : ℕ → KokkosCall → Prop)
    (report : List (Occurrence ν)) (process : Process ν σ)
    : Prop where
  sound : process.Sound tools
  listed : model ∈ process.world.listeners
  counted : process.calls = first + calls.length
  unmade
    : ∀ occurrence ∈ report, ∀ number ∈ occurrence.number?, number < process.calls
  served
    : ∀ index call,
        calls[index]? = some call
        → Served model (first + index) call (returned (first + index)) process report

/-- A call that has just been made is in flight if a listener handles it. -/
theorem Served.made (sound : process.Sound tools) (listed : model ∈ process.world.listeners)
    (stepped : ThreadStep thread process (.kokkosCall call) next shown)
    (undelivered : deliveriesOf model process.calls report = [])
    (unanswered : answersOf process.calls report = [])
    : Served model process.calls call returned next (report ++ shown) := by
  have undrawn (other : ThreadId) : process.calls ∉ process.inFlight other :=
    fun member => Nat.lt_irrefl _ (sound.tickets.drawn member)
  cases stepped with
  | skips call user unset =>
      refine .finished undrawn fun handles => ?_
      rw [sound.dispatching listed handles] at unset
      cases unset
  | callsTool call function user set =>
      refine .finished (fun other member => ?_) fun handles => ?_
      · rw [Process.inFlight_setStack] at member
        exact undrawn other (Tickets.mem_of_mem_update (List.Sublist.refl _) member)
      · rw [sound.dispatching listed handles] at set
        cases set
  | enters call type event user set packed =>
      obtain rfl := sound.dispatching_type set
      rw [Manager.packEvent_type] at packed
      obtain rfl := Option.some.inj packed
      rw [List.append_nil]
      refine .inFlight thread (.entered process.calls call call.event) call.event ?_ rfl
        ⟨rfl, unanswered⟩ fun _ => undelivered
      simp [Process.setStack]

/-- Each step serves the calls further. -/
theorem Process.Serves.step {first : ℕ} {calls : List KokkosCall}
    {returned returnedLater : ℕ → KokkosCall → Prop}
    (serves : process.Serves tools model first calls returned report)
    (stepped : ThreadStep thread process action next shown)
    (stays : ¬Unregisters shown model.address)
    (spared : ∀ address, Unregisters shown address → ¬process.StandsAt address)
    (kept : ∀ number other, returned number other → returnedLater number other)
    (back
      : ∀ number other,
          shown = [.happened (.returned other)]
          → number ∈ process.inFlight thread
          → number ∉ next.inFlight thread
          → returnedLater number other)
    : next.Serves tools model first (calls ++ action.call?.toList) returnedLater
        (report ++ shown) := by
  obtain ⟨sound, listed, counted, unmade, served⟩ := serves
  have calls_eq := stepped.calls_eq
  refine ⟨(sound.step stepped).1, ?_, ?_, ?_, ?_⟩
  · obtain ⟨keep, added, relisted, -, staying⟩ := stepped.relists sound
    rw [relisted, List.mem_append, List.mem_filter]
    exact .inl ⟨listed, staying _ stays⟩
  · rw [calls_eq, counted, List.length_append, Nat.add_assoc]
  · intro occurrence member number concerns
    rw [calls_eq]
    refine Nat.lt_add_right _ ?_
    rcases List.mem_append.mp member with before | now
    · exact unmade occurrence before number concerns
    · obtain ⟨-, top, outer, stack, onTop⟩ := stepped.number?_eq sound now concerns
      exact sound.tickets.drawn (Process.mem_inFlight_of_top stack onTop)
  · intro index call there
    rcases Nat.lt_or_ge index calls.length with earlier | last
    · rw [List.getElem?_append_left earlier] at there
      exact (served index call there).step sound listed stepped stays spared (by omega) (kept _)
        (back _)
    · have made : action.call? = some call ∧ index = calls.length := by
        rw [List.getElem?_append_right last] at there
        cases known : action.call? with
        | none => simp [known] at there
        | some other =>
            rw [known, Option.toList_some, List.getElem?_singleton] at there
            split at there
            · exact ⟨there, by omega⟩
            · cases there
      obtain ⟨calling, rfl⟩ := made
      rw [← counted]
      have apart : ∀ occurrence ∈ report, occurrence.number? ≠ some process.calls :=
        fun occurrence member concerns =>
          Nat.lt_irrefl _ (unmade occurrence member _ concerns)
      obtain ⟨undelivered, unanswered⟩ := unconcerned model apart
      cases action with
      | kokkosCall other =>
          obtain rfl := Option.some.inj calling
          exact .made sound listed stepped undelivered unanswered
      | _ => cases calling

/-- The step of a run in which a call returns: the thread that is inside it goes on, and is inside
it no more.
-/
def ReturnsIn (schedule : List (ThreadId × Action ν)) (process : Process ν σ) (number : ℕ)
    (call : KokkosCall)
    : Prop :=
  ∃ before step after middle next earlier,
    schedule = before ++ step :: after
    ∧ interleave before process = some (middle, earlier)
    ∧ act step middle = some (next, [.happened (.returned call)])
    ∧ number ∈ middle.inFlight step.1
    ∧ number ∉ next.inFlight step.1

theorem ReturnsIn.of_earlier {schedule later : List (ThreadId × Action ν)}
    (returns : ReturnsIn schedule process number call)
    : ReturnsIn (schedule ++ later) process number call := by
  obtain ⟨before, step, after, middle, next, earlier, split, rest⟩ := returns
  exact ⟨before, step, after ++ later, middle, next, earlier, by simp [split], rest⟩

/-- No listener is unregistered at whose node a loop stands, which would leave the iterator of the
loop invalid.
-/
def LoopsSpared (schedule : List (ThreadId × Action ν)) (process : Process ν σ) : Prop :=
  ∀ before step after middle next earlier shown,
    schedule = before ++ step :: after
    → interleave before process = some (middle, earlier)
    → act step middle = some (next, shown)
    → ∀ address, Unregisters shown address → ¬middle.StandsAt address

theorem LoopsSpared.of_earlier {schedule later : List (ThreadId × Action ν)}
    (spared : LoopsSpared (schedule ++ later) process)
    : LoopsSpared schedule process := by
  intro before step after middle next earlier shown split
  exact spared before step (after ++ later) middle next earlier shown (by simp [split])

/-- All calls are served in each interleaving: induction on the schedule from its end. -/
theorem Process.Sound.serves {schedule : List (ThreadId × Action ν)} (sound : process.Sound tools)
    (listed : model ∈ process.world.listeners) (spared : LoopsSpared schedule process)
    (ran : Callbacks.interleave schedule process = some (next, report))
    (stays : ¬Unregisters report model.address)
    : next.Serves tools model process.calls (callsOf schedule) (ReturnsIn schedule process)
        report := by
  induction schedule using List.reverseRecOn generalizing next report with
  | nil =>
      obtain ⟨rfl, rfl⟩ := Prod.mk.inj (Option.some.inj ran)
      exact ⟨sound, listed, rfl, nofun, nofun⟩
  | append_singleton schedule step ih =>
      obtain ⟨middle, earlier, later, before, last, rfl⟩ := runSteps_append_eq_some.mp ran
      obtain ⟨final, shown, rest, acted, finished, rfl⟩ := runSteps_cons_eq_some.mp last
      obtain ⟨rfl, rfl⟩ := Prod.mk.inj (Option.some.inj finished)
      rw [List.append_nil] at stays ⊢
      have served :=
        ih spared.of_earlier before fun erased => stays (List.mem_append_left _ erased)
      rw [callsOf_concat]
      refine served.step (.of_act acted) (fun erased => stays (List.mem_append_right _ erased)) ?_
        (fun _ _ returns => returns.of_earlier) ?_
      · exact spared schedule step [] middle final earlier shown rfl before acted
      · rintro number call rfl inside gone
        exact ⟨schedule, step, [], middle, final, earlier, rfl, before, acted, inside, gone⟩

/-- By its account, a frame has delivered its event once, with the id that the call was given, or
not yet.
-/
theorem Frame.Accounts.cases {world : World σ} {frame : Frame ν} {event : KokkosEvent}
    {delivered answers : List KokkosEvent} (accounts : frame.Accounts model world delivered)
    (serves : frame.call? = some (number, call, event)) (carries : frame.Carries answers)
    : (∃ out, answers = [(call.leave out).event] ∧ delivered = [(call.leave out).event])
      ∨ delivered = [] := by
  have loop {node : Option Address} {out : call.Out}
      (answered : answers = [(call.leave out).event])
      (accounts
        : LoopAccounts model (world.pointers (call.leave out).event.type) node
            (call.leave out).event delivered)
      : (∃ out, answers = [(call.leave out).event] ∧ delivered = [(call.leave out).event])
        ∨ delivered = [] := by
    obtain ⟨rest, -, delivered⟩ := accounts
    split at delivered
    · exact .inr delivered
    · exact .inl ⟨out, answered, delivered⟩
  cases frame with
  | looping number call event node =>
      cases serves
      obtain ⟨answered, out, rfl⟩ := carries
      exact loop answered accounts
  | listening number call event node =>
      cases serves
      obtain ⟨answered, out, rfl⟩ := carries
      exact loop answered accounts
  | _ => exact .inr accounts

/-- Exactly-once delivery under concurrency. Threads call Kokkos, dispatch events, register and
unregister listeners and make nested calls from within listeners. Registrations are serialized: each
takes place as a whole between steps of the other threads; apart from this, any interleaving is
possible, from any state that an initialized Manager reaches. A listener that stays registered gets
the event of each call of a type that it handles, with the id that the Manager or the context has
given to this call and with which the call returns: exactly once if the call has returned, and at
most once while a thread is still inside it. No listener may be unregistered at whose node a loop
stands.
-/
theorem concurrentDelivery_once {outside : σ}
    {frames : ThreadId → List (FunctionPointer × KokkosCall)}
    {earlier schedule : List (ThreadId × Action ν)} {final : Process ν σ}
    {past report : List (Occurrence ν)}
    (reached
      : interleave earlier (.initialized (toolCallbacks tools) outside frames)
        = some (process, past))
    (listed : model ∈ process.world.listeners)
    (ran : interleave schedule process = some (final, report))
    (stays : ¬Unregisters report model.address) (spared : LoopsSpared schedule process) {index : ℕ}
    {call : KokkosCall} (made : (callsOf schedule)[index]? = some call)
    (handles : model.handles (.kokkos call.type) = true)
    : (∃ out,
        answersOf (process.calls + index) report = [(call.leave out).event]
        ∧ deliveriesOf model (process.calls + index) report = [(call.leave out).event]
        ∧ (ReturnsIn schedule process (process.calls + index) (call.leave out)
          ∨ ∃ thread, process.calls + index ∈ final.inFlight thread))
      ∨ deliveriesOf model (process.calls + index) report = []
        ∧ ∃ thread, process.calls + index ∈ final.inFlight thread := by
  have sound := (Process.Sound.start outside frames).interleave reached
  cases (sound.serves listed spared ran stays).served index call made with
  | finished gone delivered =>
      obtain ⟨out, returned, answered, once⟩ := delivered handles
      exact .inl ⟨out, answered, once, .inl returned⟩
  | inFlight thread frame event member serving carries accounts =>
      have inside : process.calls + index ∈ final.inFlight thread :=
        List.mem_filterMap.mpr ⟨frame, member, by rw [Frame.number?, serving]; rfl⟩
      rcases (accounts handles).cases serving carries with ⟨out, answered, once⟩ | undelivered
      · exact .inl ⟨out, answered, once, .inr ⟨thread, inside⟩⟩
      · exact .inr ⟨undelivered, thread, inside⟩

/-- Whether an action unregisters a listener. -/
def Action.unregisters : Action ν → Bool
  | .perform (.unregisterByPointer ..) => true
  | .perform (.unregisterByHandle ..) => true
  | _ => false

/-- Only unregistration is reported as such, by cases on the operation. -/
theorem perform_not_unregistered {callees : Callees ν σ} {operation : Operation ν}
    {world next : World σ} {report : List (Happening ν)} {address : Address}
    (consistent : world.Consistent tools) (single : operation.isStep = true)
    (keeps : (Action.perform operation).unregisters = false)
    (performed : perform callees operation world = some (next, report))
    : .unregistered address ∉ report := by
  cases operation with
  | initializeSingleton =>
      obtain ⟨-, rfl⟩ := Prod.mk.inj (Option.some.inj performed)
      simp
  | registerShared callable pointer address =>
      obtain ⟨-, rfl, -⟩ := consistent.registerListenerImpl performed
      simp
  | registerObject callable address =>
      obtain ⟨-, rfl, -⟩ := consistent.registerListenerImpl performed
      simp
  | getNextEventId =>
      obtain ⟨_, -, same⟩ := Option.map_eq_some_iff.mp performed
      obtain ⟨-, rfl⟩ := Prod.mk.inj same
      simp
  | getNextSectionId =>
      obtain ⟨_, -, same⟩ := Option.map_eq_some_iff.mp performed
      obtain ⟨-, rfl⟩ := Prod.mk.inj same
      simp
  | unregisterByPointer callable pointer => cases keeps
  | unregisterByHandle handle => cases keeps
  | kokkosCall call => cases single
  | dispatch event => cases single
  | finalizeSingleton => cases single

/-- Only a step that performs an operation reports that a listener is unregistered. -/
theorem ThreadStep.performs_of_unregisters (initialized : process.world.singleton.isSome = true)
    (stepped : ThreadStep thread process action next shown) {address : Address}
    (erased : Unregisters shown address)
    : ∃ operation report,
        action = .perform operation
        ∧ operation.isStep = true
        ∧ perform Callees.quiet operation process.world = some (next.world, report)
        ∧ .unregistered address ∈ report := by
  cases stepped with
  | performs operation world report user single performed =>
      obtain ⟨happening, inReport, same⟩ := List.mem_map.mp erased
      obtain rfl := Occurrence.happened.inj same
      exact ⟨operation, report, rfl, single, performed, inReport⟩
  | resumes top outer frames world shown stack resumed =>
      obtain ⟨manager, active⟩ := Option.isSome_iff_exists.mp initialized
      cases Resumes.of_resumeFrame active resumed <;> simp [Unregisters] at erased
  | leaves answer top outer frames shown stack left =>
      cases top <;> simp [leaveFrame] at left <;> obtain ⟨-, rfl⟩ := left <;>
        simp [Unregisters] at erased
  | _ => simp [Unregisters] at erased

/-- All loops are spared as long as nothing is unregistered. -/
theorem loopsSpared_of_keeps {schedule : List (ThreadId × Action ν)} (sound : process.Sound tools)
    (keeps : ∀ step ∈ schedule, step.2.unregisters = false)
    : LoopsSpared schedule process := by
  intro before step after middle next earlier shown split ran acted address erased
  obtain ⟨thread, action⟩ := step
  have member : (thread, action) ∈ schedule := by simp [split]
  have soundThere := sound.interleave ran
  obtain ⟨operation, report, rfl, single, performed, inReport⟩ :=
    (ThreadStep.of_act acted).performs_of_unregisters soundThere.initialized erased
  exact absurd inReport
    (perform_not_unregistered soundThere.consistent single (keeps _ member) performed)

/-- A listener for markers and reductions. -/
def marksAndReductions : Listener :=
  .explicit "MarksAndReductions" [.kokkos .profileEvent, .kokkos (.beginEvent .parallelReduce)]
    (by decide)

/-- A listener that begins a reduction when it gets a marker, while another thread registers a
second listener.
-/
def nestedCalls : List (ThreadId × Action Unit) :=
  [
    (0, .kokkosCall (.profileEvent "outer")),
    (0, .resume),
    (0, .resume),
    (0, .kokkosCall (.beginEvent .parallelReduce "nested" 7 99)),
    (0, .resume),
    (0, .resume),
    (1, .perform (.registerObject marksAndReductions 6)),
    (0, .leave KokkosCall.out),
    (0, .resume),
    (0, .leave KokkosCall.out),
    (0, .resume)
  ]

/-- A process in which one listener has been registered. -/
def Process.withListener (model : ListenerModel) : Process Unit Unit :=
  {
    world :=
      Manager.update
        {
          contextCallbacks := toolCallbacks fun _ => none
          listeners := [model]
          registeredCallbacks := Manager.pushCallOperators model fun _ => []
        }
        {
          callbacks := toolCallbacks fun _ => none
          singleton := none
          outside := ()
        }
    stackOf := fun _ => []
    calls := 0
  }

/-- The nested call returns with the id that the listeners get, whatever id it was made with. -/
theorem concurrentDelivery_once_nested
    : ∃ (final : Process Unit Unit) (report : List (Occurrence Unit)) (eventId : EventId),
        interleave nestedCalls (.withListener (.object marksAndReductions 5))
          = some (final, report)
        ∧ deliveriesOf (.object marksAndReductions 5) 1 report
          = [.beginEvent .parallelReduce "nested" 7 eventId]
        ∧ ReturnsIn nestedCalls (.withListener (.object marksAndReductions 5)) 1
            (.beginEvent .parallelReduce "nested" 7 eventId) := by
  have reached
      : interleave [(0, .perform (.registerObject marksAndReductions 5))]
          (.initialized (toolCallbacks fun _ => none) () fun _ => [])
        = some (.withListener (.object marksAndReductions 5), [.happened (.registered 5)]) :=
    rfl
  have sound := (Process.Sound.start () fun _ => []).interleave reached
  have ran : interleave nestedCalls (.withListener (.object marksAndReductions 5)) = some (_, _) :=
    rfl
  have once := concurrentDelivery_once reached (List.mem_singleton_self _) ran
    (by simp [Unregisters]) (loopsSpared_of_keeps sound (by decide))
    (show (callsOf nestedCalls)[1]? = some (.beginEvent .parallelReduce "nested" 7 99) from rfl)
    rfl
  obtain ⟨eventId, -, delivered, returned⟩ := once.resolve_right fun undelivered => by
    cases undelivered.1
  refine ⟨_, _, eventId, ran, delivered, returned.resolve_right ?_⟩
  rintro ⟨thread, inside⟩
  cases thread with
  | zero => exact (show 1 ∉ [0] by decide) inside
  | succ thread => cases inside

end KokkosUtils.Callbacks
