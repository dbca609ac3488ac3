import Mathlib.Tactic.IntervalCases
import KokkosUtils.Callbacks.BeginEndTiming
import KokkosUtils.Callbacks.ConcurrentDelivery
import KokkosUtils.Callbacks.Identifiers

/-! The begin and end events that a listener gets from a program with several threads. What matchers
and timers assume of them is what the Manager guarantees, if the program serializes its
registrations and ends only what it has begun since the listener has been registered.
-/

namespace KokkosUtils.Callbacks

open KokkosUtils.Foundations

variable {ν σ θ M : Type} {construct : Construct}

-----------------------------------------------------------------------------------------
-- Streams
-----------------------------------------------------------------------------------------

/-- Whether an event begins or ends a construct. -/
def KokkosEvent.IsOf (construct : Construct) (event : KokkosEvent) : Prop :=
  event.type = .beginEvent construct ∨ event.type = .endEvent construct

instance (construct : Construct) (event : KokkosEvent) : Decidable (event.IsOf construct) :=
  inferInstanceAs (Decidable (_ ∨ _))

section

variable {stream : List (Stamped θ)} {input : Stamped θ}

/-- A paired stream goes on with a begin event that has a new id, or with an end event of a begin
event that has not ended yet.
-/
theorem Paired.concat (paired : Paired construct stream) (ofPair : input.event.IsOf construct)
    (begins
      : ∀ eventId,
          input.beginId? = some eventId
          → eventId ≠ invalidEventId ∧ eventId ∉ stream.filterMap Stamped.beginId?)
    (ends
      : ∀ eventId,
          input.endId? = some eventId
          → eventId ∈ stream.filterMap Stamped.beginId?
            ∧ eventId ∉ stream.filterMap Stamped.endId?)
    : Paired construct (stream ++ [input]) where
  ofPair := by
    intro stamped member
    rcases List.mem_append.mp member with before | last
    · exact paired.ofPair stamped before
    · exact List.mem_singleton.mp last ▸ ofPair
  distinct := by
    rw [List.filterMap_append, List.nodup_append]
    refine ⟨paired.distinct, ?_, ?_⟩
    · cases known : input.beginId? <;> simp [known]
    · intro before member eventId last
      have same : input.beginId? = some eventId := by simpa using last
      rintro rfl
      exact (begins before same).2 member
  valid := by
    rw [List.filterMap_append, List.mem_append]
    rintro (before | last)
    · exact paired.valid before
    · have same : input.beginId? = some invalidEventId := by simpa using last
      exact (begins _ same).1 rfl
  begun := by
    intro position bound eventId ending
    rcases Nat.lt_or_ge position stream.length with earlier | last
    · rw [List.getElem?_append_left earlier] at ending
      rw [List.take_append_of_le_length (Nat.le_of_lt earlier)]
      exact paired.begun position earlier eventId ending
    · rw [List.length_append, List.length_singleton] at bound
      obtain rfl : position = stream.length := by omega
      rw [List.getElem?_concat_length, Option.bind_some] at ending
      rw [List.take_left]
      exact ends eventId ending

end

-----------------------------------------------------------------------------------------
-- Programs
-----------------------------------------------------------------------------------------

/-- The events of a construct that a report delivers to a listener. -/
def Occurrence.pairEvent? (model : ListenerModel) (construct : Construct)
    : Occurrence ν → Option (Stamped Unit)
  | .delivered _ other event =>
      if other.address = model.address ∧ event.IsOf construct then
        some { moment := (), event := event }
      else
        none
  | _ => none

/-- The stream of these events. -/
def pairStream (model : ListenerModel) (construct : Construct) (report : List (Occurrence ν))
    : List (Stamped Unit) :=
  report.filterMap (Occurrence.pairEvent? model construct)

/-- The id of a call that ends a construct. -/
def KokkosCall.endId? (construct : Construct) : KokkosCall → Option EventId
  | .endEvent other eventId => if other = construct then some eventId else none
  | _ => none

/-- From a state on, a program ends what has begun since that state: each call that ends a construct
carries an id that a call that begins it has returned since, and that no end call has carried since.
-/
def EndsBegun (construct : Construct) (schedule : List (ThreadId × Action ν))
    (process : Process ν σ)
    : Prop :=
  ∀ before thread after middle earlier eventId,
    schedule = before ++ (thread, .kokkosCall (.endEvent construct eventId)) :: after
    → interleave before process = some (middle, earlier)
    → (∃ name devId, .happened (.returned (.beginEvent construct name devId eventId)) ∈ earlier)
      ∧ eventId ∉ (callsOf before).filterMap (KokkosCall.endId? construct)

/-- The events of the call that a thread is inside, as it was made and as it is now. -/
def Frame.events : Frame ν → List KokkosEvent
  | .tool _ call => [call.event]
  | .entered _ call event => [call.event, event]
  | .context _ call event _ => [call.event, event]
  | .looping _ call event _ => [call.event, event]
  | .listening _ call event _ => [call.event, event]
  | _ => []

/-- No thread is inside a call that begins or ends a construct. -/
def Process.IdleFor (construct : Construct) (process : Process ν σ) : Prop :=
  ∀ thread, ∀ frame ∈ process.stackOf thread, ∀ event ∈ frame.events, ¬event.IsOf construct

/-- The ids of the begin events of a construct are distinct and valid: those that the Manager issues
and, if the context has a callback for them, those that it leaves.
-/
structure SoundIds (construct : Construct) (tools : CallbackSlot → Option FunctionPointer)
    (occurrences : List (Occurrence ν))
    : Prop where
  issued : (occurrences.filterMap Occurrence.issuedEventId?).Nodup
  valid : invalidEventId ∉ occurrences.filterMap Occurrence.issuedEventId?
  left
    : (getCallbackFromEventset (.beginEvent construct) (toolCallbacks tools)).isSome = true
      → (occurrences.filterMap (Occurrence.leftEventId? construct)).Nodup
        ∧ invalidEventId ∉ occurrences.filterMap (Occurrence.leftEventId? construct)

variable {tools : CallbackSlot → Option FunctionPointer} {model : ListenerModel}
  {report shown past : List (Occurrence ν)}

/-- They are so from the beginning. -/
theorem SoundIds.of_earlier {earlier later : List (Occurrence ν)}
    (ids : SoundIds construct tools (earlier ++ later))
    : SoundIds construct tools earlier := by
  have first {α : Type} (view : Occurrence ν → Option α)
      : (earlier.filterMap view).Sublist ((earlier ++ later).filterMap view) :=
    (List.sublist_append_left ..).filterMap view
  refine ⟨(first _).nodup ids.issued, fun member => ids.valid ((first _).subset member),
    fun set => ?_⟩
  obtain ⟨distinct, valid⟩ := ids.left set
  exact ⟨(first _).nodup distinct, fun member => valid ((first _).subset member)⟩

/-- Delivered begin events have valid ids. -/
theorem SoundIds.valid_of_delivered (ids : SoundIds construct tools report)
    (delivered : DeliveredSourced (toolCallbacks tools) report report) {number : ℕ} {name : String}
    {devId : UInt32} {eventId : EventId}
    (seen : .delivered number model (.beginEvent construct name devId eventId) ∈ report)
    : eventId ≠ invalidEventId := by
  rintro rfl
  have source := delivered _ _ _ seen
  rw [sourceOf_beginEvent] at source
  split at source
  · next set =>
      refine (ids.left set).2 (List.mem_filterMap.mpr ⟨_, source, ?_⟩)
      exact if_pos rfl
  · exact ids.valid (List.mem_filterMap.mpr ⟨_, source, rfl⟩)

/-- Begin events with the same id that are delivered belong to the same call. -/
theorem SoundIds.number_unique (ids : SoundIds construct tools report)
    (delivered : DeliveredSourced (toolCallbacks tools) report report) {number otherNumber : ℕ}
    {other : ListenerModel} {name otherName : String} {devId otherDevId : UInt32}
    {eventId : EventId}
    (seen : .delivered number model (.beginEvent construct name devId eventId) ∈ report)
    (otherSeen
      : .delivered otherNumber other (.beginEvent construct otherName otherDevId eventId) ∈ report)
    : number = otherNumber :=
  number_unique_of_delivered delivered ids.issued (fun set => (ids.left set).1) seen otherSeen

/-- A call in flight that concerns a construct has been made recently, and none that begins it is
inside a tool only.
-/
def Frame.Recent (construct : Construct) (first : ℕ) (frame : Frame ν) : Prop :=
  (∀ number ∈ frame.number?, (∃ event ∈ frame.events, event.IsOf construct) → first ≤ number)
  ∧ ∀ function call, frame = .tool function call → call.type ≠ .beginEvent construct

variable {process next : Process ν σ} {thread : ThreadId} {action : Action ν} {frame : Frame ν}
  {frames : List (Frame ν)} {first : ℕ}

/-- What replaces a frame of a call is as recent as it was. -/
theorem Frame.Recent.replaced {inner : Frame ν} (recent : frame.Recent construct first)
    (sameNumber : inner.number? = frame.number?)
    (sameTypes : inner.events.map KokkosEvent.type = frame.events.map KokkosEvent.type)
    (inside : ∀ function call, inner ≠ .tool function call)
    : inner.Recent construct first := by
  refine ⟨fun number here concerned => ?_, fun function call same => (inside _ _ same).elim⟩
  refine recent.1 number (sameNumber ▸ here) ?_
  obtain ⟨event, member, isOf⟩ := concerned
  have typed : event.type ∈ frame.events.map KokkosEvent.type :=
    sameTypes ▸ List.mem_map_of_mem member
  obtain ⟨before, there, same⟩ := List.mem_map.mp typed
  exact ⟨before, there, by rwa [KokkosEvent.IsOf, same]⟩

/-- Frames of a dispatch by a user concern no call. -/
theorem Frame.Recent.of_no_call {inner : Frame ν} (none : inner.call? = none)
    (inside : ∀ function call, inner ≠ .tool function call)
    : inner.Recent construct first := by
  refine ⟨fun number here _ => ?_, fun function call same => (inside _ _ same).elim⟩
  simp [Frame.number?, none] at here

/-- A function that goes on is as recent as before. -/
theorem Frame.Recent.resume {manager : Manager} {world later : World σ}
    (recent : frame.Recent construct first)
    (resumed : Resumes manager world frame later frames shown)
    : ∀ inner ∈ frames, inner.Recent construct first := by
  intro inner member
  cases resumed with
  | asksTool number call event function set =>
      rw [List.mem_singleton.mp member]
      exact recent.replaced rfl rfl nofun
  | numbers number call event numbered next unset incremented =>
      rw [List.mem_singleton.mp member]
      refine recent.replaced rfl ?_ nofun
      simp [Frame.events, (incrementIdIfNeeded_registry incremented).2]
  | returns number call event node finished => cases member
  | delivers number call event node address rest model before found =>
      rw [List.mem_singleton.mp member]
      exact recent.replaced rfl rfl nofun
  | finishes event node => cases member
  | attends event node model =>
      rw [List.mem_singleton.mp member]
      exact .of_no_call rfl nofun
  | passes event node model =>
      rw [List.mem_singleton.mp member]
      exact .of_no_call rfl nofun

/-- So is a function to which a callback returns. -/
theorem Frame.Recent.leave {world : World σ} {answer : (call : KokkosCall) → call.Out}
    (recent : frame.Recent construct first)
    (left : leaveFrame answer frame world = some (frames, shown))
    : ∀ inner ∈ frames, inner.Recent construct first := by
  intro inner member
  cases frame with
  | tool function call =>
      obtain ⟨rfl, -⟩ := Prod.mk.inj (Option.some.inj left)
      cases member
  | context number call event function =>
      obtain ⟨rfl, -⟩ := Prod.mk.inj (Option.some.inj left)
      rw [List.mem_singleton.mp member]
      refine recent.replaced rfl ?_ nofun
      simp [Frame.events]
  | listening number call event node =>
      obtain ⟨rfl, -⟩ := Prod.mk.inj (Option.some.inj left)
      rw [List.mem_singleton.mp member]
      exact recent.replaced rfl rfl nofun
  | attending event node =>
      obtain ⟨rfl, -⟩ := Prod.mk.inj (Option.some.inj left)
      rw [List.mem_singleton.mp member]
      exact .of_no_call rfl nofun
  | _ => cases left

/-- All frames stay recent: new calls have higher numbers, and those that begin the construct enter
a dispatching function as long as a listener handles them.
-/
theorem ThreadStep.recent (sound : process.Sound tools) (listed : model ∈ process.world.listeners)
    (handles : model.handles (.kokkos (.beginEvent construct)) = true)
    (drawn : first ≤ process.calls)
    (recent : ∀ thread, ∀ frame ∈ process.stackOf thread, frame.Recent construct first)
    (stepped : ThreadStep thread process action next shown)
    : ∀ thread, ∀ frame ∈ next.stackOf thread, frame.Recent construct first := by
  have replaced {world : World σ} {calls : ℕ} {stack : List (Frame ν)}
      (each : ∀ frame ∈ stack, frame.Recent construct first)
      : ∀ other,
          ∀ frame ∈ (({ process with world := world, calls := calls } : Process ν σ).setStack thread
            stack).stackOf other,
            frame.Recent construct first := by
    intro other frame member
    by_cases here : other = thread
    · subst here
      simp only [Process.setStack, Function.update_self] at member
      exact each frame member
    · simp only [Process.setStack, Function.update_of_ne here] at member
      exact recent other frame member
  cases stepped with
  | skips call user unset => exact recent
  | callsTool call function user set =>
      refine replaced (List.forall_mem_cons.mpr ⟨⟨?_, ?_⟩, recent thread⟩)
      · simp [Frame.number?, Frame.call?]
      intro _ _ same begins
      obtain ⟨rfl, rfl⟩ := Frame.tool.inj same
      rw [sound.dispatching listed (begins ▸ handles)] at set
      cases set
  | enters call type event user set packed =>
      refine replaced (List.forall_mem_cons.mpr ⟨⟨fun number here _ => ?_, ?_⟩, recent thread⟩)
      · exact Option.some.inj here ▸ drawn
      · simp
  | ignores event user idle => exact recent
  | dispatches event user active =>
      exact replaced (List.forall_mem_cons.mpr ⟨.of_no_call rfl (by simp), recent thread⟩)
  | performs operation world report user single performed => exact recent
  | resumes top outer frames world shown stack resumed =>
      obtain ⟨manager, active⟩ := Option.isSome_iff_exists.mp sound.initialized
      have before := List.forall_mem_cons.mp (stack ▸ recent thread)
      refine replaced (List.forall_mem_append.mpr ⟨?_, before.2⟩)
      exact before.1.resume (Resumes.of_resumeFrame active resumed)
  | leaves answer top outer frames shown stack left =>
      have before := List.forall_mem_cons.mp (stack ▸ recent thread)
      exact replaced (List.forall_mem_append.mpr ⟨before.1.leave left, before.2⟩)

-----------------------------------------------------------------------------------------
-- Steps
-----------------------------------------------------------------------------------------

theorem pairStream_append
    : pairStream model construct (report ++ shown)
      = pairStream model construct report ++ pairStream model construct shown :=
  List.filterMap_append

/-- The stream has the events of the construct that the report delivers to the listener. -/
theorem mem_pairStream {stamped : Stamped Unit}
    : stamped ∈ pairStream model construct report
      ↔ ∃ number other,
          .delivered number other stamped.event ∈ report
          ∧ other.address = model.address
          ∧ stamped.event.IsOf construct := by
  unfold pairStream
  rw [List.mem_filterMap]
  constructor
  · rintro ⟨occurrence, member, shown⟩
    cases occurrence with
    | delivered number other event =>
        simp only [Occurrence.pairEvent?, Option.ite_none_right_eq_some, Option.some.injEq] at shown
        obtain ⟨⟨here, isOf⟩, rfl⟩ := shown
        exact ⟨number, other, member, here, isOf⟩
    | _ => cases shown
  · rintro ⟨number, other, member, here, isOf⟩
    exact ⟨_, member, if_pos ⟨here, isOf⟩⟩

/-- Its begin ids are those of the begin events. -/
theorem mem_beginIds {eventId : EventId}
    : eventId ∈ (pairStream model construct report).filterMap Stamped.beginId?
      ↔ ∃ number other name devId,
          .delivered number other (.beginEvent construct name devId eventId) ∈ report
          ∧ other.address = model.address := by
  rw [List.mem_filterMap]
  constructor
  · rintro ⟨⟨moment, event⟩, inStream, begins⟩
    obtain ⟨number, other, member, here, isOf⟩ := mem_pairStream.mp inStream
    cases event with
    | beginEvent same name devId carried =>
        obtain rfl : carried = eventId := Option.some.inj begins
        obtain rfl : same = construct := by simpa [KokkosEvent.IsOf, KokkosEvent.type] using isOf
        exact ⟨number, other, name, devId, member, here⟩
    | _ => cases begins
  · rintro ⟨number, other, name, devId, member, here⟩
    refine ⟨{ moment := (), event := .beginEvent construct name devId eventId }, ?_, rfl⟩
    exact mem_pairStream.mpr ⟨number, other, member, here, .inl rfl⟩

/-- Its end ids are those of the end events. -/
theorem mem_endIds {eventId : EventId}
    : eventId ∈ (pairStream model construct report).filterMap Stamped.endId?
      ↔ ∃ number other,
          .delivered number other (.endEvent construct eventId) ∈ report
          ∧ other.address = model.address := by
  rw [List.mem_filterMap]
  constructor
  · rintro ⟨⟨moment, event⟩, inStream, ends⟩
    obtain ⟨number, other, member, here, isOf⟩ := mem_pairStream.mp inStream
    cases event with
    | endEvent same carried =>
        obtain rfl : carried = eventId := Option.some.inj ends
        obtain rfl : same = construct := by simpa [KokkosEvent.IsOf, KokkosEvent.type] using isOf
        exact ⟨number, other, member, here⟩
    | _ => cases ends
  · rintro ⟨number, other, member, here⟩
    refine ⟨{ moment := (), event := .endEvent construct eventId }, ?_, rfl⟩
    exact mem_pairStream.mpr ⟨number, other, member, here, .inr rfl⟩

/-- What has been delivered to a listener for a call is in the report. -/
theorem mem_deliveriesOf {number : ℕ} {event : KokkosEvent}
    : event ∈ deliveriesOf model number report
      ↔ ∃ other, .delivered number other event ∈ report ∧ other.address = model.address := by
  unfold deliveriesOf
  rw [List.mem_filterMap]
  constructor
  · rintro ⟨occurrence, member, shown⟩
    cases occurrence with
    | delivered made other seen =>
        simp only [Occurrence.delivery?, Option.ite_none_right_eq_some, Option.some.injEq] at shown
        obtain ⟨⟨rfl, here⟩, rfl⟩ := shown
        exact ⟨other, member, here⟩
    | _ => cases shown
  · rintro ⟨other, member, here⟩
    exact ⟨_, member, if_pos ⟨rfl, here⟩⟩

/-- The id of an event is written back into a call of the same type. -/
theorem Manager.writeBack_type (call : KokkosCall) (event : KokkosEvent)
    : (writeBack call event).type = call.type := by
  unfold writeBack
  split <;> rfl

/-- A frame of a call that has been made since the first one is as the call has been served. -/
theorem Process.Serves.top {calls : List KokkosCall} {returned : ℕ → KokkosCall → Prop}
    (serves : process.Serves tools model first calls returned report) {number : ℕ}
    {call : KokkosCall}
    {event : KokkosEvent} {top : Frame ν} {outer : List (Frame ν)}
    (stack : process.stackOf thread = top :: outer)
    (serving : top.call? = some (number, call, event)) (recent : first ≤ number)
    : calls[number - first]? = some call
      ∧ top.Carries (answersOf number report)
      ∧ (model.handles (.kokkos call.type) = true
        → top.Accounts model process.world (deliveriesOf model number report)) := by
  have onTop : top.number? = some number := by
    rw [Frame.number?, serving]
    rfl
  have inside := Process.mem_inFlight_of_top stack onTop
  have made : number - first < calls.length := by
    have drawn := serves.sound.tickets.drawn inside
    have counted := serves.counted
    omega
  have served := serves.served _ _ (List.getElem?_eq_getElem made)
  rw [Nat.add_sub_cancel' recent] at served
  cases served with
  | finished gone delivered => exact (gone thread inside).elim
  | inFlight other frame event member same carries accounts =>
      have numbered : frame.number? = some number := by
        rw [Frame.number?, same]
        rfl
      obtain ⟨rfl, rfl⟩ := serves.sound.eq_top stack onTop member numbered
      obtain ⟨-, rest⟩ := Prod.mk.inj (Option.some.inj (same.symm.trans serving))
      obtain ⟨calling, -⟩ := Prod.mk.inj rest
      rw [calling] at accounts
      exact ⟨(List.getElem?_eq_getElem made).trans (congrArg some calling), carries, accounts⟩

/-- The state of a program that ends what has begun, seen by a listener. -/
structure Process.Pairs (construct : Construct) (tools : CallbackSlot → Option FunctionPointer)
    (model : ListenerModel) (first : ℕ) (calls : List KokkosCall)
    (past report : List (Occurrence ν)) (process : Process ν σ)
    : Prop where
  serves : process.Serves tools model first calls (fun _ _ => True) report
  identified : process.Identified (toolCallbacks tools) (past ++ report)
  recent : ∀ thread, ∀ frame ∈ process.stackOf thread, frame.Recent construct first
  delivered
    : ∀ number other event,
        .delivered number other event ∈ report
        → other.address = model.address
        → event.IsOf construct
        → first ≤ number
          ∧ ∃ call, calls[number - first]? = some call ∧ ∃ out, event = (call.leave out).event
  returned
    : ∀ name devId eventId,
        .happened (.returned (.beginEvent construct name devId eventId)) ∈ report
        → eventId ∈ (pairStream model construct report).filterMap Stamped.beginId?
  begun
    : ∀ eventId ∈ calls.filterMap (KokkosCall.endId? construct),
        eventId ∈ (pairStream model construct report).filterMap Stamped.beginId?
  distinct : (calls.filterMap (KokkosCall.endId? construct)).Nodup
  paired : Paired construct (pairStream model construct report)

/-- A value that a view shows once in a list is shown at one position. -/
theorem index_unique {α β : Type} {view : α → Option β} {values : List α}
    (distinct : (values.filterMap view).Nodup) {left right : ℕ} {first second : α} {value : β}
    (atLeft : values[left]? = some first) (atRight : values[right]? = some second)
    (seen : view first = some value) (again : view second = some value)
    : left = right := by
  have apart := List.pairwise_iff_getElem.mp (List.pairwise_filterMap.mp distinct)
  obtain ⟨leftBound, rfl⟩ := List.getElem?_eq_some_iff.mp atLeft
  obtain ⟨rightBound, rfl⟩ := List.getElem?_eq_some_iff.mp atRight
  rcases Nat.lt_trichotomy left right with less | same | greater
  · exact (apart left right leftBound rightBound less _ seen _ again rfl).elim
  · exact same
  · exact (apart right left rightBound leftBound greater _ again _ seen rfl).elim

namespace Process.Pairs

variable {calls : List KokkosCall} {call : KokkosCall} {number : ℕ} {event : KokkosEvent}

/-- An event of the construct that a step delivers to the listener is that of a recent call, and
has not been delivered to it before.
-/
theorem delivers (pairs : process.Pairs construct tools model first calls past report)
    (handles
      : ∀ event : KokkosEvent, event.IsOf construct → model.handles (.kokkos event.type) = true)
    (stepped : ThreadStep thread process action next shown) {other : ListenerModel}
    (delivered : .delivered number other event ∈ shown) (here : other.address = model.address)
    (isOf : event.IsOf construct)
    : shown = [.delivered number other event]
      ∧ first ≤ number
      ∧ (∃ call, calls[number - first]? = some call ∧ ∃ out, event = (call.leave out).event)
      ∧ deliveriesOf model number report = [] := by
  cases stepped with
  | resumes top outer frames world shown stack resumed =>
      obtain ⟨manager, active⟩ := Option.isSome_iff_exists.mp pairs.serves.sound.initialized
      cases Resumes.of_resumeFrame active resumed with
      | delivers number call event node address rest found before search =>
          obtain ⟨rfl, rfl, rfl⟩ := by simpa using delivered
          have recentTop
              : (Frame.looping number call event node : Frame ν).Recent construct first :=
            pairs.recent thread _ (stack ▸ List.mem_cons_self)
          have since : first ≤ number :=
            recentTop.1 number rfl ⟨event, by simp [Frame.events], isOf⟩
          obtain ⟨made, ⟨-, out, rfl⟩, accounts⟩ := pairs.serves.top stack rfl since
          have handled : model.handles (.kokkos call.type) = true := by
            have same := handles _ isOf
            rwa [KokkosCall.event_type, KokkosCall.leave_type] at same
          obtain ⟨nodes, ahead, undelivered⟩ := accounts handled
          rw [pairs.serves.sound.registeredCallbacks_eq active] at before
          obtain rfl := Option.some.inj (before.symm.trans ahead)
          have at_ : other.address = address := by simpa using List.find?_some search
          rw [if_pos (by rw [← here, at_]; exact List.mem_cons_self)] at undelivered
          exact ⟨rfl, since, ⟨call, made, out, rfl⟩, undelivered⟩
      | _ => simp at delivered
  | leaves answer top outer frames shown stack left =>
      cases top <;> simp [leaveFrame] at left <;> obtain ⟨-, rfl⟩ := left <;> simp at delivered
  | _ => simp at delivered

/-- A begin event whose id a step returns to the program has been delivered to the listener before.
-/
theorem returns (pairs : process.Pairs construct tools model first calls past report)
    (handles
      : ∀ event : KokkosEvent, event.IsOf construct → model.handles (.kokkos event.type) = true)
    (stepped : ThreadStep thread process action next shown) {name : String} {devId : UInt32}
    {eventId : EventId}
    (back : .happened (.returned (.beginEvent construct name devId eventId)) ∈ shown)
    : eventId ∈ (pairStream model construct report).filterMap Stamped.beginId? := by
  have sound := pairs.serves.sound
  let call : KokkosCall := .beginEvent construct name devId eventId
  have isOf : call.event.IsOf construct := .inl rfl
  cases stepped with
  | skips other user unset =>
      obtain rfl : call = other := by simpa using back
      have set : process.world.callbacks call.slot = some (.dispatching call.type) :=
        sound.dispatching pairs.serves.listed (handles call.event isOf)
      rw [set] at unset
      cases unset
  | performs operation world report user single performed =>
      obtain ⟨happening, member, same⟩ := List.mem_map.mp back
      obtain rfl := Occurrence.happened.inj same
      rcases sound.consistent.perform_cases performed with ⟨_, rfl, -⟩ | ⟨_, _, rfl, -⟩ | quiet
      · cases single
      · cases single
      · cases quiet.2.2 _ member
  | resumes top outer frames world shown stack resumed =>
      obtain ⟨manager, active⟩ := Option.isSome_iff_exists.mp sound.initialized
      cases Resumes.of_resumeFrame active resumed with
      | returns number made event node finished =>
          have recentTop
              : (Frame.looping number made event node : Frame ν).Recent construct first :=
            pairs.recent thread _ (stack ▸ List.mem_cons_self)
          have written : Manager.writeBack made event = call :=
            (Happening.returned.inj (Occurrence.happened.inj (List.mem_singleton.mp back))).symm
          have begins : made.type = .beginEvent construct := by
            rw [← Manager.writeBack_type made event, written]
            rfl
          have concerned : made.event.IsOf construct :=
            .inl ((KokkosCall.event_type made).trans begins)
          have since : first ≤ number :=
            recentTop.1 number rfl ⟨made.event, by simp [Frame.events], concerned⟩
          obtain ⟨-, ⟨-, out, rfl⟩, accounts⟩ := pairs.serves.top stack rfl since
          obtain ⟨rest, found, delivered⟩ := accounts (begins ▸ handles call.event isOf)
          rw [sound.registeredCallbacks_eq active] at finished
          obtain rfl := Option.some.inj (finished.symm.trans found)
          rw [if_neg List.not_mem_nil] at delivered
          rw [Manager.writeBack_leave] at written
          rw [written] at delivered
          obtain ⟨other, member, here⟩ :=
            mem_deliveriesOf.mp (delivered ▸ List.mem_singleton_self _)
          exact mem_beginIds.mpr ⟨number, other, name, devId, member, here⟩
      | _ => simp at back
  | leaves answer top outer frames shown stack left =>
      cases top with
      | tool function other =>
          obtain ⟨-, rfl⟩ := Prod.mk.inj (Option.some.inj left)
          have same : other.leave (answer other) = call :=
            (Happening.returned.inj (Occurrence.happened.inj (List.mem_singleton.mp back))).symm
          have recentTop : (Frame.tool function other : Frame ν).Recent construct first :=
            pairs.recent thread _ (stack ▸ List.mem_cons_self)
          refine (recentTop.2 function other rfl ?_).elim
          rw [← KokkosCall.leave_type other (answer other), same]
          rfl
      | _ => simp [leaveFrame] at left <;> obtain ⟨-, rfl⟩ := left <;> simp at back
  | _ => simp at back

/-- The stream grows by at most one event in a step. -/
theorem pairStream_cases (shown : List (Occurrence ν))
    : pairStream model construct shown = []
      ∨ ∃ number other event,
          .delivered number other event ∈ shown
          ∧ other.address = model.address
          ∧ event.IsOf construct := by
  cases known : pairStream model construct shown with
  | nil => exact .inl rfl
  | cons stamped rest =>
      obtain ⟨number, other, found⟩ := mem_pairStream.mp (known ▸ List.mem_cons_self)
      exact .inr ⟨number, other, stamped.event, found⟩

/-- A call whose event ends a construct is an end call. -/
theorem endId?_of_leave {out : call.Out} {eventId : EventId}
    (ends : KokkosEvent.endEvent construct eventId = (call.leave out).event)
    : call.endId? construct = some eventId := by
  cases call <;> cases ends
  exact if_pos rfl

/-- An end call is known by its id. -/
theorem eq_endEvent_of_endId? {eventId : EventId} (ends : call.endId? construct = some eventId)
    : call = .endEvent construct eventId := by
  cases call with
  | endEvent other carried =>
      obtain ⟨rfl, same⟩ := Option.ite_none_right_eq_some.mp ends
      rw [Option.some.inj same]
  | _ => cases ends

/-- The stream of the listener stays paired. -/
theorem paired_step (pairs : process.Pairs construct tools model first calls past report)
    (handles
      : ∀ event : KokkosEvent, event.IsOf construct → model.handles (.kokkos event.type) = true)
    (stepped : ThreadStep thread process action next shown)
    (ids : SoundIds construct tools (past ++ (report ++ shown)))
    (sourced
      : DeliveredSourced (toolCallbacks tools) (past ++ (report ++ shown))
          (past ++ (report ++ shown)))
    : Paired construct (pairStream model construct (report ++ shown)) := by
  rw [pairStream_append]
  rcases pairStream_cases shown with nothing | ⟨number, other, event, member, here, isOf⟩
  · rw [nothing, List.append_nil]
    exact pairs.paired
  · obtain ⟨rfl, since, ⟨call, made, out, carried⟩, undelivered⟩ :=
      pairs.delivers handles stepped member here isOf
    have last
        : pairStream model construct [(.delivered number other event : Occurrence ν)]
          = [{ moment := (), event := event }] := by
      simp [pairStream, Occurrence.pairEvent?, here, isOf]
    have notBefore {seen : ListenerModel} {earlier : KokkosEvent}
        (same : seen.address = model.address)
        : .delivered number seen earlier ∉ report := by
      intro inReport
      have delivered := mem_deliveriesOf.mpr ⟨seen, inReport, same⟩
      rw [undelivered] at delivered
      cases delivered
    have now
        : .delivered number other event
          ∈ past ++ (report ++ [(.delivered number other event : Occurrence ν)]) := by
      simp
    rw [last]
    refine pairs.paired.concat isOf (fun eventId begins => ?_) fun eventId ends => ?_
    · cases event with
      | beginEvent same name devId carriedId =>
          obtain rfl : carriedId = eventId := Option.some.inj begins
          obtain rfl : same = construct := by simpa [KokkosEvent.IsOf, KokkosEvent.type] using isOf
          refine ⟨ids.valid_of_delivered sourced now, fun again => ?_⟩
          obtain ⟨earlier, seen, _, _, inReport, there⟩ := mem_beginIds.mp again
          obtain rfl : earlier = number :=
            ids.number_unique sourced
              (List.mem_append_right _ (List.mem_append_left _ inReport)) now
          exact notBefore there inReport
      | _ => cases begins
    · cases event with
      | endEvent same carriedId =>
          obtain rfl : carriedId = eventId := Option.some.inj ends
          obtain rfl : same = construct := by simpa [KokkosEvent.IsOf, KokkosEvent.type] using isOf
          have ending := endId?_of_leave carried
          have inCalls : call ∈ calls := List.mem_of_getElem? made
          refine ⟨pairs.begun _ (List.mem_filterMap.mpr ⟨call, inCalls, ending⟩), fun again => ?_⟩
          obtain ⟨earlier, seen, inReport, there⟩ := mem_endIds.mp again
          obtain ⟨sinceThen, before, madeThen, _, carriedThen⟩ :=
            pairs.delivered _ _ _ inReport there (.inr rfl)
          have sameIndex : earlier - first = number - first :=
            index_unique pairs.distinct madeThen made (endId?_of_leave carriedThen) ending
          obtain rfl : earlier = number := by omega
          exact notBefore there inReport
      | _ => cases ends

/-- Nothing has been delivered yet. -/
theorem start (sound : process.Sound tools) (listed : model ∈ process.world.listeners)
    (identified : process.Identified (toolCallbacks tools) past) (idle : process.IdleFor construct)
    : process.Pairs construct tools model process.calls [] past [] where
  serves := ⟨sound, listed, rfl, nofun, nofun⟩
  identified := by rwa [List.append_nil]
  recent := by
    intro thread frame member
    refine ⟨fun number _ concerned => ?_, fun function call same begins => ?_⟩
    · obtain ⟨event, inFrame, isOf⟩ := concerned
      exact (idle thread frame member event inFrame isOf).elim
    · subst same
      exact idle thread _ member call.event (List.mem_singleton_self _)
        (.inl ((KokkosCall.event_type call).trans begins))
  delivered := nofun
  returned := nofun
  begun := nofun
  distinct := List.nodup_nil
  paired := ⟨nofun, List.nodup_nil, List.not_mem_nil, nofun⟩

/-- Each step of a program that ends what has begun keeps its pairs. -/
theorem step (pairs : process.Pairs construct tools model first calls past report)
    (handles
      : ∀ event : KokkosEvent, event.IsOf construct → model.handles (.kokkos event.type) = true)
    (acted : act (thread, action) process = some (next, shown))
    (stays : ¬Unregisters shown model.address)
    (spared : ∀ address, Unregisters shown address → ¬process.StandsAt address)
    (ids : SoundIds construct tools (past ++ (report ++ shown)))
    (ends
      : ∀ call eventId,
          action.call? = some call
          → call.endId? construct = some eventId
          → (∃ name devId,
              .happened (.returned (.beginEvent construct name devId eventId)) ∈ report)
            ∧ eventId ∉ calls.filterMap (KokkosCall.endId? construct))
    : next.Pairs construct tools model first (calls ++ action.call?.toList) past
        (report ++ shown) := by
  have stepped := ThreadStep.of_act acted
  have sound := pairs.serves.sound
  have identified : next.Identified (toolCallbacks tools) (past ++ (report ++ shown)) := by
    rw [← List.append_assoc]
    exact pairs.identified.act acted
  have grows {eventId : EventId}
      (before : eventId ∈ (pairStream model construct report).filterMap Stamped.beginId?)
      : eventId ∈ (pairStream model construct (report ++ shown)).filterMap Stamped.beginId? := by
    rw [pairStream_append, List.filterMap_append]
    exact List.mem_append_left _ before
  have still {index : ℕ} {call : KokkosCall} (made : calls[index]? = some call)
      : (calls ++ action.call?.toList)[index]? = some call := by
    rw [List.getElem?_append_left (List.getElem?_eq_some_iff.mp made).1, made]
  have serves := pairs.serves.step stepped stays spared (fun _ _ => id) fun _ _ _ _ _ => trivial
  refine ⟨serves, identified, ?_, ?_, ?_, ?_, ?_, ?_⟩
  · have drawn : first ≤ process.calls := by
      have counted := pairs.serves.counted
      omega
    exact stepped.recent sound pairs.serves.listed
      (handles (.beginEvent construct "" 0 0) (.inl rfl)) drawn pairs.recent
  · intro number other event member here isOf
    rcases List.mem_append.mp member with before | now
    · obtain ⟨since, call, made, carried⟩ := pairs.delivered number other event before here isOf
      exact ⟨since, call, still made, carried⟩
    · obtain ⟨-, since, ⟨call, made, carried⟩, -⟩ := pairs.delivers handles stepped now here isOf
      exact ⟨since, call, still made, carried⟩
  · intro name devId eventId member
    rcases List.mem_append.mp member with before | now
    · exact grows (pairs.returned name devId eventId before)
    · exact grows (pairs.returns handles stepped now)
  · intro eventId member
    rw [List.filterMap_append, List.mem_append] at member
    rcases member with before | now
    · exact grows (pairs.begun eventId before)
    · obtain ⟨call, made, ending⟩ := List.mem_filterMap.mp now
      obtain ⟨⟨name, devId, back⟩, -⟩ := ends call eventId (by simpa using made) ending
      exact grows (pairs.returned name devId eventId back)
  · rw [List.filterMap_append]
    cases called : action.call? with
    | none => simpa using pairs.distinct
    | some call =>
        cases ending : call.endId? construct with
        | none => simpa [ending] using pairs.distinct
        | some eventId =>
            have fresh := (ends call eventId called ending).2
            rw [Option.toList_some, List.filterMap_cons_some ending, List.filterMap_nil,
              List.nodup_append]
            refine ⟨pairs.distinct, List.nodup_singleton _, ?_⟩
            intro earlier member last isLast
            rw [List.mem_singleton.mp isLast]
            exact fun same => fresh (same ▸ member)
  · exact pairs.paired_step handles stepped ids identified.delivered

/-- The pairs are kept in each interleaving: induction on the schedule from its end. -/
theorem interleave {schedule : List (ThreadId × Action ν)}
    (pairs : process.Pairs construct tools model first [] past [])
    (handles
      : ∀ event : KokkosEvent, event.IsOf construct → model.handles (.kokkos event.type) = true)
    (ran : interleave schedule process = some (next, report))
    (stays : ¬Unregisters report model.address) (spared : LoopsSpared schedule process)
    (ids : SoundIds construct tools (past ++ report)) (ends : EndsBegun construct schedule process)
    : next.Pairs construct tools model first (callsOf schedule) past report := by
  induction schedule using List.reverseRecOn generalizing next report with
  | nil =>
      obtain ⟨rfl, rfl⟩ := Prod.mk.inj (Option.some.inj ran)
      exact pairs
  | append_singleton schedule step ih =>
      obtain ⟨thread, action⟩ := step
      obtain ⟨middle, earlier, later, before, last, rfl⟩ := runSteps_append_eq_some.mp ran
      obtain ⟨final, shown, rest, acted, finished, rfl⟩ := runSteps_cons_eq_some.mp last
      obtain ⟨rfl, rfl⟩ := Prod.mk.inj (Option.some.inj finished)
      rw [List.append_nil] at stays ids ⊢
      have idsBefore : SoundIds construct tools (past ++ earlier) := by
        rw [← List.append_assoc] at ids
        exact ids.of_earlier
      have endsBefore : EndsBegun construct schedule process := by
        intro start other after middle report eventId split
        exact ends start other (after ++ [(thread, action)]) middle report eventId (by simp [split])
      have kept := ih before (fun erased => stays (List.mem_append_left _ erased))
        spared.of_earlier idsBefore endsBefore
      rw [callsOf_concat]
      have staysNow := fun erased => stays (List.mem_append_right _ erased)
      refine kept.step handles acted staysNow ?_ ids ?_
      · exact spared schedule (thread, action) [] middle final earlier shown rfl before acted
      · intro call eventId made ending
        obtain rfl := eq_endEvent_of_endId? ending
        cases action with
        | kokkosCall other =>
            obtain rfl := Option.some.inj made
            exact ends schedule thread [] middle earlier eventId rfl before
        | _ => cases made

end Process.Pairs

end KokkosUtils.Callbacks
