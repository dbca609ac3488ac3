import KokkosUtils.Callbacks.Invariants
import KokkosUtils.Callbacks.RecorderListener

/-! What recorders receive.
Callbacks and operations change a recorder only by the deliveries that their reports show, and
a recorder keeps of these what its matcher accepts.
-/

namespace KokkosUtils.Callbacks

open KokkosUtils.Foundations KokkosUtils.Impl

variable {ν μ ρ : Type} {tools : CallbackSlot → Option FunctionPointer}

/-- A recorder that receives events appends those of its class that its matcher accepts when it
runs over them in order, by induction on the events.
-/
theorem foldl_call_recordedEvents (events : List (Event ν)) (recorder : RecorderListener ν μ)
    : (events.foldl RecorderListener.call recorder).recordedEvents
      = recorder.recordedEvents
        ++ recorder.recorderClass.matcher.accepted
            (events.filter (fun event => event.type ∈ recorder.recorderClass.eventTypes))
            recorder.matcher := by
  induction events generalizing recorder with
  | nil => simp
  | cons event rest ih =>
      rw [List.foldl_cons, ih]
      by_cases typed : event.type ∈ recorder.recorderClass.eventTypes
      · rw [List.filter_cons_of_pos (by simpa using typed), Acceptor.accepted]
        cases verdict : (recorder.recorderClass.matcher.step event recorder.matcher).1 <;>
          simp [RecorderListener.call, typed, verdict]
      · rw [List.filter_cons_of_neg (by simpa using typed)]
        simp [RecorderListener.call, typed]

@[simp] theorem deliveries_append (pointer : Pointer) (left right : List (Happening ν))
    : deliveries pointer (left ++ right) = deliveries pointer left ++ deliveries pointer right :=
  List.filterMap_append

@[simp] theorem deliveries_during (pointer : Pointer) (report : List (Happening ν))
    : deliveries pointer (report.map .during) = deliveries pointer report := by
  simp [deliveries, List.filterMap_map, Function.comp_def, Happening.delivered?]

/-- A callback, an operation or a callable changes a recorder only by deliveries to it. -/
def Records (pointer : Pointer) (before after : World (Outside ν μ ρ))
    (report : List (Happening ν))
    : Prop :=
  ∀ recorder,
    before.outside.recorders pointer = some recorder
    → after.outside.recorders pointer
      = some ((deliveries pointer report).foldl RecorderListener.call recorder)

theorem Records.trans {pointer : Pointer} {before middle after : World (Outside ν μ ρ)}
    {first later : List (Happening ν)} (records : Records pointer before middle first)
    (others : Records pointer middle after later)
    : Records pointer before after (first ++ later) := by
  intro recorder known
  rw [deliveries_append, List.foldl_append]
  exact others _ (records _ known)

/-- Where nothing is delivered and nothing changes outside, recorders stay as they are. -/
theorem Records.of_outside {pointer : Pointer} {before after : World (Outside ν μ ρ)}
    {report : List (Happening ν)} (same : after.outside = before.outside)
    (silent : deliveries pointer report = [])
    : Records pointer before after report := by
  intro recorder known
  rw [same, silent]
  exact known

/-- A recorder that only receives events stays alive. -/
theorem Records.alive {pointer : Pointer} {world next : World (Outside ν μ ρ)}
    {report : List (Happening ν)} (records : Records pointer world next report)
    (alive : (world.outside.recorders pointer).isSome = true)
    : (next.outside.recorders pointer).isSome = true := by
  obtain ⟨object, known⟩ := Option.isSome_iff_exists.mp alive
  rw [records object known]
  rfl

variable (bystanders : Bystanders ν μ ρ)

/-- Calls of the context deliver to recorders what they report. -/
theorem Bystanders.callContext_records (pointer : Pointer) (function : FunctionPointer)
    (call : KokkosCall) (world : World (Outside ν μ ρ))
    : Records pointer world (bystanders.andRecorders.callContext function call world).1
        (bystanders.andRecorders.callContext function call world).2.2 := by
  intro recorder known
  have recorded := bystanders.context_recorders function call world pointer recorder known
  rw [← deliveries_during] at recorded
  exact recorded

/-- Calls of listeners deliver to recorders what they report: a recorder receives the event, and
other listeners may cause deliveries of their own.
-/
theorem Bystanders.callListener_records (pointer : Pointer) (model : ListenerModel)
    (event : Event ν) (world : World (Outside ν μ ρ))
    : Records pointer world (bystanders.andRecorders.callListener model event world).1
        (bystanders.andRecorders.callListener model event world).2 := by
  intro recorder known
  have others : model.sharedPointer ≠ some pointer
      → (bystanders.callees.callListener model event world).1.outside.recorders pointer
        = some
            ((deliveries pointer (bystanders.callees.callListener model event world).2).foldl
              RecorderListener.call recorder) := by
    intro elsewhere
    have recorded := bystanders.listener_recorders model event world pointer recorder known
    rw [← deliveries_during] at recorded
    simpa [Callees.callListener, deliveries, Happening.delivered?, elsewhere] using recorded
  cases shared : model.sharedPointer with
  | none => simpa [Callees.callListener, Bystanders.andRecorders, shared] using others
  | some place =>
      cases held : world.outside.recorders place with
      | none =>
          have elsewhere : place ≠ pointer := by
            rintro rfl
            rw [held] at known
            cases known
          simpa [Callees.callListener, Bystanders.andRecorders, shared, held, elsewhere]
            using others
      | some object =>
          by_cases same : place = pointer
          · subst same
            obtain rfl := Option.some.inj (held.symm.trans known)
            simp [Callees.callListener, Bystanders.andRecorders, shared, held, setRecorder,
              deliveries, Happening.delivered?]
          · simpa [Callees.callListener, Bystanders.andRecorders, shared, held, setRecorder,
              deliveries, Happening.delivered?, same, Function.update_of_ne (Ne.symm same)]
              using known

/-- A notification delivers to recorders what it reports, since each listener does. -/
theorem Bystanders.notifyAll_records (pointer : Pointer) (event : Event ν)
    (models : List ListenerModel) (world : World (Outside ν μ ρ))
    : Records pointer world (notifyAll bystanders.andRecorders event models world).1
        (notifyAll bystanders.andRecorders event models world).2 := by
  induction models generalizing world with
  | nil =>
      intro recorder known
      exact known
  | cons model rest ih =>
      exact (bystanders.callListener_records pointer model event world).trans (ih _)

variable {bystanders}

/-- Each operation delivers to recorders what it reports. -/
theorem World.Consistent.perform_records {operation : Operation ν}
    {world next : World (Outside ν μ ρ)} {report : List (Happening ν)}
    (consistent : world.Consistent tools)
    (performed : perform bystanders.andRecorders operation world = some (next, report))
    (pointer : Pointer)
    : Records pointer world next report := by
  rcases consistent.perform_cases performed with
    ⟨call, rfl, called⟩ | ⟨event, notified, rfl, equal, rfl⟩ | ⟨-, outside, bookkeeping⟩
  · obtain ⟨answered, first, out, notified, equal, rfl, answer⟩ :=
      consistent.kokkosCall_cases bystanders.andRecorders called
    have later := bystanders.notifyAll_records pointer (.kokkos (call.leave out).event)
      (world.listeners.filter (fun model => model.handles (.kokkos call.type))) answered
    rw [← equal] at later
    have returned : Records pointer next next [.returned (call.leave out)] := .of_outside rfl rfl
    refine Records.trans (Records.trans ?_ later) returned
    rcases answer with ⟨function, equal⟩ | ⟨rfl, outside, -⟩
    · have contextual := bystanders.callContext_records pointer function call world
      rw [← equal] at contextual
      exact contextual
    · exact .of_outside outside rfl
  · obtain ⟨rfl, rfl⟩ := Prod.mk.inj equal
    have raised : Records pointer world world [.dispatched event] := .of_outside rfl rfl
    exact raised.trans (bystanders.notifyAll_records pointer event _ world)
  · apply Records.of_outside outside
    apply List.filterMap_eq_nil_iff.mpr
    intro happening member
    have kind := bookkeeping happening member
    cases happening <;> first | rfl | cases kind

/-- The event that an operation of a callable raised, if the report entry is about one. -/
def Happening.raised? : Happening ν → Option (Event ν)
  | .returned call => some (.kokkos call.event)
  | .dispatched event => some event
  | _ => none

/-- The events that a callable itself raised, by calls of Kokkos or of `dispatch`. -/
def raisedEvents (report : List (Happening ν)) : List (Event ν) :=
  report.filterMap Happening.raised?

/-- The event of an invocation whose listener is the object at an address. -/
def receivedBy (pointer : Pointer) (invocation : ListenerModel × Event ν) : Option (Event ν) :=
  if invocation.1.sharedPointer = some pointer then some invocation.2 else none

/-- The events that the operations of a callable delivered themselves to the object at an
address, as opposed to what callbacks caused meanwhile.
-/
def directDeliveries (pointer : Pointer) (report : List (Happening ν)) : List (Event ν) :=
  (invocations report).filterMap (receivedBy pointer)

/-- The object at an address heard of each raised event of its model's types once, in order. -/
def Heard (pointer : Pointer) (model : ListenerModel) (report : List (Happening ν)) : Prop :=
  directDeliveries pointer report
  = (raisedEvents report).filter (fun event => model.handles event.type)

theorem Heard.append {pointer : Pointer} {model : ListenerModel}
    {left right : List (Happening ν)} (first : Heard pointer model left)
    (later : Heard pointer model right)
    : Heard pointer model (left ++ right) := by
  unfold Heard directDeliveries raisedEvents at *
  rw [invocations_append, List.filterMap_append, List.filterMap_append, List.filter_append, first,
    later]

/-- Where callbacks deliver nothing on their own, all deliveries are those of the operations. -/
theorem deliveries_eq_direct {pointer : Pointer} {report : List (Happening ν)}
    (quiet : ∀ happening, .during happening ∈ report → happening.delivered? pointer = none)
    : deliveries pointer report = directDeliveries pointer report := by
  unfold deliveries directDeliveries invocations
  rw [List.filterMap_filterMap]
  apply List.filterMap_congr
  intro happening member
  cases happening with
  | during inner => exact quiet inner member
  | listener model event => rfl
  | _ => rfl

end KokkosUtils.Callbacks
