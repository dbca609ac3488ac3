import KokkosUtils.Callbacks.Deliveries

/-! What `record` returns, and what it leaves behind.
While a callable runs, its recorder stays registered between the listeners that were there
before and those that the callable registers itself.
-/

namespace KokkosUtils.Callbacks

open KokkosUtils.Foundations KokkosUtils.Impl

variable {ν μ ρ : Type} {tools : CallbackSlot → Option FunctionPointer}
variable {bystanders : Bystanders ν μ ρ}

/-- A change of the set of registered listeners. -/
inductive RegistrationChange
  | registered (address : Address)
  | unregistered (address : Address)
  | finalized

/-- The change that a report entry is about. -/
def Happening.change? : Happening ν → Option RegistrationChange
  | .registered address => some (.registered address)
  | .unregistered address => some (.unregistered address)
  | .finalized => some .finalized
  | _ => none

/-- The changes of the set of registered listeners in a report. -/
def changes (report : List (Happening ν)) : List RegistrationChange :=
  report.filterMap Happening.change?

/-- Changes that undo the given registrations and each registration of their own, and touch no
other: they unregister what was registered, and they do not finalize the Manager.
-/
def balanced : List Address → List RegistrationChange → Prop
  | opened, [] => opened = []
  | opened, .registered address :: rest => balanced (opened ++ [address]) rest
  | opened, .unregistered address :: rest =>
      address ∈ opened ∧ balanced (opened.erase address) rest
  | _, .finalized :: _ => False

/-- While a callable runs, its recorder is registered after the listeners of before and before
the listeners of the callable, and no other model holds the recorder.
-/
structure Recording (tools : CallbackSlot → Option FunctionPointer) (pointer : Pointer)
    (others : List ListenerModel) (recorder : ListenerModel) (own : List ListenerModel)
    (world : World (Outside ν μ ρ)) : Prop where
  consistent : world.Consistent tools
  initialized : world.singleton.isSome = true
  listeners_eq : world.listeners = others ++ recorder :: own
  shared : recorder.sharedPointer = some pointer
  apart : ∀ model ∈ others ++ own, model.sharedPointer ≠ some pointer
  alive : (world.outside.recorders pointer).isSome = true

variable {pointer : Pointer} {others own : List ListenerModel} {recorder : ListenerModel}
variable {world next : World (Outside ν μ ρ)} {report : List (Happening ν)}

/-- The recorder keeps its place while the registry does. -/
theorem Recording.of_registry (recording : Recording tools pointer others recorder own world)
    (frame : next.registry = world.registry)
    (alive : (next.outside.recorders pointer).isSome = true)
    : Recording tools pointer others recorder own next where
  consistent := recording.consistent.of_registry frame
  initialized := by
    obtain ⟨manager, active⟩ := Option.isSome_iff_exists.mp recording.initialized
    obtain ⟨current, known, -⟩ := World.singleton_of_registry frame active
    simp [known]
  listeners_eq := (World.listeners_of_registry frame).trans recording.listeners_eq
  shared := recording.shared
  apart := recording.apart
  alive := alive

/-- Among the listeners of an event's type, the recorder hears of the event if it is one. -/
theorem Recording.heard (recording : Recording tools pointer others recorder own world)
    (event : Event ν)
    : ((world.listeners.filter (fun model => model.handles event.type)).map
          (fun model => (model, event))).filterMap (receivedBy pointer)
      = [event].filter (fun event => recorder.handles event.type) := by
  have silent : ∀ models : List ListenerModel,
      (∀ model ∈ models, model ∈ others ++ own)
      → ((models.filter (fun model => model.handles event.type)).map
          (fun model => (model, event))).filterMap (receivedBy pointer)
        = [] := by
    intro models among
    apply List.filterMap_eq_nil_iff.mpr
    intro entry member
    obtain ⟨model, handling, rfl⟩ := List.mem_map.mp member
    exact if_neg (recording.apart model (among model (List.mem_of_mem_filter handling)))
  have before := silent others (fun model member => List.mem_append_left _ member)
  have after := silent own (fun model member => List.mem_append_right _ member)
  rw [recording.listeners_eq, List.filter_append, List.map_append, List.filterMap_append, before,
    List.nil_append, List.filter_cons]
  by_cases handled : recorder.handles event.type = true
  · have received : receivedBy pointer (recorder, event) = some event := if_pos recording.shared
    rw [if_pos handled, List.map_cons, List.filterMap_cons_some received, after]
    simp [handled]
  · rw [if_neg handled, after]
    simp [handled]

/-- The recorder hears of a Kokkos call, which changes no registration. -/
theorem Recording.kokkosCall (recording : Recording tools pointer others recorder own world)
    {call : KokkosCall}
    (performed : kokkosCall bystanders.andRecorders call world = some (next, report))
    : Heard pointer recorder report ∧ changes report = [] := by
  obtain ⟨out, invoked, shown⟩ :=
    recording.consistent.kokkosCall_report bystanders.andRecorders performed
  have heard := recording.heard (.kokkos (call.leave out).event)
  rw [Event.type_kokkos, KokkosCall.event_type, KokkosCall.leave_type] at heard
  constructor
  · unfold Heard directDeliveries raisedEvents
    rw [invoked, heard, shown Happening.raised? (fun _ _ => rfl) (fun _ _ => rfl) (fun _ => rfl)]
    simp [Happening.raised?]
  · exact shown Happening.change? (fun _ _ => rfl) (fun _ _ => rfl) (fun _ => rfl)

/-- The recorder hears of a dispatched event, which changes no registration. -/
theorem Recording.dispatch (recording : Recording tools pointer others recorder own world)
    (bystanders : Bystanders ν μ ρ) (event : Event ν)
    : let notified :=
        notifyAll bystanders.andRecorders event
          (world.listeners.filter (fun model => model.handles event.type)) world
      Heard pointer recorder (.dispatched event :: notified.2)
      ∧ changes (.dispatched event :: notified.2) = [] := by
  constructor
  · have raised := notifyAll_filterMap bystanders.andRecorders event Happening.raised?
      (fun _ _ => rfl) (fun _ => rfl)
      (world.listeners.filter (fun model => model.handles event.type)) world
    have invoked := notifyAll_invocations bystanders.andRecorders event
      (world.listeners.filter (fun model => model.handles event.type)) world
    have shown : Happening.raised? (.dispatched event) = some event := rfl
    unfold Heard directDeliveries raisedEvents invocations at *
    rw [List.filterMap_cons_none rfl, invoked, recording.heard, List.filterMap_cons_some shown,
      raised]
  · rw [changes, List.filterMap_cons_none rfl]
    exact notifyAll_filterMap bystanders.andRecorders event Happening.change? (fun _ _ => rfl)
      (fun _ => rfl) _ world

/-- The recorder keeps its place when the callable registers a listener of its own. -/
theorem Recording.register (recording : Recording tools pointer others recorder own world)
    {model : ListenerModel} (elsewhere : model.sharedPointer ≠ some pointer)
    (performed : Manager.registerListenerImpl model world = some (next, report))
    : report = [.registered model.address]
      ∧ Recording tools pointer others recorder (own ++ [model]) next := by
  obtain ⟨-, rfl, relisted⟩ := recording.consistent.registerListenerImpl performed
  refine ⟨rfl, ?_⟩
  exact {
    consistent := relisted.consistent
    initialized := relisted.initialized
    listeners_eq := by rw [relisted.listeners_eq, recording.listeners_eq]; simp
    shared := recording.shared
    apart := by
      intro entry member
      rw [← List.append_assoc] at member
      rcases List.mem_append.mp member with member | member
      · exact recording.apart entry member
      · rw [List.mem_singleton.mp member]
        exact elsewhere
    alive := by rw [relisted.outside_eq]; exact recording.alive
  }

/-- The recorder keeps its place when the callable unregisters a listener of its own. -/
theorem Recording.unregister (recording : Recording tools pointer others recorder own world)
    {model : ListenerModel}
    (relisted
      : World.Relisted tools world next
          (world.listeners.eraseP (fun other => other.address == model.address)))
    (member : model.address ∈ own.map ListenerModel.address)
    : Recording tools pointer others recorder
        (own.eraseP (fun other => other.address == model.address)) next where
  consistent := relisted.consistent
  initialized := relisted.initialized
  listeners_eq := by
    have distinct := recording.consistent.addresses
    have split : others ++ recorder :: own = (others ++ [recorder]) ++ own := by simp
    rw [recording.listeners_eq, split] at distinct
    rw [relisted.listeners_eq, recording.listeners_eq, split, eraseP_append_of_mem distinct member]
    simp
  shared := recording.shared
  apart := by
    intro entry member
    rcases List.mem_append.mp member with member | member
    · exact recording.apart entry (List.mem_append_left _ member)
    · exact recording.apart entry (List.mem_append_right _ (List.mem_of_mem_eraseP member))
  alive := by rw [relisted.outside_eq]; exact recording.alive

/-- A stretch of a callable's execution keeps the recorder in its place, if its registrations are
balanced in the end, and lets it hear of the events raised.
-/
def Stretch (tools : CallbackSlot → Option FunctionPointer) (pointer : Pointer)
    (others : List ListenerModel) (recorder : ListenerModel)
    (world next : World (Outside ν μ ρ)) (report : List (Happening ν))
    : Prop :=
  ∀ own later,
    Recording tools pointer others recorder own world
    → balanced (own.map ListenerModel.address) (changes report ++ later)
    → ∃ kept,
        Recording tools pointer others recorder kept next
        ∧ balanced (kept.map ListenerModel.address) later
        ∧ Heard pointer recorder report
        ∧ Records pointer world next report

theorem Stretch.refl (world : World (Outside ν μ ρ))
    : Stretch tools pointer others recorder world world ([] : List (Happening ν)) := by
  intro own later recording bal
  exact ⟨own, recording, bal, rfl, .of_outside rfl rfl⟩

/-- Stretches follow each other. -/
theorem Stretch.trans {middle : World (Outside ν μ ρ)} {first second : List (Happening ν)}
    (start : Stretch tools pointer others recorder world middle first)
    (rest : Stretch tools pointer others recorder middle next second)
    : Stretch tools pointer others recorder world next (first ++ second) := by
  intro own later recording bal
  rw [changes, List.filterMap_append, List.append_assoc] at bal
  obtain ⟨kept, continued, remaining, heard, records⟩ := start own _ recording bal
  obtain ⟨last, ended, balancedLater, heardLater, recordsLater⟩ :=
    rest kept later continued remaining
  exact ⟨last, ended, balancedLater, heard.append heardLater, records.trans recordsLater⟩

/-- What keeps the registry, and lets the recorder hear of the events raised, is a stretch. -/
theorem Stretch.of_registry (frame : next.registry = world.registry)
    (records : Records pointer world next report) (unchanged : changes report = [])
    (heard : Heard pointer recorder report)
    : Stretch tools pointer others recorder world next report := by
  intro own later recording bal
  rw [unchanged] at bal
  exact ⟨own, recording.of_registry frame (records.alive recording.alive), bal, heard, records⟩

/-- The registration of another model is a stretch. -/
theorem stretch_register {model : ListenerModel} (elsewhere : model.sharedPointer ≠ some pointer)
    (performed : Manager.registerListenerImpl model world = some (next, report))
    : Stretch tools pointer others recorder world next report := by
  intro own later recording bal
  obtain ⟨-, -, relisted⟩ := recording.consistent.registerListenerImpl performed
  obtain ⟨rfl, registered⟩ := recording.register elsewhere performed
  refine ⟨_, registered, ?_, rfl, .of_outside relisted.outside_eq rfl⟩
  rw [List.map_append]
  exact bal

/-- The unregistration of a model is a stretch: if the registrations of the callable are
balanced, the model is one of its own.
-/
theorem stretch_unregister {model : ListenerModel}
    (relisted
      : World.Relisted tools world next
          (world.listeners.eraseP (fun other => other.address == model.address)))
    : Stretch tools pointer others recorder world next [.unregistered model.address] := by
  intro own later recording bal
  refine ⟨_, recording.unregister relisted bal.1, ?_, rfl, .of_outside relisted.outside_eq rfl⟩
  rw [map_eraseP]
  exact bal.2

/-- Each operation that spares the recorder is such a stretch, by cases on the operation. -/
theorem stretch_perform {operation : Operation ν}
    (spares : operation.sparesRecorders world.outside.recorders = true)
    (performed : perform bystanders.andRecorders operation world = some (next, report))
    : Stretch tools pointer others recorder world next report := by
  intro own later recording bal
  have consistent := recording.consistent
  have records := consistent.perform_records performed pointer
  suffices stretches : Stretch tools pointer others recorder world next report from
    stretches own later recording bal
  cases operation with
  | initializeSingleton =>
      obtain ⟨manager, active⟩ := Option.isSome_iff_exists.mp recording.initialized
      obtain ⟨rfl, rfl⟩ := Prod.mk.inj (Option.some.inj performed)
      simp only [Manager.initializeSingleton, active]
      exact .refl world
  | finalizeSingleton =>
      obtain ⟨rfl, rfl⟩ := Prod.mk.inj (Option.some.inj performed)
      exact bal.elim
  | registerShared callable place address =>
      refine stretch_register ?_ performed
      rintro ⟨⟩
      have living := recording.alive
      rw [Option.isNone_iff_eq_none.mp spares] at living
      cases living
  | registerObject callable address =>
      refine stretch_register ?_ performed
      intro held
      cases held
  | unregisterByPointer callable place =>
      obtain ⟨model, -, rfl, relisted⟩ := consistent.unregisterListenerByPointer performed
      exact stretch_unregister relisted
  | unregisterByHandle handle =>
      obtain ⟨model, -, -, rfl, relisted⟩ := consistent.unregisterListenerByHandle performed
      exact stretch_unregister relisted
  | kokkosCall call =>
      have frame := consistent.perform_registry performed rfl
      obtain ⟨heard, unchanged⟩ := recording.kokkosCall performed
      exact .of_registry frame records unchanged heard
  | dispatch event =>
      have frame := consistent.perform_registry performed rfl
      obtain ⟨⟨_, notified⟩, dispatched, equal⟩ := Option.map_eq_some_iff.mp performed
      obtain ⟨rfl, rfl⟩ := Prod.mk.inj equal
      rw [dispatch_eq, Option.some.injEq] at dispatched
      have heard := recording.dispatch bystanders event
      simp only [dispatched] at heard
      exact .of_registry frame records heard.2 heard.1
  | getNextEventId =>
      have frame := consistent.perform_registry performed rfl
      obtain ⟨_, -, equal⟩ := Option.map_eq_some_iff.mp performed
      obtain ⟨rfl, rfl⟩ := Prod.mk.inj equal
      exact .of_registry frame records rfl rfl
  | getNextSectionId =>
      have frame := consistent.perform_registry performed rfl
      obtain ⟨_, -, equal⟩ := Option.map_eq_some_iff.mp performed
      obtain ⟨rfl, rfl⟩ := Prod.mk.inj equal
      exact .of_registry frame records rfl rfl

/-- The allocation or the deallocation of another recorder is a stretch. -/
theorem stretch_setRecorder {place : Pointer} (apart : pointer ≠ place)
    (object : Option (RecorderListener ν μ)) (world : World (Outside ν μ ρ))
    : Stretch tools pointer others recorder world (setRecorder place object world) [] := by
  refine .of_registry rfl ?_ rfl rfl
  intro own known
  have same : (setRecorder place object world).outside.recorders pointer
      = world.outside.recorders pointer :=
    Function.update_of_ne apart ..
  rw [same]
  exact known

/-- A nested `record` allocates its recorder elsewhere. -/
theorem ne_of_beginRecord {recorderClass : RecorderClass ν μ} {place : Pointer}
    {address : Address}
    (begun : beginRecord recorderClass place address world = some (next, report))
    (alive : (world.outside.recorders pointer).isSome = true)
    : pointer ≠ place := by
  rintro rfl
  simp [beginRecord, alive] at begun

/-- The beginning of a nested `record` is a stretch: it allocates another recorder and registers
its model.
-/
theorem stretch_beginRecord {recorderClass : RecorderClass ν μ} {place : Pointer}
    {address : Address} (apart : pointer ≠ place)
    (begun : beginRecord recorderClass place address world = some (next, report))
    : Stretch tools pointer others recorder world next report := by
  have unheld : (ListenerModel.shared recorderClass.listener place address).sharedPointer
      ≠ some pointer := by
    rintro ⟨⟩
    exact apart rfl
  unfold beginRecord at begun
  split at begun
  · cases begun
  · exact (stretch_setRecorder apart _ world).trans (stretch_register unheld begun)

/-- The end of a nested `record` is a stretch: it unregisters the other model and deallocates
its recorder.
-/
theorem stretch_endRecord {recorderClass : RecorderClass ν μ} {place : Pointer}
    {events : List (Event ν)} (apart : pointer ≠ place)
    (ended : endRecord recorderClass place world = some (next, report, events))
    : Stretch tools pointer others recorder world next report := by
  intro own later recording bal
  obtain ⟨⟨middle, _⟩, performed, moved⟩ := Option.bind_eq_some_iff.mp ended
  obtain ⟨object, -, equal⟩ := Option.map_eq_some_iff.mp moved
  obtain ⟨rfl, rest⟩ := Prod.mk.inj equal
  obtain ⟨rfl, -⟩ := Prod.mk.inj rest
  obtain ⟨model, -, rfl, relisted⟩ :=
    recording.consistent.unregisterListenerByPointer performed
  exact (stretch_unregister relisted).trans (stretch_setRecorder apart none middle)
    own later recording bal

/-- A nested `record` is a stretch if the execution of its callable is. -/
theorem stretch_record {recorderClass : RecorderClass ν μ} {place : Pointer} {address : Address}
    {callable : Callable ν μ} {events : Option (List (Event ν))}
    (executes
      : ∀ {begun ended body returns},
          invoke bystanders.andRecorders callable begun = some (ended, body, returns)
          → Stretch tools pointer others recorder begun ended body)
    (recorded
      : record recorderClass place address (invoke bystanders.andRecorders callable) world
        = some (next, report, events))
    : Stretch tools pointer others recorder world next report := by
  intro own later recording bal
  obtain ⟨⟨begun, opening⟩, begins, called⟩ := Option.bind_eq_some_iff.mp recorded
  obtain ⟨⟨ended, body, returned⟩, ran, closed⟩ := Option.bind_eq_some_iff.mp called
  have apart := ne_of_beginRecord begins recording.alive
  have executed : Stretch tools pointer others recorder world ended (opening ++ body) :=
    (stretch_beginRecord apart begins).trans (executes ran)
  cases returned with
  | false =>
      obtain ⟨rfl, shown⟩ := Prod.mk.inj (Option.some.inj closed)
      obtain ⟨rfl, -⟩ := Prod.mk.inj shown
      exact executed own later recording bal
  | true =>
      obtain ⟨⟨_, closing, _⟩, ends, equal⟩ := Option.map_eq_some_iff.mp closed
      obtain ⟨rfl, shown⟩ := Prod.mk.inj equal
      obtain ⟨rfl, -⟩ := Prod.mk.inj shown
      exact (executed.trans (stretch_endRecord apart ends)) own later recording bal

/-- The execution of a callable is a stretch, by induction on the callable. -/
theorem stretch_invoke {callable : Callable ν μ} {returns : Bool}
    (invoked : invoke bystanders.andRecorders callable world = some (next, report, returns))
    : Stretch tools pointer others recorder world next report := by
  induction callable generalizing world next report returns with
  | done =>
      obtain ⟨rfl, shown⟩ := Prod.mk.inj (Option.some.inj invoked)
      obtain ⟨rfl, -⟩ := Prod.mk.inj shown
      exact .refl world
  | throwException =>
      obtain ⟨rfl, shown⟩ := Prod.mk.inj (Option.some.inj invoked)
      obtain ⟨rfl, -⟩ := Prod.mk.inj shown
      exact .refl world
  | operation operation rest ih =>
      rw [invoke] at invoked
      split at invoked
      · next spares =>
          obtain ⟨⟨middle, first⟩, performed, continued⟩ := Option.bind_eq_some_iff.mp invoked
          obtain ⟨later, finished, rfl⟩ := goOn_eq_some.mp continued
          exact (stretch_perform spares performed).trans (ih finished)
      · cases invoked
  | tryCatch body rest bodyIh restIh =>
      obtain ⟨⟨middle, first, _⟩, performed, continued⟩ := Option.bind_eq_some_iff.mp invoked
      obtain ⟨later, finished, rfl⟩ := goOn_eq_some.mp continued
      exact (bodyIh performed).trans (restIh finished)
  | record recorderClass place address callable rest callableIh restIh =>
      obtain ⟨⟨middle, first, events⟩, recorded, continued⟩ := Option.bind_eq_some_iff.mp invoked
      have nested : Stretch tools pointer others recorder world middle first :=
        stretch_record callableIh recorded
      cases events with
      | none =>
          obtain ⟨rfl, shown⟩ := Prod.mk.inj (Option.some.inj continued)
          obtain ⟨rfl, -⟩ := Prod.mk.inj shown
          exact nested
      | some events =>
          obtain ⟨later, finished, rfl⟩ := goOn_eq_some.mp continued
          exact nested.trans (restIh finished)

/-- The beginning of `record` registers a new recorder after all listeners. -/
theorem recording_of_beginRecord {recorderClass : RecorderClass ν μ} {address : Address}
    (consistent : world.Consistent tools)
    (begun : beginRecord recorderClass pointer address world = some (next, report))
    : Recording tools pointer world.listeners (.shared recorderClass.listener pointer address) []
          next
      ∧ next.outside.recorders pointer = some (.new recorderClass)
      ∧ world.singleton.isSome = true := by
  unfold beginRecord at begun
  split at begun
  · cases begun
  · next unused =>
      rw [Bool.or_eq_true, not_or] at unused
      have set : (setRecorder pointer (some (.new recorderClass)) world).Consistent tools :=
        consistent.of_registry rfl
      obtain ⟨-, rfl, relisted⟩ := set.registerListenerImpl begun
      have known : next.outside.recorders pointer = some (.new recorderClass) := by
        rw [relisted.outside_eq]
        exact Function.update_self ..
      obtain ⟨manager, active, -⟩ := Option.bind_eq_some_iff.mp begun
      have initialized : world.singleton.isSome = true := Option.isSome_iff_exists.mpr ⟨_, active⟩
      refine ⟨?_, known, initialized⟩
      exact {
        consistent := relisted.consistent
        initialized := relisted.initialized
        listeners_eq := relisted.listeners_eq
        shared := rfl
        apart := by
          intro model member held
          rw [List.append_nil] at member
          exact unused.2 (List.any_eq_true.mpr ⟨model, member, by simp [held]⟩)
        alive := by rw [known]; rfl
      }

/-- The end of `record` finds its recorder and restores the list of listeners. -/
theorem endRecord_of_recording {recorderClass : RecorderClass ν μ} {address : Address}
    {object : RecorderListener ν μ}
    (recording
      : Recording tools pointer others (.shared recorderClass.listener pointer address) [] world)
    (known : world.outside.recorders pointer = some object)
    : ∃ final last,
        endRecord recorderClass pointer world = some (final, last, object.recordedEvents)
        ∧ final.Consistent tools
        ∧ final.singleton.isSome = true
        ∧ final.listeners = others := by
  have found : world.listeners.find? (fun model => model.holds recorderClass.listener pointer)
      = some (.shared recorderClass.listener pointer address) := by
    rw [recording.listeners_eq]
    apply List.find?_eq_some_iff_append.mpr
    refine ⟨by simp [ListenerModel.holds, ListenerModel.shared, ListenerModel.eventTypes],
      others, [], rfl, ?_⟩
    intro model member
    have elsewhere := recording.apart model (by simpa using member)
    simp [ListenerModel.holds, elsewhere]
  obtain ⟨middle, last, performed, relisted⟩ :=
    recording.consistent.unregisterListenerByPointer_defined (ν := ν) found
  have kept : middle.outside.recorders pointer = some object := by
    rw [relisted.outside_eq]
    exact known
  have frame : (setRecorder pointer none middle).registry = middle.registry := rfl
  refine ⟨setRecorder pointer none middle, last, ?_, relisted.consistent.of_registry frame,
    relisted.initialized, ?_⟩
  · simp only [endRecord, performed, Option.bind_some, kept, Option.map_some]
  · have distinct := recording.consistent.addresses
    rw [recording.listeners_eq] at distinct
    rw [World.listeners_of_registry frame, relisted.listeners_eq, recording.listeners_eq,
      eraseP_append_of_mem distinct (by simp)]
    simp

/-- `record` returns, for a callable that returns normally and whose registrations are balanced,
exactly the events of the recorder's types that were delivered to it during the callable and
that its matcher accepts when run over them in order. Each event of these types that the
callable raised was delivered once, in order; if no callback raises events of its own, these
are all deliveries. The registry is the one before `record`.
Witness: the execution of the callable is a stretch in which the recorder stays registered.
-/
theorem Reachable.record_returns {world begun ended : World (Outside ν μ ρ)}
    (reachable : Reachable bystanders.andRecorders tools world)
    {recorderClass : RecorderClass ν μ} {pointer : Pointer} {address : Address}
    (callable : Callable ν μ) {first body : List (Happening ν)}
    (begins : beginRecord recorderClass pointer address world = some (begun, first))
    (invoked : invoke bystanders.andRecorders callable begun = some (ended, body, true))
    (returnsBalanced : balanced [] (changes body))
    : ∃ final last events,
        record recorderClass pointer address (invoke bystanders.andRecorders callable) world
          = some (final, first ++ body ++ last, some events)
        ∧ events
          = recorderClass.matcher.accepted
              ((deliveries pointer body).filter
                (fun event => event.type ∈ recorderClass.eventTypes))
              recorderClass.matcher.start
        ∧ directDeliveries pointer body
          = (raisedEvents body).filter (fun event => event.type ∈ recorderClass.eventTypes)
        ∧ ((∀ happening, .during happening ∈ body → happening.delivered? pointer = none)
            → deliveries pointer body = directDeliveries pointer body)
        ∧ final.registry = world.registry := by
  have consistent := reachable.consistent
  obtain ⟨recording, created, active⟩ := recording_of_beginRecord consistent begins
  obtain ⟨kept, continued, remaining, heard, records⟩ :=
    stretch_invoke invoked [] [] recording (by simpa using returnsBalanced)
  obtain rfl : kept = [] := List.map_eq_nil_iff.mp remaining
  obtain ⟨final, last, ends, restoredConsistent, initialized, restored⟩ :=
    endRecord_of_recording continued (records _ created)
  refine ⟨final, last, _, ?_, rfl, ?_, deliveries_eq_direct,
    restoredConsistent.registry_eq consistent initialized active restored⟩
  · simp only [record, begins, invoked, Option.bind_some, if_true, ends, Option.map_some]
    rw [foldl_call_recordedEvents]
    rfl
  · rw [heard]
    apply List.filter_congr
    intro event _
    exact ListenerModel.handles_eq_decide _ _

/-- Bystanders that do nothing. -/
def Bystanders.quiet : Bystanders ν μ ρ where
  callees := .quiet
  context_recorders := fun _ _ _ _ _ known => known
  listener_recorders := fun _ _ _ _ _ known => known

/-- Recorders of region names and of custom events, whose matcher accepts every other event. -/
private def everyOther : RecorderClass Unit Bool where
  name := "EveryOther"
  eventTypes := [.kokkos .pushRegionEvent, .custom "Progress"]
  distinct := by decide
  matcher := { start := true, step := fun _ accepts => (accepts, !accepts) }

/-- A callable that raises three events of the recorder's types, the second of them while a
record of its own is running.
-/
private def raising : Callable Unit Bool :=
  .operation (.kokkosCall (.pushRegion "outer"))
    (.record everyOther 8 2
      (.operation (.kokkosCall (.pushRegion "inner")) (.operation (.kokkosCall .popRegion) .done))
      (.operation (.dispatch (.custom "Progress" ())) .done))

/-- A world with an initialized Manager. -/
private def ready : World (Outside Unit Bool Unit) :=
  Manager.initializeSingleton (.start (fun _ => none) { recorders := fun _ => none, rest := () })

/-- The outer record returns the first and the third event. -/
theorem record_returns_every_other
    : ∃ (final : World (Outside Unit Bool Unit)) (report : List (Happening Unit)),
        record everyOther 7 1 (invoke (Bystanders.andRecorders .quiet) raising) ready
          = some
              (
                final,
                report,
                some [.kokkos (.pushRegionEvent "outer"), .custom "Progress" ()]
              )
        ∧ final.registry = ready.registry := by
  have reachable : Reachable (Bystanders.andRecorders .quiet) (fun _ => none) ready :=
    (Reachable.start _).of_run [.initializeSingleton] rfl
  have begins : beginRecord everyOther 7 1 ready = some (_, _) := rfl
  have returnsBalanced : balanced [] [.registered 2, .unregistered 2] := by simp [balanced]
  obtain ⟨final, last, events, recorded, rfl, -, -, restored⟩ :=
    reachable.record_returns raising begins rfl returnsBalanced
  exact ⟨final, _, recorded, restored⟩

end KokkosUtils.Callbacks
