import KokkosUtils.Callbacks.Invariants

/-! Unregistering a listener undoes its registration.
Whatever happens to other listeners in between, and whether the listener is found by its
pointer or by its handle, the registry ends as if it had never been registered.
-/

namespace KokkosUtils.Callbacks

open KokkosUtils.Foundations

variable {ν σ : Type} {callees : Callees ν σ}
variable {tools : CallbackSlot → Option FunctionPointer}

/-- The operation registers or unregisters a listener other than the given callable object,
whose model keeps its address for itself while it is registered.
-/
def Operation.concernsOthers (callable : Listener) (pointer : Pointer) (address : Address)
    : Operation ν → Prop
  | .registerShared other shared place =>
      place ≠ address
      ∧ (ListenerModel.shared other shared place).holds callable pointer = false
  | .registerObject _ place => place ≠ address
  | .unregisterByPointer other shared =>
      (ListenerModel.shared callable pointer address).holds other shared = false
  | .unregisterByHandle handle => handle ≠ address
  | _ => False

/-- Two worlds with the same listeners, except that the left one has also registered a model
and is the only one to hold its callable object.
-/
structure Beside (tools : CallbackSlot → Option FunctionPointer) (model : ListenerModel)
    (pointer : Pointer) (left right : World σ) : Prop where
  leftConsistent : left.Consistent tools
  rightConsistent : right.Consistent tools
  initialized : right.singleton.isSome = true
  member : model ∈ left.listeners
  listeners_eq
    : right.listeners = left.listeners.eraseP (fun other => other.address == model.address)
  unique : ∀ other ∈ right.listeners, other.holds model.type pointer = false

variable {model : ListenerModel} {pointer : Pointer} {left right : World σ}

/-- Listeners registered only in the left world have the model's address. -/
theorem Beside.mem_right (beside : Beside tools model pointer left right) {other : ListenerModel}
    (member : other ∈ left.listeners) (apart : other.address ≠ model.address)
    : other ∈ right.listeners := by
  rw [beside.listeners_eq]
  exact (List.mem_eraseP_of_neg (by simpa using apart)).mpr member

/-- The only listener of the left world at the model's address is the model. -/
theorem Beside.eq_model (beside : Beside tools model pointer left right) {other : ListenerModel}
    (member : other ∈ left.listeners) (same : other.address = model.address)
    : other = model :=
  List.inj_on_of_nodup_map beside.leftConsistent.addresses member beside.member same

/-- Registration of another model can follow in both worlds. -/
theorem Beside.register (beside : Beside tools model pointer left right) {other : ListenerModel}
    {next : World σ} {report : List (Happening ν)}
    (apart : other.address ≠ model.address) (different : other.holds model.type pointer = false)
    (performed : Manager.registerListenerImpl other right = some (next, report))
    : ∃ moved,
        Manager.registerListenerImpl other left = some (moved, report)
        ∧ Beside tools model pointer moved next := by
  obtain ⟨fresh, rfl, relisted⟩ := beside.rightConsistent.registerListenerImpl performed
  have leftFresh : other.address ∉ left.listeners.map ListenerModel.address := by
    intro used
    obtain ⟨holder, member, equal⟩ := List.mem_map.mp used
    have elsewhere := beside.mem_right member (equal ▸ apart)
    exact fresh (List.mem_map.mpr ⟨holder, elsewhere, equal⟩)
  obtain ⟨manager, active, -⟩ := World.mem_listeners.mp beside.member
  obtain ⟨moved, leftReport, leftPerformed⟩ :=
    World.registerListenerImpl_defined (ν := ν) (by simp [active]) leftFresh
  obtain ⟨-, rfl, leftRelisted⟩ :=
    beside.leftConsistent.registerListenerImpl leftPerformed
  refine ⟨moved, leftPerformed, ?_⟩
  exact {
    leftConsistent := leftRelisted.consistent
    rightConsistent := relisted.consistent
    initialized := relisted.initialized
    member := by
      rw [leftRelisted.listeners_eq]
      exact List.mem_append_left _ beside.member
    listeners_eq := by
      rw [relisted.listeners_eq, leftRelisted.listeners_eq, beside.listeners_eq,
        List.eraseP_append_left (by simp) _ beside.member]
    unique := by
      intro entry member
      rw [relisted.listeners_eq] at member
      rcases List.mem_append.mp member with member | member
      · exact beside.unique entry member
      · rw [List.mem_singleton.mp member]
        exact different
  }

/-- Once another model is erased from both lists, the worlds are still beside each other. -/
theorem Beside.unregister (beside : Beside tools model pointer left right)
    {other : ListenerModel} {moved next : World σ} (apart : other.address ≠ model.address)
    (leftRelisted
      : World.Relisted tools left moved
          (left.listeners.eraseP (fun entry => entry.address == other.address)))
    (relisted
      : World.Relisted tools right next
          (right.listeners.eraseP (fun entry => entry.address == other.address)))
    : Beside tools model pointer moved next where
  leftConsistent := leftRelisted.consistent
  rightConsistent := relisted.consistent
  initialized := relisted.initialized
  member := by
    rw [leftRelisted.listeners_eq]
    exact (List.mem_eraseP_of_neg (by simpa using apart.symm)).mpr beside.member
  listeners_eq := by
    rw [relisted.listeners_eq, leftRelisted.listeners_eq, beside.listeners_eq]
    apply List.eraseP_comm
    intro entry _
    by_cases same : entry.address = model.address
    · exact .inr (by simpa [same] using apart.symm)
    · exact .inl (by simpa using same)
  unique := by
    intro entry member
    rw [relisted.listeners_eq] at member
    exact beside.unique entry (List.mem_of_mem_eraseP member)

/-- A search that passes over the model finds the same listener in both worlds. -/
theorem Beside.find?_eq (beside : Beside tools model pointer left right)
    {found : ListenerModel → Bool} (passed : found model = false)
    : right.listeners.find? found = left.listeners.find? found := by
  rw [beside.listeners_eq]
  apply find?_eraseP
  intro other member same
  rw [beside.eq_model member (by simpa using same)]
  exact passed

/-- Each operation on other listeners that is possible in the right world is possible in the
left one and leaves the two beside each other.
-/
theorem Beside.perform {callable : Listener} {address : Address} {operation : Operation ν}
    {next : World σ} {report : List (Happening ν)}
    (beside : Beside tools (.shared callable pointer address) pointer left right)
    (others : operation.concernsOthers callable pointer address)
    (performed : perform callees operation right = some (next, report))
    : ∃ moved shown,
        perform callees operation left = some (moved, shown)
        ∧ Beside tools (.shared callable pointer address) pointer moved next := by
  cases operation with
  | registerShared other shared place =>
      obtain ⟨moved, leftPerformed, linked⟩ := beside.register others.1 others.2 performed
      exact ⟨moved, _, leftPerformed, linked⟩
  | registerObject other place =>
      have apart : (ListenerModel.object other place).address ≠ address := others
      have different : (ListenerModel.object other place).holds callable pointer = false := by
        simp [ListenerModel.object, ListenerModel.holds]
      obtain ⟨moved, leftPerformed, linked⟩ := beside.register apart different performed
      exact ⟨moved, _, leftPerformed, linked⟩
  | unregisterByPointer other shared =>
      obtain ⟨entry, found, -, relisted⟩ :=
        beside.rightConsistent.unregisterListenerByPointer performed
      have passed : (ListenerModel.shared callable pointer address).holds other shared = false :=
        others
      rw [beside.find?_eq passed] at found
      have held : entry.holds other shared = true := by simpa using List.find?_some found
      have apart : entry.address ≠ address := by
        intro same
        rw [beside.eq_model (List.mem_of_find?_eq_some found) same, passed] at held
        cases held
      obtain ⟨moved, shown, leftPerformed, leftRelisted⟩ :=
        beside.leftConsistent.unregisterListenerByPointer_defined (ν := ν) found
      exact ⟨moved, shown, leftPerformed, beside.unregister apart leftRelisted relisted⟩
  | unregisterByHandle handle =>
      obtain ⟨entry, member, rfl, -, relisted⟩ :=
        beside.rightConsistent.unregisterListenerByHandle performed
      rw [beside.listeners_eq] at member
      obtain ⟨moved, shown, leftPerformed, leftRelisted⟩ :=
        beside.leftConsistent.unregisterListenerByHandle_defined (ν := ν)
          (List.mem_of_mem_eraseP member)
      exact ⟨moved, shown, leftPerformed, beside.unregister others leftRelisted relisted⟩
  | initializeSingleton => cases others
  | finalizeSingleton => cases others
  | kokkosCall call => cases others
  | dispatch event => cases others
  | getNextEventId => cases others
  | getNextSectionId => cases others

/-- Registration of a new listener puts the world beside the one without it. -/
theorem World.Consistent.beside_registered {world next : World σ} {report : List (Happening ν)}
    (consistent : world.Consistent tools)
    (unregistered : ∀ other ∈ world.listeners, other.holds model.type pointer = false)
    (performed : Manager.registerListenerImpl model world = some (next, report))
    : Beside tools model pointer next world := by
  obtain ⟨manager, active, -⟩ := Option.bind_eq_some_iff.mp performed
  obtain ⟨fresh, -, relisted⟩ := consistent.registerListenerImpl performed
  have unused : ∀ other ∈ world.listeners, ¬(other.address == model.address) = true := by
    intro other member same
    exact fresh (List.mem_map.mpr ⟨other, member, by simpa using same⟩)
  exact {
    leftConsistent := relisted.consistent
    rightConsistent := consistent
    initialized := by simp [active]
    member := by simp [relisted.listeners_eq]
    listeners_eq := by
      rw [relisted.listeners_eq, List.eraseP_append_right _ unused]
      simp
    unique := unregistered
  }

/-- Erasing the model from the left world gives it the registry of the right world. -/
theorem Beside.registry_eq (beside : Beside tools model pointer left right) {moved : World σ}
    (relisted
      : World.Relisted tools left moved
          (left.listeners.eraseP (fun other => other.address == model.address)))
    : moved.registry = right.registry :=
  relisted.consistent.registry_eq beside.rightConsistent relisted.initialized beside.initialized
    (relisted.listeners_eq.trans beside.listeners_eq.symm)

/-- Unregistration by pointer in the left world finds the model. -/
theorem Beside.find?_model (beside : Beside tools model pointer left right)
    (held : model.holds model.type pointer = true)
    : left.listeners.find? (fun other => other.holds model.type pointer) = some model := by
  cases found : left.listeners.find? (fun other => other.holds model.type pointer) with
  | none => exact absurd held (List.find?_eq_none.mp found model beside.member)
  | some other =>
      have member := List.mem_of_find?_eq_some found
      have holds : other.holds model.type pointer = true := by simpa using List.find?_some found
      by_cases same : other.address = model.address
      · rw [beside.eq_model member same]
      · rw [beside.unique other (beside.mem_right member same)] at holds
        cases holds

/-- Unregistering undoes registering: after the registration of a new listener, any operations
on other listeners and its unregistration, by pointer or by the handle that registration
returned, the registry is the one that these operations alone lead to.
Witness: the worlds with and without the listener move in lock step.
-/
theorem Reachable.unregister_undoes_register {world alone : World σ} {callable : Listener}
    {pointer : Pointer} {address : Address} {operations : List (Operation ν)}
    {report : List (Happening ν)} (reachable : Reachable callees tools world)
    (initialized : world.singleton.isSome = true)
    (unregistered : ∀ model ∈ world.listeners, model.holds callable pointer = false)
    (fresh : address ∉ world.listeners.map ListenerModel.address)
    (others
      : ∀ operation ∈ operations, operation.concernsOthers callable pointer address)
    (ran : run callees operations world = some (alone, report))
    : ∃ byPointer byHandle pointerReport handleReport,
        run callees
            (.registerShared callable pointer address
              :: operations ++ [.unregisterByPointer callable pointer])
            world
          = some (byPointer, pointerReport)
        ∧ run callees
            (.registerShared callable pointer address
              :: operations ++ [.unregisterByHandle address])
            world
          = some (byHandle, handleReport)
        ∧ byPointer.registry = alone.registry
        ∧ byHandle.registry = alone.registry := by
  have consistent := reachable.consistent
  have unused : (ListenerModel.shared callable pointer address).address
      ∉ world.listeners.map ListenerModel.address := fresh
  obtain ⟨first, registered, performed⟩ :=
    World.registerListenerImpl_defined (ν := ν) initialized unused
  have start := consistent.beside_registered unregistered performed
  obtain ⟨last, shown, followed, beside⟩ :=
    runSteps_lockstep (fun allowed linked stepped => linked.perform allowed stepped) others start
      ran
  have held : (ListenerModel.shared callable pointer address).holds callable pointer = true := by
    simp [ListenerModel.shared, ListenerModel.holds, ListenerModel.eventTypes]
  have found := beside.find?_model held
  obtain ⟨byPointer, pointerReport, pointed, pointerRelisted⟩ :=
    beside.leftConsistent.unregisterListenerByPointer_defined (ν := ν) found
  obtain ⟨byHandle, handleReport, handled, handleRelisted⟩ :=
    beside.leftConsistent.unregisterListenerByHandle_defined (ν := ν) beside.member
  have continued : ∀ {operation final reported},
      perform callees operation last = some (final, reported)
      → run callees
          (.registerShared callable pointer address :: operations ++ [operation]) world
        = some (final, registered ++ shown ++ reported) := by
    intro operation final reported stepped
    apply runSteps_append_eq_some.mpr
    refine ⟨last, registered ++ shown, reported, ?_, ?_, rfl⟩
    · exact runSteps_cons_eq_some.mpr ⟨first, registered, shown, performed, followed, rfl⟩
    · exact runSteps_cons_eq_some.mpr ⟨final, reported, [], stepped, rfl, by simp⟩
  exact ⟨byPointer, byHandle, _, _, continued pointed, continued handled,
    beside.registry_eq pointerRelisted, beside.registry_eq handleRelisted⟩

/-- A listener of begin and end events of parallel loops. -/
private def between : Listener :=
  .explicit "Between" [.kokkos .beginParallelForEvent, .kokkos .endParallelForEvent] (by decide)

/-- A listener of end events of parallel loops and of custom events. -/
private def others : Listener :=
  .explicit "Others" [.kokkos .endParallelForEvent, .custom "Progress"] (by decide)

/-- A listener registered between two others with overlapping event types, the first of which
is unregistered before it.
-/
theorem unregister_undoes_register_between
    : ∃ (world alone byPointer byHandle : World Unit)
          (pointerReport handleReport : List (Happening Unit)),
        alone.listeners.map ListenerModel.address = [3]
        ∧ run Callees.quiet
            [
              .registerShared between 7 2,
              .unregisterByHandle 1,
              .registerObject others 3,
              .unregisterByPointer between 7
            ]
            world
          = some (byPointer, pointerReport)
        ∧ run Callees.quiet
            [
              .registerShared between 7 2,
              .unregisterByHandle 1,
              .registerObject others 3,
              .unregisterByHandle 2
            ]
            world
          = some (byHandle, handleReport)
        ∧ byPointer.registry = alone.registry
        ∧ byHandle.registry = alone.registry := by
  have reachable :=
    (Reachable.start () : Reachable (Callees.quiet : Callees Unit Unit) (fun _ => none) _).of_run
      [.initializeSingleton, .registerObject others 1]
      rfl
  have concerned : ∀ operation ∈ [Operation.unregisterByHandle 1, .registerObject others 3],
      operation.concernsOthers (ν := Unit) between 7 2 := by
    simp [Operation.concernsOthers]
  obtain ⟨byPointer, byHandle, pointerReport, handleReport, pointed, handled, same, equal⟩ :=
    reachable.unregister_undoes_register rfl (by decide) (by decide) concerned rfl
  exact ⟨_, _, byPointer, byHandle, pointerReport, handleReport, rfl, pointed, handled, same,
    equal⟩

end KokkosUtils.Callbacks
