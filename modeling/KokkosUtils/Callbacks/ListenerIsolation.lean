import KokkosUtils.Callbacks.UsageProtocol

/-! Listeners do not notice each other.
Without the operations that register and unregister some of them, the others are notified of the
same events of the remaining operations. Only the ids that the Manager hands out can differ, since
it takes none for a call that nobody listens to. Callbacks do not register, unregister or finalize.
-/

namespace KokkosUtils.Callbacks

open KokkosUtils.Foundations

variable {ν σ : Type} {tools : CallbackSlot → Option FunctionPointer}

/-- Some listeners, known by the addresses of their models and, where these hold shared pointers, by
the callable objects that they point to.
-/
structure ListenerGroup where
  addresses : Address → Bool
  pointers : Pointer → Bool

namespace ListenerGroup

variable (group : ListenerGroup)

/-- Whether a model belongs to the group. -/
def contains (model : ListenerModel) : Bool := group.addresses model.address

/-- A model belongs to the group exactly if the callable object that it points to does. -/
def Fits (model : ListenerModel) : Prop :=
  ∀ pointer, model.sharedPointer = some pointer → group.contains model = group.pointers pointer

/-- Whether an operation registers or unregisters a listener of the group. -/
def concerns : Operation ν → Bool
  | .registerShared _ _ address => group.addresses address
  | .registerObject _ address => group.addresses address
  | .unregisterByPointer _ pointer => group.pointers pointer
  | .unregisterByHandle handle => group.addresses handle
  | _ => false

/-- The operations without those that concern the group. -/
def without (operations : List (Operation ν)) : List (Operation ν) :=
  operations.filter (fun operation => !group.concerns operation)

/-- All registrations of a callable object belong to the group, or none does. -/
def Separates (operations : List (Operation ν)) : Prop :=
  ∀ operation ∈ operations, ∀ command ∈ operation.subscription?, command.Admits group.Fits

variable {group}

/-- What holds a pointer belongs to the group exactly if the callable object does. -/
theorem contains_of_holds {model : ListenerModel} {callable : Listener} {pointer : Pointer}
    (fits : group.Fits model) (held : model.holds callable pointer = true)
    : group.contains model = group.pointers pointer := by
  simp only [ListenerModel.holds, Bool.and_eq_true, beq_iff_eq] at held
  exact fits pointer held.2

/-- An operation that concerns the group adds and removes only listeners of the group, and no other
operation adds or removes one.
-/
theorem concerns_subscription (group : ListenerGroup) {operation : Operation ν}
    {command : ListenerCommand ν} (asked : operation.subscription? = some command)
    : command.Concerns
        (fun model => group.Fits model → (!group.contains model) = !group.concerns operation) := by
  cases operation with
  | registerShared callable pointer address =>
      cases asked
      exact fun _ => rfl
  | registerObject callable address =>
      cases asked
      exact fun _ => rfl
  | unregisterByPointer callable pointer =>
      cases asked
      exact fun model held fits => congrArg Bool.not (contains_of_holds fits held)
  | unregisterByHandle handle =>
      cases asked
      intro model held _
      exact congrArg (fun address => !group.addresses address) (beq_iff_eq.mp held)
  | finalizeSingleton =>
      cases asked
      trivial
  | _ => cases asked

/-- The operations on single listeners ask a broker for a subscription or its end. -/
theorem isSubscription_of_concerns {operation : Operation ν} {command : ListenerCommand ν}
    (about : group.concerns operation = true) (asked : operation.subscription? = some command)
    : command.isSubscription = true := by
  cases operation <;> first | (cases asked; rfl) | cases about

/-- What is asked of a broker up to ids is a subscription only if the operation asks for it. -/
theorem command?_cases (group : ListenerGroup) {operation : Operation ν}
    {command : ListenerCommand ν} (asked : operation.command? = some command)
    : (∃ event, command = .publish event ∧ group.concerns operation = false)
      ∨ operation.subscription? = some command := by
  cases operation <;> cases asked <;> first | exact .inr rfl | exact .inl ⟨_, rfl, rfl⟩

/-- An operation that is allowed and does not concern the group is allowed without it. -/
theorem allowed_without {operation : Operation ν} {initialized : Bool}
    {listeners : List ListenerModel} (fits : ∀ model ∈ listeners, group.Fits model)
    (apart : group.concerns operation = false)
    (allowed : operation.allowed initialized listeners = true)
    : operation.allowed initialized (listeners.filter (fun model => !group.contains model))
      = true := by
  have remaining (held : ListenerModel → Bool)
      (outside : ∀ model ∈ listeners, held model = true → group.contains model = false)
      (found : listeners.any held = true)
      : (listeners.filter (fun model => !group.contains model)).any held = true := by
    obtain ⟨model, member, holds⟩ := List.any_eq_true.mp found
    refine List.any_eq_true.mpr ⟨model, List.mem_filter.mpr ⟨member, ?_⟩, holds⟩
    rw [outside model member holds, Bool.not_false]
  have fewer (free : ListenerModel → Bool) (all : listeners.all free = true)
      : (listeners.filter (fun model => !group.contains model)).all free = true := by
    rw [List.all_eq_true] at all ⊢
    exact fun model member => all model (List.mem_of_mem_filter member)
  cases operation with
  | registerShared callable pointer address =>
      obtain ⟨active, free⟩ := (Bool.and_eq_true _ _).mp allowed
      exact (Bool.and_eq_true _ _).mpr ⟨active, fewer _ free⟩
  | registerObject callable address =>
      obtain ⟨active, free⟩ := (Bool.and_eq_true _ _).mp allowed
      exact (Bool.and_eq_true _ _).mpr ⟨active, fewer _ free⟩
  | unregisterByPointer callable pointer =>
      refine remaining _ (fun model member held => ?_) allowed
      exact (contains_of_holds (fits model member) held).trans apart
  | unregisterByHandle handle =>
      refine remaining _ (fun model member held => ?_) allowed
      exact (congrArg group.addresses (beq_iff_eq.mp held)).trans apart
  | _ => exact allowed

/-- Without the operations that concern a group, the others still follow the protocol, by induction
on the operations.
-/
theorem followsProtocol_without {operations : List (Operation ν)} {initialized : Bool}
    {listeners : List ListenerModel} (fits : ∀ model ∈ listeners, group.Fits model)
    (separates : group.Separates operations)
    (follows : followsProtocol initialized listeners operations = true)
    : followsProtocol initialized (listeners.filter (fun model => !group.contains model))
        (group.without operations)
      = true := by
  induction operations generalizing initialized listeners with
  | nil => rfl
  | cons operation rest ih =>
      obtain ⟨allowed, remaining⟩ := (Bool.and_eq_true _ _).mp follows
      have separated : group.Separates rest :=
        fun other member => separates other (List.mem_cons_of_mem _ member)
      have fitsAfter : ∀ model ∈ operation.listenersAfter listeners, group.Fits model := by
        unfold Operation.listenersAfter
        cases asked : operation.subscription? with
        | none => exact fits
        | some command => exact (separates operation (by simp) command asked).update fits
      have others := ih fitsAfter separated remaining
      cases about : group.concerns operation with
      | true =>
          have same : operation.initializedAfter initialized = initialized := by
            cases operation <;> first | rfl | cases about
          have unseen
              : (operation.listenersAfter listeners).filter (fun model => !group.contains model)
                = listeners.filter (fun model => !group.contains model) := by
            unfold Operation.listenersAfter
            cases asked : operation.subscription? with
            | none => rfl
            | some command =>
                have concerned := concerns_subscription group asked
                rw [about] at concerned
                exact (BrokerCommand.update_of_others ListenerModel.wants
                  (isSubscription_of_concerns about asked) concerned
                  (separates operation (by simp) command asked) fits).1
          rw [same, unseen] at others
          rw [without, List.filter_cons_of_neg (by simp [about])]
          exact others
      | false =>
          have same
              : (operation.listenersAfter listeners).filter (fun model => !group.contains model)
                = operation.listenersAfter
                    (listeners.filter (fun model => !group.contains model)) := by
            unfold Operation.listenersAfter
            cases asked : operation.subscription? with
            | none => rfl
            | some command =>
                have concerned := concerns_subscription group asked
                rw [about] at concerned
                exact (BrokerCommand.update_of_mine ListenerModel.wants concerned
                  (separates operation (by simp) command asked) fits).1
          rw [same] at others
          rw [without, List.filter_cons_of_pos (by simp [about])]
          exact (Bool.and_eq_true _ _).mpr ⟨allowed_without fits about allowed, others⟩

/-- A broker without the operations that concern a group delivers to the others what it delivers to
them with these operations.
-/
theorem runBroker_without {operations : List (Operation ν)} {listeners : List ListenerModel}
    (fits : ∀ model ∈ listeners, group.Fits model) (separates : group.Separates operations)
    : runBroker ListenerModel.wants ((group.without operations).filterMap Operation.command?)
          (listeners.filter (fun model => !group.contains model))
      = let all :=
          runBroker ListenerModel.wants (operations.filterMap Operation.command?) listeners
        (
          all.1.filter (fun model => !group.contains model),
          all.2.filter (fun delivery => !group.contains delivery.1)
        ) := by
  refine runBroker_isolated fits ?_ ?_ ?_
  · intro operation member command asked
    rcases command?_cases group asked with ⟨event, rfl, -⟩ | subscribes
    · trivial
    · exact separates operation member command subscribes
  · intro operation member about command asked
    rcases command?_cases group asked with ⟨event, rfl, apart⟩ | subscribes
    · rw [about] at apart
      cases apart
    · have concerned := concerns_subscription group subscribes
      rw [about] at concerned
      exact ⟨isSubscription_of_concerns about subscribes, concerned⟩
  · intro operation member apart command asked
    rcases command?_cases group asked with ⟨event, rfl, -⟩ | subscribes
    · trivial
    · have concerned := concerns_subscription group subscribes
      rw [apart] at concerned
      exact concerned

end ListenerGroup

variable {callees : Callees ν σ} {group : ListenerGroup}

/-- Listeners are isolated from each other. If some listeners, none of which is registered yet, are
never registered and unregistered, then the run is still defined, and the other listeners are
notified of the same events of its operations in the same order, up to ids that calls are answered
with. This holds whatever the context and the listeners do in either run, short of registering,
unregistering and finalizing; events that they raise themselves are not compared.
-/
theorem Reachable.listeners_isolated {operations : List (Operation ν)} {world final : World σ}
    {report : List (Happening ν)} (reachable : Reachable callees tools world)
    (fits : ∀ model ∈ world.listeners, group.Fits model)
    (outside : ∀ model ∈ world.listeners, group.contains model = false)
    (separates : group.Separates operations)
    (ran : run callees operations world = some (final, report)) (others : Callees ν σ)
    : ∃ alone shown,
        run others (group.without operations) world = some (alone, shown)
        ∧ alone.listeners = final.listeners.filter (fun model => !group.contains model)
        ∧ (invocations shown).map (Prod.map id Event.withoutId)
          = ((invocations report).filter
              (fun invocation => !group.contains invocation.1)).map
                (Prod.map id Event.withoutId) := by
  have consistent := reachable.consistent
  have unfiltered : world.listeners.filter (fun model => !group.contains model)
      = world.listeners :=
    List.filter_eq_self.mpr fun model member => by rw [outside model member, Bool.not_false]
  have follows : followsProtocol world.singleton.isSome world.listeners operations = true := by
    rw [← consistent.isSome_run callees, ran]
    rfl
  have remains := ListenerGroup.followsProtocol_without fits separates follows
  rw [unfiltered, ← consistent.isSome_run others] at remains
  obtain ⟨⟨alone, shown⟩, aloneRan⟩ := Option.isSome_iff_exists.mp remains
  have brokered := ListenerGroup.runBroker_without fits separates
  rw [unfiltered, ← consistent.run_commands_withoutId ran,
    ← consistent.run_commands_withoutId aloneRan] at brokered
  obtain ⟨listed, delivered⟩ := Prod.mk.inj brokered
  refine ⟨alone, shown, aloneRan, listed, delivered.trans ?_⟩
  rw [List.filter_map]
  rfl

/-- A listener of reductions. -/
private def reductions : Listener :=
  .explicit "Reductions" [.kokkos .beginParallelReduceEvent] (by decide)

/-- Beside a listener of reductions, a listener of scans comes and goes. -/
private def visited : List (Operation Unit) :=
  [
    .initializeSingleton,
    .registerObject reductions 1,
    .registerShared (.explicit "Scans" [.kokkos .beginParallelScanEvent] (by decide)) 9 2,
    .kokkosCall (.beginEvent .parallelScan "offsets" 0 0),
    .kokkosCall (.beginEvent .parallelReduce "dot" 0 0),
    .unregisterByHandle 2,
    .kokkosCall (.beginEvent .parallelReduce "norm" 0 0)
  ]

/-- The visitor. -/
private def visitor : ListenerGroup where
  addresses := fun address => address == 2
  pointers := fun pointer => pointer == 9

/-- Without the visitor the listener of reductions is notified of the same reductions, though with
other ids.
-/
theorem listeners_isolated_visitor
    : ∃ (final alone : World Unit) (report shown : List (Happening Unit)),
        run Callees.quiet visited (.start (fun _ => none) ()) = some (final, report)
        ∧ run Callees.quiet (visitor.without visited) (.start (fun _ => none) ())
          = some (alone, shown)
        ∧ (invocations shown).map (Prod.map id Event.withoutId)
          = ((invocations report).filter
              (fun invocation => !visitor.contains invocation.1)).map
                (Prod.map id Event.withoutId) := by
  have ran : run Callees.quiet visited (.start (fun _ => none) ()) = some (_, _) := rfl
  have separates : visitor.Separates visited := by
    intro operation member command asked
    simp only [visited, List.mem_cons, List.not_mem_nil, or_false] at member
    rcases member with rfl | rfl | rfl | rfl | rfl | rfl | rfl <;> cases asked
    all_goals first | trivial | (intro pointer held; cases held <;> rfl)
  obtain ⟨alone, shown, aloneRan, -, same⟩ :=
    Reachable.listeners_isolated (.start ()) nofun nofun separates ran Callees.quiet
  exact ⟨_, alone, _, shown, ran, aloneRan, same⟩

end KokkosUtils.Callbacks
