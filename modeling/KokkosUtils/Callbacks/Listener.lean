import KokkosUtils.Callbacks.Events
import KokkosUtils.Impl.TypeList

/-! Callable types that can be registered as listeners, and their type-erased models.
A listener's event types are fixed at compile time, so the conditions under which its
model type can be instantiated are carried by the listener type itself.
-/

namespace KokkosUtils.Callbacks

open KokkosUtils.Impl

/-- What the listener templates see of a callable type: its name, its nested alias
`event_type_list_t` if it has one, and the event types it is invocable with.
-/
structure CallableType where
  name : String
  eventTypeListAlias : Option (List EventType)
  isListenerFor : EventType → Bool

/-- `impl::ImplicitListener`: invocable with at least one type of `EventTypeList`. -/
def CallableType.implicitListener (callable : CallableType) : Bool :=
  eventTypeList.any (fun type => callable.isListenerFor (.kokkos type))

/-- `impl::ExplicitListener`: invocable with each type of its `event_type_list_t`. -/
def CallableType.explicitListener (callable : CallableType) : Bool :=
  match callable.eventTypeListAlias with
  | some types => types.all callable.isListenerFor
  | none => false

/-- `listener_event_type_list_t`: the alias if there is one, and otherwise the types of
`EventTypeList` that the callable is invocable with.
-/
def CallableType.listenerEventTypeList (callable : CallableType) : List EventType :=
  match callable.eventTypeListAlias with
  | some types => types
  | none => (eventTypeList.map EventType.kokkos).filter callable.isListenerFor

/-- A callable type that `register_listener` accepts and whose model type compiles: the
call operators it inherits have distinct event types and each can invoke the callable.
-/
structure Listener extends CallableType where
  isListener : (toCallableType.explicitListener || toCallableType.implicitListener) = true
  distinct : toCallableType.listenerEventTypeList.Nodup
  invocable : ∀ type ∈ toCallableType.listenerEventTypeList, isListenerFor type = true

/-- A listener without the alias never listens to types outside `EventTypeList`. -/
theorem CallableType.custom_mem_listenerEventTypeList {callable : CallableType} {name : String}
    : EventType.custom name ∈ callable.listenerEventTypeList
      ↔ ∃ types, callable.eventTypeListAlias = some types ∧ .custom name ∈ types := by
  unfold CallableType.listenerEventTypeList
  cases declared : callable.eventTypeListAlias with
  | none => simp
  | some types => simp

/-- The listener type with the given `event_type_list_t`, invocable with exactly these. -/
def Listener.explicit (name : String) (types : List EventType) (distinct : types.Nodup)
    : Listener where
  name := name
  eventTypeListAlias := some types
  isListenerFor := fun type => typeListContains type types
  isListener := by simp [CallableType.explicitListener]
  distinct := distinct
  invocable := fun _ member => typeListContains_eq_true.mpr member

/-- The address of a listener model in memory. -/
abbrev Address := Nat

/-- An `impl::ListenerModel` on the heap. It wraps either a shared pointer to a callable
object of its listener type or a callable object of that type itself.
-/
structure ListenerModel where
  address : Address
  type : Listener
  sharedPointer : Option Pointer

namespace ListenerModel

/-- The model of a callable object passed as a shared pointer. -/
def shared (callable : Listener) (pointer : Pointer) (address : Address) : ListenerModel :=
  { address := address, type := callable, sharedPointer := some pointer }

/-- The model of a callable object that is copied or moved into it. -/
def object (callable : Listener) (address : Address) : ListenerModel :=
  { address := address, type := callable, sharedPointer := none }

/-- `event_type_list_t` of the model, which fixes the call operators it inherits. -/
def eventTypes (model : ListenerModel) : List EventType := model.type.listenerEventTypeList

/-- Whether the model inherits the call operator of an event type. -/
def handles (model : ListenerModel) (type : EventType) : Bool :=
  typeListContains type model.eventTypes

/-- `dynamic_cast<const ListenerConceptCallOperator<EventType>*>`, null unless the model
inherits that call operator.
-/
def castToCallOperator (model : ListenerModel) (type : EventType) : Option Address :=
  if model.handles type then some model.address else none

/-- Whether the model is a `ListenerModel<std::shared_ptr<Callable>, event_type_list_t>` whose
shared pointer holds the given address, the test made by unregistration by pointer.
-/
def holds (model : ListenerModel) (callable : Listener) (pointer : Pointer) : Bool :=
  model.type.name == callable.name
  && model.eventTypes == callable.listenerEventTypeList
  && model.sharedPointer == some pointer

@[simp] theorem handles_eq_true {model : ListenerModel} {type : EventType}
    : model.handles type = true ↔ type ∈ model.eventTypes := by
  simp [handles]

theorem handles_eq_decide (model : ListenerModel) (type : EventType)
    : model.handles type = decide (type ∈ model.eventTypes) := by
  rw [Bool.eq_iff_iff, handles_eq_true, decide_eq_true_iff]

/-- A model found through its shared pointer has the event types of the callable's type. -/
theorem eventTypes_of_holds {model : ListenerModel} {callable : Listener} {pointer : Pointer}
    (held : model.holds callable pointer = true)
    : model.eventTypes = callable.listenerEventTypeList := by
  simp only [holds, Bool.and_eq_true, beq_iff_eq] at held
  exact held.1.2

end ListenerModel

end KokkosUtils.Callbacks
