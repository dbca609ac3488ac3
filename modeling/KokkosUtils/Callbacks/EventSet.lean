import KokkosUtils.Callbacks.Events
import KokkosUtils.Foundations.KeyedIndex

/-! Kokkos' table of callback function pointers and the calls made through it.
The getters and setters follow the two macro tables that tie event types to callbacks.
-/

namespace KokkosUtils.Callbacks

/-- The members of `Kokkos::Tools::Experimental::EventSet`. The Manager reads and writes
`other` members only together with the whole table.
-/
inductive CallbackSlot
  | beginParallelFor
  | endParallelFor
  | beginParallelReduce
  | endParallelReduce
  | beginParallelScan
  | endParallelScan
  | beginSingle
  | endSingle
  | beginFence
  | endFence
  | allocateData
  | deallocateData
  | beginDeepCopy
  | endDeepCopy
  | createProfileSection
  | startProfileSection
  | stopProfileSection
  | destroyProfileSection
  | pushRegion
  | popRegion
  | profileEvent
  | other (name : String)
  deriving DecidableEq, Repr

/-- The address of a callback function that is not the Manager's. -/
abbrev FunctionPointer := Nat

/-- A non-null callback function pointer: the Manager's dispatching function for an event
type, or a function of whoever set the callback outside the Manager.
-/
inductive Callback
  | tool (function : FunctionPointer)
  | dispatching (type : KokkosEventType)
  deriving DecidableEq, Repr

/-- A callback table; null pointers are `none`. -/
abbrev EventSet := CallbackSlot → Option Callback

/-- The member that `GET_CALLBACK_FROM_EVENTSET` reads for an event type. -/
def callbackMember : KokkosEventType → CallbackSlot
  | .beginParallelForEvent => .beginParallelFor
  | .endParallelForEvent => .endParallelFor
  | .beginParallelReduceEvent => .beginParallelReduce
  | .endParallelReduceEvent => .endParallelReduce
  | .beginParallelScanEvent => .beginParallelScan
  | .endParallelScanEvent => .endParallelScan
  | .beginSingleEvent => .beginSingle
  | .endSingleEvent => .endSingle
  | .beginFenceEvent => .beginFence
  | .endFenceEvent => .endFence
  | .allocateDataEvent => .allocateData
  | .deallocateDataEvent => .deallocateData
  | .beginDeepCopyEvent => .beginDeepCopy
  | .endDeepCopyEvent => .endDeepCopy
  | .createProfileSectionEvent => .createProfileSection
  | .startProfileSectionEvent => .startProfileSection
  | .stopProfileSectionEvent => .stopProfileSection
  | .destroyProfileSectionEvent => .destroyProfileSection
  | .pushRegionEvent => .pushRegion
  | .popRegionEvent => .popRegion
  | .profileEvent => .profileEvent

/-- The member that the Kokkos setter of `GET_CALLBACK_SETTER` writes for an event type. -/
def setterMember : KokkosEventType → CallbackSlot
  | .beginParallelForEvent => .beginParallelFor
  | .endParallelForEvent => .endParallelFor
  | .beginParallelReduceEvent => .beginParallelReduce
  | .endParallelReduceEvent => .endParallelReduce
  | .beginParallelScanEvent => .beginParallelScan
  | .endParallelScanEvent => .endParallelScan
  | .beginSingleEvent => .beginSingle
  | .endSingleEvent => .endSingle
  | .beginFenceEvent => .beginFence
  | .endFenceEvent => .endFence
  | .allocateDataEvent => .allocateData
  | .deallocateDataEvent => .deallocateData
  | .beginDeepCopyEvent => .beginDeepCopy
  | .endDeepCopyEvent => .endDeepCopy
  | .createProfileSectionEvent => .createProfileSection
  | .startProfileSectionEvent => .startProfileSection
  | .stopProfileSectionEvent => .stopProfileSection
  | .destroyProfileSectionEvent => .destroyProfileSection
  | .pushRegionEvent => .pushRegion
  | .popRegionEvent => .popRegion
  | .profileEvent => .profileEvent

/-- `get_callback_from_eventset`. -/
def getCallbackFromEventset (type : KokkosEventType) (eventSet : EventSet) : Option Callback :=
  eventSet (callbackMember type)

/-- The setter returned by `get_callback_setter`, which writes one member of the table. -/
def getCallbackSetter (type : KokkosEventType) (callback : Option Callback) (eventSet : EventSet)
    : EventSet :=
  Function.update eventSet (setterMember type) callback

/-- The two macro tables pair each event type with the same member. -/
theorem setterMember_eq (type : KokkosEventType) : setterMember type = callbackMember type :=
  rfl

/-- The event type whose callback a member is, if it belongs to one. -/
def CallbackSlot.eventType? : CallbackSlot → Option KokkosEventType
  | .beginParallelFor => some .beginParallelForEvent
  | .endParallelFor => some .endParallelForEvent
  | .beginParallelReduce => some .beginParallelReduceEvent
  | .endParallelReduce => some .endParallelReduceEvent
  | .beginParallelScan => some .beginParallelScanEvent
  | .endParallelScan => some .endParallelScanEvent
  | .beginSingle => some .beginSingleEvent
  | .endSingle => some .endSingleEvent
  | .beginFence => some .beginFenceEvent
  | .endFence => some .endFenceEvent
  | .allocateData => some .allocateDataEvent
  | .deallocateData => some .deallocateDataEvent
  | .beginDeepCopy => some .beginDeepCopyEvent
  | .endDeepCopy => some .endDeepCopyEvent
  | .createProfileSection => some .createProfileSectionEvent
  | .startProfileSection => some .startProfileSectionEvent
  | .stopProfileSection => some .stopProfileSectionEvent
  | .destroyProfileSection => some .destroyProfileSectionEvent
  | .pushRegion => some .pushRegionEvent
  | .popRegion => some .popRegionEvent
  | .profileEvent => some .profileEvent
  | .other _ => none

@[simp] theorem eventType?_callbackMember (type : KokkosEventType)
    : (callbackMember type).eventType? = some type := by
  rcases type with construct | construct | operation | _ | _ | _ | operation | _ | _ | _
  all_goals first | rfl | (cases construct <;> rfl) | (cases operation <;> rfl)

/-- A member belongs to an event type exactly when the getter of that type reads it. -/
theorem eventType?_eq_some {slot : CallbackSlot} {type : KokkosEventType}
    : slot.eventType? = some type ↔ callbackMember type = slot := by
  constructor
  · intro known
    cases slot <;> simp only [CallbackSlot.eventType?, Option.some.injEq, reduceCtorEq] at known
    all_goals subst known; rfl
  · rintro rfl
    exact eventType?_callbackMember type

theorem callbackMember_injective : Function.Injective callbackMember := by
  intro left right equal
  have known := eventType?_callbackMember left
  rw [equal, eventType?_callbackMember] at known
  exact (Option.some.inj known).symm

-----------------------------------------------------------------------------------------
-- Calls of Kokkos profiling functions
-----------------------------------------------------------------------------------------

/-- A call of a Kokkos profiling function with its arguments. The id of a begin or
create-section call is the value of its out-parameter.
-/
inductive KokkosCall
  | beginEvent (construct : Construct) (name : String) (devId : UInt32) (eventId : EventId)
  | endEvent (construct : Construct) (eventId : EventId)
  | dataEvent (operation : DataOperation) (kpsh : SpaceHandle) (name : String) (ptr : Pointer)
    (size : UInt64)
  | beginDeepCopy (dstKpsh : SpaceHandle) (dstName : String) (dstPtr : Pointer)
    (srcKpsh : SpaceHandle) (srcName : String) (srcPtr : Pointer) (size : UInt64)
  | endDeepCopy
  | createProfileSection (name : String) (sectionId : SectionId)
  | profileSectionManipulation (operation : SectionOperation) (sectionId : SectionId)
  | pushRegion (name : String)
  | popRegion
  | profileEvent (name : String)
  deriving DecidableEq, Repr

namespace KokkosCall

/-- The event type whose callback the call is made through. -/
def type : KokkosCall → KokkosEventType
  | beginEvent construct .. => .beginEvent construct
  | endEvent construct .. => .endEvent construct
  | dataEvent operation .. => .dataEvent operation
  | beginDeepCopy .. => .beginDeepCopyEvent
  | endDeepCopy => .endDeepCopyEvent
  | createProfileSection .. => .createProfileSectionEvent
  | profileSectionManipulation operation .. => .profileSectionManipulationEvent operation
  | pushRegion .. => .pushRegionEvent
  | popRegion => .popRegionEvent
  | profileEvent .. => .profileEvent

/-- The member of the callback table that the profiling function calls. -/
def slot (call : KokkosCall) : CallbackSlot := callbackMember call.type

/-- What a callback can leave in the out-parameter of the call. -/
@[reducible] def Out : KokkosCall → Type
  | beginEvent .. => EventId
  | createProfileSection .. => SectionId
  | _ => Unit

/-- The call with its out-parameter as a callback left it. -/
def leave : (call : KokkosCall) → call.Out → KokkosCall
  | beginEvent construct name devId _, eventId => .beginEvent construct name devId eventId
  | createProfileSection name _, sectionId => .createProfileSection name sectionId
  | endEvent construct eventId, _ => .endEvent construct eventId
  | dataEvent operation kpsh name ptr size, _ => .dataEvent operation kpsh name ptr size
  | beginDeepCopy dstKpsh dstName dstPtr srcKpsh srcName srcPtr size, _ =>
      .beginDeepCopy dstKpsh dstName dstPtr srcKpsh srcName srcPtr size
  | endDeepCopy, _ => .endDeepCopy
  | profileSectionManipulation operation sectionId, _ =>
      .profileSectionManipulation operation sectionId
  | pushRegion name, _ => .pushRegion name
  | popRegion, _ => .popRegion
  | profileEvent name, _ => .profileEvent name

/-- What the out-parameter of the call holds. -/
def out : (call : KokkosCall) → call.Out
  | beginEvent _ _ _ eventId => eventId
  | createProfileSection _ sectionId => sectionId
  | endEvent .. => ()
  | dataEvent .. => ()
  | beginDeepCopy .. => ()
  | endDeepCopy => ()
  | profileSectionManipulation .. => ()
  | pushRegion .. => ()
  | popRegion => ()
  | profileEvent .. => ()

@[simp] theorem leave_type (call : KokkosCall) (out : call.Out)
    : (call.leave out).type = call.type := by
  cases call <;> rfl

@[simp] theorem leave_out (call : KokkosCall) : call.leave call.out = call := by
  cases call <;> rfl

@[simp] theorem leave_slot (call : KokkosCall) (out : call.Out)
    : (call.leave out).slot = call.slot := by
  simp [slot]

/-- The event that stands for a call: its fields are the arguments of the call, and both
descriptors of a deep copy have the size of the copy.
-/
def event : KokkosCall → KokkosEvent
  | beginEvent construct name devId eventId => .beginEvent construct name devId eventId
  | endEvent construct eventId => .endEvent construct eventId
  | dataEvent operation kpsh name ptr size => .dataEvent operation { kpsh, name, ptr, size }
  | beginDeepCopy dstKpsh dstName dstPtr srcKpsh srcName srcPtr size =>
      .beginDeepCopyEvent
        { kpsh := dstKpsh, name := dstName, ptr := dstPtr, size }
        { kpsh := srcKpsh, name := srcName, ptr := srcPtr, size }
  | endDeepCopy => .endDeepCopyEvent
  | createProfileSection name sectionId => .createProfileSectionEvent name sectionId
  | profileSectionManipulation operation sectionId =>
      .profileSectionManipulationEvent operation sectionId
  | pushRegion name => .pushRegionEvent name
  | popRegion => .popRegionEvent
  | profileEvent name => .profileEvent name

@[simp] theorem event_type (call : KokkosCall) : call.event.type = call.type := by
  cases call <;> rfl

end KokkosCall

end KokkosUtils.Callbacks
