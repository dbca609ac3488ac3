import Mathlib.Data.List.Nodup

/-! Event types and events of the Kokkos profiling callbacks, and custom events.
Event types that differ only in name share a constructor indexed by the family member;
each keeps its source name as an abbreviation.
-/

namespace KokkosUtils.Callbacks

/-- `EventTraits::event_id_t`. -/
abbrev EventId := UInt64

/-- `EventTraits::invalid_event_id`, the largest event id. -/
def invalidEventId : EventId := 0xFFFFFFFFFFFFFFFF

/-- The type of the section ids. -/
abbrev SectionId := UInt32

/-- The constructs reported by a begin event and an end event with a common id. -/
inductive Construct
  | parallelFor
  | parallelReduce
  | parallelScan
  | single
  | fence
  deriving DecidableEq, Repr

/-- The two operations on data allocations. -/
inductive DataOperation
  | allocate
  | deallocate
  deriving DecidableEq, Repr

/-- The operations on an existing profile section. -/
inductive SectionOperation
  | start
  | stop
  | destroy
  deriving DecidableEq, Repr

/-- The event types that represent Kokkos profiling callbacks. `beginEvent`, `endEvent`,
`dataEvent` and `profileSectionManipulationEvent` are the families that the concepts
`BeginEvent`, `EndEvent`, `DataEvent` and `ProfileSectionManipulationEvent` select.
-/
inductive KokkosEventType
  | beginEvent (construct : Construct)
  | endEvent (construct : Construct)
  | dataEvent (operation : DataOperation)
  | beginDeepCopyEvent
  | endDeepCopyEvent
  | createProfileSectionEvent
  | profileSectionManipulationEvent (operation : SectionOperation)
  | pushRegionEvent
  | popRegionEvent
  | profileEvent
  deriving DecidableEq, Repr

namespace KokkosEventType

@[match_pattern] abbrev beginParallelForEvent := beginEvent .parallelFor
@[match_pattern] abbrev endParallelForEvent := endEvent .parallelFor
@[match_pattern] abbrev beginParallelReduceEvent := beginEvent .parallelReduce
@[match_pattern] abbrev endParallelReduceEvent := endEvent .parallelReduce
@[match_pattern] abbrev beginParallelScanEvent := beginEvent .parallelScan
@[match_pattern] abbrev endParallelScanEvent := endEvent .parallelScan
@[match_pattern] abbrev beginSingleEvent := beginEvent .single
@[match_pattern] abbrev endSingleEvent := endEvent .single
@[match_pattern] abbrev beginFenceEvent := beginEvent .fence
@[match_pattern] abbrev endFenceEvent := endEvent .fence
@[match_pattern] abbrev allocateDataEvent := dataEvent .allocate
@[match_pattern] abbrev deallocateDataEvent := dataEvent .deallocate
@[match_pattern] abbrev startProfileSectionEvent := profileSectionManipulationEvent .start
@[match_pattern] abbrev stopProfileSectionEvent := profileSectionManipulationEvent .stop
@[match_pattern] abbrev destroyProfileSectionEvent := profileSectionManipulationEvent .destroy

end KokkosEventType

open KokkosEventType in
/-- `EventTypeList`, in the order of the source. -/
def eventTypeList : List KokkosEventType :=
  [
    beginParallelForEvent, endParallelForEvent,
    beginParallelReduceEvent, endParallelReduceEvent,
    beginParallelScanEvent, endParallelScanEvent,
    beginSingleEvent, endSingleEvent,
    beginFenceEvent, endFenceEvent,
    allocateDataEvent, deallocateDataEvent,
    beginDeepCopyEvent, endDeepCopyEvent,
    createProfileSectionEvent, destroyProfileSectionEvent,
    startProfileSectionEvent, stopProfileSectionEvent,
    pushRegionEvent, popRegionEvent,
    profileEvent
  ]

/-- The type list holds each Kokkos event type, by cases on the families. -/
theorem mem_eventTypeList (type : KokkosEventType) : type ∈ eventTypeList := by
  rcases type with construct | construct | operation | _ | _ | _ | operation | _ | _ | _
  all_goals first | (cases construct <;> decide) | (cases operation <;> decide) | decide

/-- The type list holds no type twice. -/
theorem eventTypeList_nodup : eventTypeList.Nodup := by decide

/-- An event type: one of `EventTypeList`, or a user's type outside that list. -/
inductive EventType
  | kokkos (type : KokkosEventType)
  | custom (name : String)
  deriving DecidableEq, Repr

/-- The member of `EventTypeList` that an event type is, if it is one. -/
def EventType.kokkos? : EventType → Option KokkosEventType
  | .kokkos type => some type
  | .custom _ => none

@[simp] theorem EventType.kokkos?_eq_some {type : EventType} {member : KokkosEventType}
    : type.kokkos? = some member ↔ type = .kokkos member := by
  cases type <;> simp [EventType.kokkos?]

-----------------------------------------------------------------------------------------
-- Events
-----------------------------------------------------------------------------------------

/-- `Kokkos::Tools::SpaceHandle`, identified by its name. -/
structure SpaceHandle where
  name : String
  deriving DecidableEq, Repr

/-- The value of a `const void*`. -/
abbrev Pointer := Nat

/-- `AllocDescriptor`. -/
structure AllocDescriptor where
  kpsh : SpaceHandle
  name : String
  ptr : Pointer
  size : UInt64
  deriving DecidableEq, Repr

/-- An event of one of the types of `EventTypeList`, with the fields of its aggregate. -/
inductive KokkosEvent
  | beginEvent (construct : Construct) (name : String) (devId : UInt32) (eventId : EventId)
  | endEvent (construct : Construct) (eventId : EventId)
  | dataEvent (operation : DataOperation) (alloc : AllocDescriptor)
  | beginDeepCopyEvent (dst src : AllocDescriptor)
  | endDeepCopyEvent
  | createProfileSectionEvent (name : String) (sectionId : SectionId)
  | profileSectionManipulationEvent (operation : SectionOperation) (sectionId : SectionId)
  | pushRegionEvent (name : String)
  | popRegionEvent
  | profileEvent (name : String)
  deriving DecidableEq, Repr

/-- The static type of an event. -/
def KokkosEvent.type : KokkosEvent → KokkosEventType
  | .beginEvent construct .. => .beginEvent construct
  | .endEvent construct .. => .endEvent construct
  | .dataEvent operation .. => .dataEvent operation
  | .beginDeepCopyEvent .. => .beginDeepCopyEvent
  | .endDeepCopyEvent => .endDeepCopyEvent
  | .createProfileSectionEvent .. => .createProfileSectionEvent
  | .profileSectionManipulationEvent operation .. => .profileSectionManipulationEvent operation
  | .pushRegionEvent .. => .pushRegionEvent
  | .popRegionEvent => .popRegionEvent
  | .profileEvent .. => .profileEvent

/-- An event of any type; a custom event carries a value of its user's own type. -/
inductive Event (ν : Type)
  | kokkos (event : KokkosEvent)
  | custom (type : String) (value : ν)

/-- The static type of an event of any type. -/
def Event.type {ν : Type} : Event ν → EventType
  | .kokkos event => .kokkos event.type
  | .custom type _ => .custom type

@[simp] theorem Event.type_kokkos {ν : Type} (event : KokkosEvent)
    : (Event.kokkos event : Event ν).type = .kokkos event.type := rfl

@[simp] theorem Event.type_custom {ν : Type} (type : String) (value : ν)
    : (Event.custom type value).type = .custom type := rfl

end KokkosUtils.Callbacks
