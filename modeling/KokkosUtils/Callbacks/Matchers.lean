import KokkosUtils.Callbacks.Events
import KokkosUtils.Impl.TypeList

/-! Matchers: the concept, the matchers for single events, and those that combine others. -/

namespace KokkosUtils.Callbacks

open KokkosUtils.Impl

/-- The concept `Matcher`: the event types a matcher type is invocable with, and its call
operator, which returns whether the event matches and may change the matcher.
-/
class Matcher (M : Type) where
  isMatcherFor : KokkosEventType → Bool
  call : KokkosEvent → M → Bool × M

/-- Whether a matcher, as it is, matches an event. -/
def Matcher.accepts {M : Type} [Matcher M] (matcher : M) (event : KokkosEvent) : Bool :=
  (Matcher.call event matcher).1

/-- Whether an event of any type is a Kokkos event that a matcher accepts. -/
def Event.acceptedBy {ν M : Type} [Matcher M] (matcher : M) : Event ν → Bool
  | .kokkos event => Matcher.accepts matcher event
  | .custom .. => false

/-- A matcher type whose objects never change. -/
class StatelessMatcher (M : Type) extends Matcher M where
  stateless : ∀ event matcher, (call event matcher).2 = matcher

/-- A call of a matcher without state gives its verdict and leaves it as it is. -/
theorem StatelessMatcher.call_eq {M : Type} [StatelessMatcher M] (event : KokkosEvent) (matcher : M)
    : Matcher.call event matcher = (Matcher.accepts matcher event, matcher) :=
  Prod.ext rfl (StatelessMatcher.stateless event matcher)

/-- `event_id`, which the types of the concept `IndexedEvent` have. -/
def KokkosEvent.eventId? : KokkosEvent → Option EventId
  | .beginEvent _ _ _ eventId => some eventId
  | .endEvent _ eventId => some eventId
  | _ => none

/-- `dev_id`, which the types of the concept `EnqueuedEvent` have. -/
def KokkosEvent.devId? : KokkosEvent → Option UInt32
  | .beginEvent _ _ devId _ => some devId
  | _ => none

/-- The name of an event: its `name`, or that of the allocation of a `DataEvent`. -/
def KokkosEvent.name? : KokkosEvent → Option String
  | .beginEvent _ name _ _ => some name
  | .dataEvent _ alloc => some alloc.name
  | .createProfileSectionEvent name _ => some name
  | .pushRegionEvent name => some name
  | .profileEvent name => some name
  | _ => none

/-- `AnyEventMatcher`. -/
structure AnyEventMatcher where

instance : StatelessMatcher AnyEventMatcher where
  isMatcherFor := fun _ => true
  call := fun _ matcher => (true, matcher)
  stateless := fun _ _ => rfl

/-- `EventNameMatcher`. -/
structure EventNameMatcher where
  name : String

instance : StatelessMatcher EventNameMatcher where
  isMatcherFor
    | .beginEvent _ | .dataEvent _ | .createProfileSectionEvent => true
    | .pushRegionEvent | .profileEvent => true
    | _ => false
  call := fun event matcher => (event.name? == some matcher.name, matcher)
  stateless := fun _ _ => rfl

/-- `EventIdMatcher`. -/
structure EventIdMatcher where
  eventId : EventId := invalidEventId

instance : StatelessMatcher EventIdMatcher where
  isMatcherFor
    | .beginEvent _ | .endEvent _ => true
    | _ => false
  call := fun event matcher => (event.eventId? == some matcher.eventId, matcher)
  stateless := fun _ _ => rfl

/-- An execution space instance, known by what `Kokkos::Tools::Experimental::device_id` gives. -/
structure ExecutionSpace where
  deviceId : UInt32

/-- `EventQueueMatcher`. -/
structure EventQueueMatcher where
  exec : ExecutionSpace
  devId : UInt32 := exec.deviceId

instance : StatelessMatcher EventQueueMatcher where
  isMatcherFor
    | .beginEvent _ => true
    | _ => false
  call := fun event matcher => (event.devId? == some matcher.devId, matcher)
  stateless := fun _ _ => rfl

@[simp] theorem EventQueueMatcher.accepts_eq (self : EventQueueMatcher) (event : KokkosEvent)
    : Matcher.accepts self event = (event.devId? == some self.devId) := rfl

/-- `ConjunctionMatcher` of two matchers; it nests for more. -/
structure ConjunctionMatcher (M N : Type) where
  first : M
  second : N

/-- `operator()`, which stops at the first matcher that does not match. -/
def ConjunctionMatcher.call {M N : Type} [Matcher M] [Matcher N] (event : KokkosEvent)
    (matchers : ConjunctionMatcher M N)
    : Bool × ConjunctionMatcher M N :=
  let (matching, first) := Matcher.call event matchers.first
  if matching then
    let (matching, second) := Matcher.call event matchers.second
    (matching, { first := first, second := second })
  else
    (false, { matchers with first := first })

instance {M N : Type} [Matcher M] [Matcher N] : Matcher (ConjunctionMatcher M N) where
  isMatcherFor := fun type => Matcher.isMatcherFor M type && Matcher.isMatcherFor N type
  call := ConjunctionMatcher.call

/-- `EventBeginEndIdMatcher` for the begin and end events of a construct. -/
structure EventBeginEndIdMatcher (construct : Construct) (M : Type) where
  matcher : M
  matcherEnd : EventIdMatcher := {}

/-- `operator()` for the begin events, which remembers the id of the latest match, and for the
end events.
-/
def EventBeginEndIdMatcher.call {construct : Construct} {M : Type} [Matcher M]
    (event : KokkosEvent) (self : EventBeginEndIdMatcher construct M)
    : Bool × EventBeginEndIdMatcher construct M :=
  match event with
  | .beginEvent _ _ _ eventId =>
      let (matching, matcher) := Matcher.call event self.matcher
      if matching then
        (true, { matcher := matcher, matcherEnd := { eventId := eventId } })
      else
        (false, { self with matcher := matcher })
  | .endEvent .. => ((Matcher.call event self.matcherEnd).1, self)
  | _ => (false, self)

instance {construct : Construct} {M : Type} [Matcher M]
    : Matcher (EventBeginEndIdMatcher construct M) where
  isMatcherFor := fun type => type == .beginEvent construct || type == .endEvent construct
  call := EventBeginEndIdMatcher.call

/-- `EventTypeMatcher`. -/
structure EventTypeMatcher (types : List KokkosEventType) (M : Type) where
  matcher : M

instance {types : List KokkosEventType} {M : Type} [Matcher M]
    : Matcher (EventTypeMatcher types M) where
  isMatcherFor := fun type => typeListContains type types && Matcher.isMatcherFor M type
  call := fun event self =>
    let (matching, matcher) := Matcher.call event self.matcher
    (matching, { matcher := matcher })

/-- `EventRegionMatcher`. -/
structure EventRegionMatcher (M : Type) (trueOnBoundary : Bool) where
  matcher : M
  matching : Bool := false
  nestedLevel : UInt32 := 0xFFFFFFFF

/-- `operator()` for push events, for pop events and for all others. -/
def EventRegionMatcher.call {M : Type} {trueOnBoundary : Bool} [Matcher M] (event : KokkosEvent)
    (self : EventRegionMatcher M trueOnBoundary)
    : Bool × EventRegionMatcher M trueOnBoundary :=
  match event with
  | .pushRegionEvent _ =>
      if self.matching then
        (!trueOnBoundary, { self with nestedLevel := self.nestedLevel + 1 })
      else
        let (matched, matcher) := Matcher.call event self.matcher
        if matched then
          (trueOnBoundary, { matcher := matcher, matching := true, nestedLevel := 1 })
        else
          (if trueOnBoundary then false else self.matching, { self with matcher := matcher })
  | .popRegionEvent =>
      if self.matching then
        let nestedLevel := self.nestedLevel - 1
        if nestedLevel = 0 then
          (trueOnBoundary, { self with matching := false, nestedLevel := nestedLevel })
        else
          (
            if trueOnBoundary then false else self.matching,
            { self with nestedLevel := nestedLevel }
          )
      else
        (if trueOnBoundary then false else self.matching, self)
  | _ => (if trueOnBoundary then false else self.matching, self)

instance {M : Type} {trueOnBoundary : Bool} [Matcher M]
    : Matcher (EventRegionMatcher M trueOnBoundary) where
  isMatcherFor := fun _ => true
  call := EventRegionMatcher.call

/-- Two matchers without state match an event when both do. -/
theorem ConjunctionMatcher.call_eq {M N : Type} [StatelessMatcher M] [StatelessMatcher N]
    (event : KokkosEvent) (matchers : ConjunctionMatcher M N)
    : Matcher.call event matchers
      = (Matcher.accepts matchers.first event && Matcher.accepts matchers.second event, matchers)
    := by
  change ConjunctionMatcher.call event matchers = _
  unfold ConjunctionMatcher.call
  rw [StatelessMatcher.call_eq, StatelessMatcher.call_eq]
  cases Matcher.accepts matchers.first event <;> rfl

instance {M N : Type} [StatelessMatcher M] [StatelessMatcher N]
    : StatelessMatcher (ConjunctionMatcher M N) where
  stateless := fun event matchers => congrArg Prod.snd (ConjunctionMatcher.call_eq event matchers)

end KokkosUtils.Callbacks
