import KokkosUtils.Callbacks.SpanTiming

/-! BeginEndTimerListener on streams of paired events.
It stops its timer at the end event with the id of the first begin event that matches, unless
another begin event matches before: the listener does not distinguish the two.
-/

namespace KokkosUtils.Callbacks

open KokkosUtils.Foundations

variable {θ M T : Type} {construct : Construct}

/-- The `matcher_t` of BeginEndTimerListener. -/
abbrev BeginEndMatcher (construct : Construct) (M : Type) : Type :=
  EventBeginEndIdMatcher construct (ConjunctionMatcher EventQueueMatcher M)

/-- `BeginEndTimerListener`. -/
abbrev BeginEndTimerListener (construct : Construct) (M T : Type) : Type :=
  TimerListener (BeginEndMatcher construct M) T

/-- The constructor of BeginEndTimerListener. -/
def BeginEndTimerListener.new [ExecTimerType θ T] (construct : Construct) (matcher : M)
    (exec : ExecutionSpace)
    : BeginEndTimerListener construct M T :=
  {
    matcher := { matcher := { first := { exec := exec }, second := matcher } }
    timer := ExecTimerType.ofExec exec
  }

/-- The id that a begin event carries. -/
def Stamped.beginId? (stamped : Stamped θ) : Option EventId :=
  match stamped.event with
  | .beginEvent _ _ _ eventId => some eventId
  | _ => none

/-- The id that an end event carries. -/
def Stamped.endId? (stamped : Stamped θ) : Option EventId :=
  match stamped.event with
  | .endEvent _ eventId => some eventId
  | _ => none

/-- A stream of the begin and end events of a construct whose begin ids are distinct and valid
and whose end events each carry the id of an earlier begin event that has not ended yet.
-/
structure Paired (construct : Construct) (stream : List (Stamped θ)) : Prop where
  ofPair
    : ∀ stamped ∈ stream,
        stamped.event.type = .beginEvent construct ∨ stamped.event.type = .endEvent construct
  distinct : (stream.filterMap Stamped.beginId?).Nodup
  valid : invalidEventId ∉ stream.filterMap Stamped.beginId?
  begun
    : ∀ position < stream.length,
        ∀ eventId ∈ stream[position]?.bind Stamped.endId?,
          eventId ∈ (stream.take position).filterMap Stamped.beginId?
          ∧ eventId ∉ (stream.take position).filterMap Stamped.endId?

namespace Paired

variable {stream history : List (Stamped θ)} {stamped : Stamped θ} {eventId : EventId}

/-- Before an end event, its begin event has occurred and has not ended. -/
theorem begun_concat (paired : Paired construct stream) (extended : history ++ [stamped] <+: stream)
    (ends : stamped.endId? = some eventId)
    : eventId ∈ history.filterMap Stamped.beginId?
      ∧ eventId ∉ history.filterMap Stamped.endId? := by
  obtain ⟨rest, rfl⟩ := extended
  have here := paired.begun history.length (by simp) eventId (by simp [ends])
  rwa [List.append_assoc, List.take_left] at here

/-- The id of an end event is that of a begin event, so it is valid. -/
theorem endId_ne_invalid (paired : Paired construct stream)
    (extended : history ++ [stamped] <+: stream) (ends : stamped.endId? = some eventId)
    : eventId ≠ invalidEventId := by
  rintro rfl
  have begun := (paired.begun_concat extended ends).1
  have earlier : history <+: stream := (List.prefix_append ..).trans extended
  exact paired.valid ((earlier.sublist.filterMap Stamped.beginId?).subset begun)

/-- No end event precedes the begin event with its id, since begin ids are distinct. -/
theorem not_ended_before (paired : Paired construct stream)
    (extended : history ++ [stamped] <+: stream) (begins : stamped.beginId? = some eventId)
    : eventId ∉ history.filterMap Stamped.endId? := by
  intro ended
  obtain ⟨ending, member, ends⟩ := List.mem_filterMap.mp ended
  obtain ⟨before, after, rfl⟩ := List.append_of_mem member
  have early : before ++ [ending] <+: stream := by
    refine List.IsPrefix.trans ?_ extended
    exact ⟨after ++ [stamped], by simp⟩
  have begun := (paired.begun_concat early ends).1
  have distinct := (extended.sublist.filterMap Stamped.beginId?).nodup paired.distinct
  rw [List.filterMap_append, List.nodup_append] at distinct
  refine distinct.2.2 eventId ?_ eventId (by simp [begins]) rfl
  rw [List.filterMap_append]
  exact List.mem_append_left _ begun

/-- The first part of a paired stream is paired. -/
theorem of_earlier (paired : Paired construct stream) (earlier : history <+: stream)
    : Paired construct history where
  ofPair := fun stamped member => paired.ofPair stamped (earlier.mem member)
  distinct := (earlier.sublist.filterMap Stamped.beginId?).nodup paired.distinct
  valid := fun member =>
    paired.valid ((earlier.sublist.filterMap Stamped.beginId?).subset member)
  begun := by
    obtain ⟨rest, rfl⟩ := earlier
    intro position bound eventId ends
    have within := paired.begun position (by simp; omega) eventId
      (by rwa [List.getElem?_append_left bound])
    rwa [List.take_append_of_le_length (Nat.le_of_lt bound)] at within

end Paired

section

variable [Matcher M]

/-- The id of a begin event on the execution space that the matcher accepts. -/
def matchedBegin? (matcher : M) (exec : ExecutionSpace) (stamped : Stamped θ) : Option EventId :=
  if stamped.event.devId? == some exec.deviceId && Matcher.accepts matcher stamped.event then
    stamped.beginId?
  else
    none

/-- The position of the first begin event that matches. -/
def firstBegin (matcher : M) (exec : ExecutionSpace) (stream : List (Stamped θ)) : Option ℕ :=
  stream.findIdx? (fun stamped => (matchedBegin? matcher exec stamped).isSome)

/-- The position of the end event that carries the id of the first begin event that matches. -/
def correspondingEnd (matcher : M) (exec : ExecutionSpace) (stream : List (Stamped θ))
    : Option ℕ :=
  (stream.findSome? (matchedBegin? matcher exec)).bind
    (fun eventId => stream.findIdx? (fun stamped => stamped.endId? == some eventId))

/-- The span that the listener times: it ends at the end event with the id of the begin event
that opened it, or at another begin event that matches.
-/
def beginEndDetector (matcher : M) (exec : ExecutionSpace) : SpanDetector (Stamped θ) EventId where
  opens := matchedBegin? matcher exec
  within := fun stamped eventId =>
    if (matchedBegin? matcher exec stamped).isSome || stamped.endId? == some eventId then none
    else some eventId

/-- The state of a begin-end matcher that follows a span. -/
def followsBeginEnd (matcher : M) (exec : ExecutionSpace) (span : Span EventId)
    (self : BeginEndMatcher construct M)
    : Prop :=
  self.matcher = { first := { exec := exec }, second := matcher }
  ∧ match span with
    | .waiting => self.matcherEnd.eventId = invalidEventId
    | .inside eventId => self.matcherEnd.eventId = eventId
    | .closed => True

/-- The calls expected of a listener on a stream: `start` exactly at the first begin event
that matches, and `stop` exactly at the end event with its id.
-/
def expectedCalls (matcher : M) (exec : ExecutionSpace) (stream : List (Stamped θ))
    : List (List TimerCall) :=
  (List.range stream.length).map
    (fun position =>
      (if firstBegin matcher exec stream = some position then [.start] else [])
      ++ (if correspondingEnd matcher exec stream = some position then [.stop] else []))

/-- A listener makes the expected calls in each state of its run over a stream, and is closed
exactly from the end event of the first begin event that matches.
-/
def TimesFirst [TimerType θ T] (matcher : M) (exec : ExecutionSpace) (stream : List (Stamped θ))
    (listener : BeginEndTimerListener construct M T)
    : Prop :=
  ∀ history,
    history <+: stream
    → ∃ final report,
        runSteps TimerListener.receive history listener = some (final, report)
        ∧ report = expectedCalls matcher exec history
        ∧ final.closed = (correspondingEnd matcher exec history).isSome

/-- No begin event matches after the first one that does and before its end event. -/
def NoOverlap (matcher : M) (exec : ExecutionSpace) (stream : List (Stamped θ)) : Prop :=
  ∀ history stamped,
    history ++ [stamped] <+: stream
    → (matchedBegin? matcher exec stamped).isSome = true
    → (firstBegin matcher exec history).isSome = true
    → (correspondingEnd matcher exec history).isSome = true

end

end KokkosUtils.Callbacks
