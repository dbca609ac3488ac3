import KokkosUtils.Callbacks.BeginEndTiming

/-! EventBeginEndIdMatcher on streams of paired events.
It remembers the id of the latest begin event that matches only, so it recognises the end
events of the begin events that matched exactly when none of them matches before an earlier
one has ended.
-/

namespace KokkosUtils.Callbacks

open KokkosUtils.Foundations

variable {θ M : Type} {construct : Construct}

section

variable [Matcher M]

/-- A newly constructed EventBeginEndIdMatcher that is called with the events of a stream. -/
def EventBeginEndIdMatcher.acceptor (θ : Type) (construct : Construct) (matcher : M)
    : Acceptor (Stamped θ) (EventBeginEndIdMatcher construct M) where
  start := { matcher := matcher }
  step := fun stamped => EventBeginEndIdMatcher.call stamped.event

/-- The id of a begin event that a matcher accepts. -/
def acceptedBegin? (matcher : M) (stamped : Stamped θ) : Option EventId :=
  if Matcher.accepts matcher stamped.event then stamped.beginId? else none

/-- An end event of a stream with the begin event that has its id, and what lies around them. -/
structure PairIn (stream before : List (Stamped θ)) (opening : Stamped θ)
    (middle : List (Stamped θ)) (ending : Stamped θ) (eventId : EventId)
    : Prop where
  inside : before ++ opening :: middle ++ [ending] <+: stream
  begins : opening.beginId? = some eventId
  ends : ending.endId? = some eventId

/-- The matcher matches the end events of the begin events that it matches, and no others. -/
def RecognisesEnds (construct : Construct) (matcher : M) (stream : List (Stamped θ)) : Prop :=
  ∀ {before opening middle ending eventId},
    PairIn stream before opening middle ending eventId
    → let acceptor := EventBeginEndIdMatcher.acceptor θ construct matcher
      acceptor.verdict (before ++ opening :: middle) ending = acceptor.verdict before opening

/-- Between a begin event that the inner matcher accepts and its end event, it accepts no other
begin event.
-/
def NoAcceptedBetween (matcher : M) (stream : List (Stamped θ)) : Prop :=
  ∀ {before opening middle ending eventId},
    PairIn stream before opening middle ending eventId
    → Matcher.accepts matcher opening.event = true
    → ∀ stamped ∈ middle, acceptedBegin? matcher stamped = none

end

section

variable [StatelessMatcher M] {matcher : M} {stream before middle : List (Stamped θ)}
  {opening ending : Stamped θ} {eventId : EventId}

theorem acceptedBegin?_of_begin (begins : opening.beginId? = some eventId)
    : acceptedBegin? matcher opening
      = if Matcher.accepts matcher opening.event then some eventId else none := by
  rw [acceptedBegin?, begins]

theorem beginId?_of_acceptedBegin? (accepted : acceptedBegin? matcher opening = some eventId)
    : opening.beginId? = some eventId := by
  unfold acceptedBegin? at accepted
  split at accepted
  · exact accepted
  · cases accepted

/-- A call remembers the id of a begin event that the inner matcher accepts, and changes
nothing else.
-/
theorem EventBeginEndIdMatcher.call_snd (stamped : Stamped θ) (remembered : EventIdMatcher)
    : (EventBeginEndIdMatcher.call stamped.event
        ({ matcher := matcher, matcherEnd := remembered } :
          EventBeginEndIdMatcher construct M)).2
      = {
          matcher := matcher
          matcherEnd :=
            { eventId := (acceptedBegin? matcher stamped).getD remembered.eventId }
        } := by
  obtain ⟨moment, event⟩ := stamped
  cases event with
  | beginEvent kind name devId eventId =>
      have inert := StatelessMatcher.call_eq (.beginEvent kind name devId eventId) matcher
      cases accepted : Matcher.accepts matcher (.beginEvent kind name devId eventId) <;>
        simp [EventBeginEndIdMatcher.call, acceptedBegin?, Stamped.beginId?, inert, accepted]
  | _ => simp [EventBeginEndIdMatcher.call, acceptedBegin?, Stamped.beginId?]

/-- After any stream the id of the latest begin event that the inner matcher accepts is
remembered: induction on the stream from its end.
-/
theorem acceptor_remembers (history : List (Stamped θ))
    : (EventBeginEndIdMatcher.acceptor θ construct matcher).after history
      = {
          matcher := matcher
          matcherEnd :=
            { eventId := (latest (acceptedBegin? matcher) history).getD invalidEventId }
        } := by
  induction history using List.reverseRecOn with
  | nil => rfl
  | append_singleton history stamped ih =>
      rw [Acceptor.after_concat, ih, latest_concat]
      refine (EventBeginEndIdMatcher.call_snd stamped _).trans ?_
      cases acceptedBegin? matcher stamped <;> rfl

/-- The verdict on a begin event is that of the inner matcher. -/
theorem verdict_of_begin (begins : opening.beginId? = some eventId)
    : (EventBeginEndIdMatcher.acceptor θ construct matcher).verdict before opening
      = Matcher.accepts matcher opening.event := by
  obtain ⟨moment, event⟩ := opening
  cases event with
  | beginEvent kind name devId own =>
      rw [Acceptor.verdict, acceptor_remembers]
      change (EventBeginEndIdMatcher.call _ _).1 = _
      rw [EventBeginEndIdMatcher.call, StatelessMatcher.call_eq]
      dsimp only
      cases Matcher.accepts matcher (.beginEvent kind name devId own) <;> rfl
  | _ => cases begins

/-- The verdict on an end event tells whether its id is remembered. -/
theorem verdict_of_end {history : List (Stamped θ)} (ends : ending.endId? = some eventId)
    (valid : eventId ≠ invalidEventId)
    : (EventBeginEndIdMatcher.acceptor θ construct matcher).verdict history ending = true
      ↔ latest (acceptedBegin? matcher) history = some eventId := by
  obtain ⟨moment, event⟩ := ending
  cases event with
  | endEvent kind own =>
      obtain rfl : own = eventId := Option.some.inj ends
      have verdict
          : (EventBeginEndIdMatcher.acceptor θ construct matcher).verdict history
              { moment := moment, event := .endEvent kind own }
            = (some own
                == some ((latest (acceptedBegin? matcher) history).getD invalidEventId)) := by
        rw [Acceptor.verdict, acceptor_remembers]
        rfl
      rw [verdict]
      cases latest (acceptedBegin? matcher) history with
      | none => simpa using valid
      | some remembered =>
          simp only [Option.getD_some, beq_iff_eq, Option.some.injEq]
          exact eq_comm
  | _ => cases ends

/-- No other event of the stream before the end event is a begin event with its id. -/
theorem PairIn.begun_once (pair : PairIn stream before opening middle ending eventId)
    (paired : Paired construct stream) {stamped : Stamped θ} (other : stamped ∈ before ++ middle)
    : stamped.beginId? ≠ some eventId := by
  intro same
  have distinct := (pair.inside.sublist.filterMap Stamped.beginId?).nodup paired.distinct
  rw [List.append_assoc, List.cons_append, List.filterMap_append,
    List.filterMap_cons_some pair.begins, List.nodup_middle, List.nodup_cons] at distinct
  refine distinct.1 ?_
  rw [← List.filterMap_append, List.mem_filterMap]
  refine ⟨stamped, ?_, same⟩
  rw [← List.append_assoc]
  exact List.mem_append_left _ other

/-- The id of a pair is remembered until its end event exactly when its begin event is accepted
and no begin event in between is.
-/
theorem PairIn.remembered_iff (pair : PairIn stream before opening middle ending eventId)
    (paired : Paired construct stream)
    : latest (acceptedBegin? matcher) (before ++ opening :: middle) = some eventId
      ↔ Matcher.accepts matcher opening.event = true
        ∧ ∀ stamped ∈ middle, acceptedBegin? matcher stamped = none := by
  rw [List.append_cons, latest_append, latest_concat, acceptedBegin?_of_begin pair.begins,
    ← latest_eq_none]
  cases between : latest (acceptedBegin? matcher) middle with
  | none =>
      cases accepted : Matcher.accepts matcher opening.event with
      | true => simp
      | false =>
          have noEarlier : latest (acceptedBegin? matcher) before ≠ some eventId := by
            intro earlier
            obtain ⟨stamped, member, begun⟩ := exists_of_latest earlier
            exact pair.begun_once paired (List.mem_append_left _ member)
              (beginId?_of_acceptedBegin? begun)
          simpa using noEarlier
  | some other =>
      obtain ⟨stamped, member, begun⟩ := exists_of_latest between
      have different : other ≠ eventId := by
        rintro rfl
        exact pair.begun_once paired (List.mem_append_right _ member)
          (beginId?_of_acceptedBegin? begun)
      simpa using different

/-- A pair is recognised exactly when no begin event that is accepted comes between an accepted
begin event and its end event.
-/
theorem PairIn.recognised_iff (pair : PairIn stream before opening middle ending eventId)
    (paired : Paired construct stream)
    : (EventBeginEndIdMatcher.acceptor θ construct matcher).verdict (before ++ opening :: middle)
          ending
        = (EventBeginEndIdMatcher.acceptor θ construct matcher).verdict before opening
      ↔ (Matcher.accepts matcher opening.event = true
          → ∀ stamped ∈ middle, acceptedBegin? matcher stamped = none) := by
  have valid := paired.endId_ne_invalid pair.inside pair.ends
  rw [verdict_of_begin pair.begins, Bool.eq_iff_iff, verdict_of_end pair.ends valid,
    pair.remembered_iff paired]
  exact ⟨fun recognised accepted => (recognised.mpr accepted).2,
    fun between => ⟨And.left, fun accepted => ⟨accepted, between accepted⟩⟩⟩

/-- EventBeginEndIdMatcher pairs the events of a stream exactly when its inner matcher accepts
no begin event between one that it accepts and its end event.
-/
theorem eventBeginEndIdMatcher_recognisesEnds_iff (matcher : M) (stream : List (Stamped θ))
    (paired : Paired construct stream)
    : RecognisesEnds construct matcher stream ↔ NoAcceptedBetween matcher stream := by
  constructor
  · intro recognises before opening middle ending eventId pair
    exact (pair.recognised_iff paired).mp (recognises pair)
  · intro between before opening middle ending eventId pair
    exact (pair.recognised_iff paired).mpr (between pair)

end

theorem eventBeginEndIdMatcher_recognisesEnds_iff_overlapping
    : RecognisesEnds .parallelFor ({ name := "kernel" } : EventNameMatcher) overlappingKernels
      ↔ NoAcceptedBetween ({ name := "kernel" } : EventNameMatcher) overlappingKernels :=
  eventBeginEndIdMatcher_recognisesEnds_iff _ _ overlappingKernels_paired

/-- The end event of the first kernel is not recognised, although its begin event matched. -/
theorem overlappingKernels_not_recognised
    : Paired .parallelFor overlappingKernels
      ∧ ¬ RecognisesEnds .parallelFor ({ name := "kernel" } : EventNameMatcher)
            overlappingKernels := by
  refine ⟨overlappingKernels_paired, fun recognises => ?_⟩
  have pair
      : PairIn overlappingKernels []
          { moment := 1, event := .beginEvent .parallelFor "kernel" 7 0 }
          [{ moment := 2, event := .beginEvent .parallelFor "kernel" 7 1 }]
          { moment := 3, event := .endEvent .parallelFor 0 } 0 :=
    ⟨⟨[{ moment := 4, event := .endEvent .parallelFor 1 }], rfl⟩, rfl, rfl⟩
  exact absurd (recognises pair) (by decide)

end KokkosUtils.Callbacks
