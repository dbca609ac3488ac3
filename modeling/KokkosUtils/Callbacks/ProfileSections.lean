import KokkosUtils.Callbacks.Matchers
import KokkosUtils.Foundations.Histories

/-! EventInProfileSectionMatcher on events of any types.
It follows the toggles, the start and stop events, that carry the id it watches: the invalid id
until a create event is selected, and from then on the id of that event.
-/

namespace KokkosUtils.Callbacks

open KokkosUtils.Foundations

variable {ν M : Type}

/-- `EventInProfileSectionMatcher::invalid_section_id`, the largest section id. -/
def invalidSectionId : SectionId := 0xFFFFFFFF

/-- `EventInProfileSectionMatcher`. -/
structure EventInProfileSectionMatcher (M : Type) where
  matcher : M
  sectionId : SectionId := invalidSectionId
  recording : Bool := false

/-- `operator()` for create, start and stop events, and the template for all others. A result
`none` stands for `Kokkos::abort`.
-/
def EventInProfileSectionMatcher.call [Matcher M] (event : Event ν)
    (self : EventInProfileSectionMatcher M)
    : Option (Bool × EventInProfileSectionMatcher M) :=
  match event with
  | .kokkos (.createProfileSectionEvent name sectionId) =>
      let (matched, matcher) :=
        Matcher.call (.createProfileSectionEvent name sectionId) self.matcher
      if matched then
        if self.sectionId ≠ invalidSectionId then
          none
        else
          some (false, { self with matcher := matcher, sectionId := sectionId })
      else
        some (false, { self with matcher := matcher })
  | .kokkos (.profileSectionManipulationEvent .start sectionId) =>
      some (false, if sectionId = self.sectionId then { self with recording := true } else self)
  | .kokkos (.profileSectionManipulationEvent .stop sectionId) =>
      some (false, if sectionId = self.sectionId then { self with recording := false } else self)
  | _ => some (self.recording, self)

-----------------------------------------------------------------------------------------
-- Events of sections
-----------------------------------------------------------------------------------------

/-- The id that a create event carries. -/
def Event.createdId? : Event ν → Option SectionId
  | .kokkos (.createProfileSectionEvent _ sectionId) => some sectionId
  | _ => none

/-- The id that a start, stop or destroy event carries. -/
def Event.manipulatedId? : Event ν → Option SectionId
  | .kokkos (.profileSectionManipulationEvent _ sectionId) => some sectionId
  | _ => none

/-- Whether an event starts the section of an id or stops it. -/
def Event.toggle? (sectionId : SectionId) : Event ν → Option Bool
  | .kokkos (.profileSectionManipulationEvent .start other) =>
      if other = sectionId then some true else none
  | .kokkos (.profileSectionManipulationEvent .stop other) =>
      if other = sectionId then some false else none
  | _ => none

/-- Create, start and stop events, which have their own `operator()`. -/
def Event.steersSection : Event ν → Bool
  | .kokkos (.createProfileSectionEvent ..) => true
  | .kokkos (.profileSectionManipulationEvent .start _) => true
  | .kokkos (.profileSectionManipulationEvent .stop _) => true
  | _ => false

section

variable [Matcher M]

/-- The inner matcher on its own: it sees the create events and selects some of them. -/
def sectionSelector (ν : Type) (matcher : M) : Acceptor (Event ν) M where
  start := matcher
  step
    | .kokkos (.createProfileSectionEvent name sectionId) =>
        Matcher.call (.createProfileSectionEvent name sectionId)
    | _ => fun inner => (false, inner)

/-- A call as a step of a run that reports the verdict. -/
def EventInProfileSectionMatcher.receive (event : Event ν) (self : EventInProfileSectionMatcher M)
    : Option (EventInProfileSectionMatcher M × List Bool) :=
  (self.call event).map (fun (verdict, next) => (next, [verdict]))

/-- The verdict of a newly constructed matcher on an event after others, if it has not aborted. -/
def sectionVerdict? (matcher : M) (history : List (Event ν)) (event : Event ν) : Option Bool :=
  (runSteps EventInProfileSectionMatcher.receive history { matcher := matcher }).bind
    (fun (self, _) => (self.call event).map Prod.fst)

end

-----------------------------------------------------------------------------------------
-- Stretches of a stream
-----------------------------------------------------------------------------------------

variable [Matcher M] {matcher : M} {self : EventInProfileSectionMatcher M} {event : Event ν}
  {stretch before rest : List (Event ν)} {creating : Event ν} {sectionId : SectionId}

/-- The inner matcher selects nothing in a stretch of events. -/
def Unselected (inner : M) (stretch : List (Event ν)) : Prop :=
  ∀ {history event},
    history ++ [event] <+: stretch → (sectionSelector ν inner).verdict history event = false

/-- A matcher at the end of a stretch in which nothing is selected. -/
def EventInProfileSectionMatcher.afterUnselected (self : EventInProfileSectionMatcher M)
    (stretch : List (Event ν))
    : EventInProfileSectionMatcher M where
  matcher := (sectionSelector ν self.matcher).after stretch
  sectionId := self.sectionId
  recording := (latest (Event.toggle? self.sectionId) stretch).getD self.recording

/-- A call for an event that is not selected, by cases on the event. -/
theorem EventInProfileSectionMatcher.call_of_unselected
    (unselected : ((sectionSelector ν matcher).step event self.matcher).1 = false)
    : self.call event
      = some
          (
            !event.steersSection && self.recording,
            {
              matcher := ((sectionSelector ν matcher).step event self.matcher).2
              sectionId := self.sectionId
              recording := (event.toggle? self.sectionId).getD self.recording
            }
          ) := by
  cases event with
  | custom type value => rfl
  | kokkos event =>
      cases event with
      | createProfileSectionEvent name sectionId =>
          have notMatched
              : (Matcher.call (.createProfileSectionEvent name sectionId) self.matcher).1
                = false := unselected
          simp [call, notMatched, Event.steersSection, Event.toggle?, sectionSelector]
      | profileSectionManipulationEvent operation sectionId =>
          cases operation with
          | destroy => rfl
          | _ =>
              by_cases same : sectionId = self.sectionId <;>
                simp [call, Event.steersSection, Event.toggle?, sectionSelector, same]
      | _ => rfl

/-- A call for a create event that is selected, the first one. -/
theorem EventInProfileSectionMatcher.call_of_selected (self : EventInProfileSectionMatcher M)
    (selected : ((sectionSelector ν matcher).step event self.matcher).1 = true)
    (created : event.createdId? = some sectionId) (first : self.sectionId = invalidSectionId)
    : self.call event
      = some
          (
            false,
            {
              self with
              matcher := ((sectionSelector ν matcher).step event self.matcher).2
              sectionId := sectionId
            }
          ) := by
  cases event with
  | custom type value => cases created
  | kokkos event =>
      cases event with
      | createProfileSectionEvent name own =>
          obtain rfl := Option.some.inj created
          have matched
              : (Matcher.call (.createProfileSectionEvent name own) self.matcher).1 = true :=
            selected
          simp [call, matched, first, sectionSelector]
      | _ => cases created

/-- One more event of a stretch in which nothing is selected. -/
theorem EventInProfileSectionMatcher.call_afterUnselected
    (unselected : (sectionSelector ν self.matcher).verdict stretch event = false)
    : (self.afterUnselected stretch).call event
      = some
          (
            !event.steersSection && (self.afterUnselected stretch).recording,
            self.afterUnselected (stretch ++ [event])
          ) := by
  have notSelected
      : ((sectionSelector ν self.matcher).step event (self.afterUnselected stretch).matcher).1
        = false := unselected
  rw [call_of_unselected notSelected]
  simp only [afterUnselected, Acceptor.after_concat, latest_concat]
  cases event.toggle? self.sectionId <;> rfl

/-- A stretch in which nothing is selected runs to its end: induction on the stretch from there.
-/
theorem EventInProfileSectionMatcher.run_unselected (self : EventInProfileSectionMatcher M)
    (unselected : Unselected self.matcher stretch)
    : ∃ report,
        runSteps receive stretch self = some (self.afterUnselected stretch, report) := by
  induction stretch using List.reverseRecOn with
  | nil => exact ⟨[], rfl⟩
  | append_singleton history event ih =>
      obtain ⟨report, ran⟩ :=
        ih fun extended => unselected (extended.trans (List.prefix_append ..))
      have called := call_afterUnselected (unselected List.prefix_rfl)
      exact ⟨_, runSteps_concat ran (congrArg (Option.map _) called)⟩

/-- The verdict is that of the state in which the events before leave the matcher. -/
theorem sectionVerdict?_of_run {history : List (Event ν)} {report : List Bool}
    (ran
      : runSteps EventInProfileSectionMatcher.receive history { matcher := matcher }
        = some (self, report))
    : sectionVerdict? matcher history event = (self.call event).map Prod.fst := by
  rw [sectionVerdict?, ran]
  rfl

/-- The only event of a stream that is selected, with the id it carries. -/
structure SelectedOnly (matcher : M) (before : List (Event ν)) (creating : Event ν)
    (rest : List (Event ν)) (sectionId : SectionId)
    : Prop where
  created : creating.createdId? = some sectionId
  selected
    : ∀ {history event},
        history ++ [event] <+: before ++ creating :: rest
        → ((sectionSelector ν matcher).verdict history event = true ↔ history = before)

/-- Nothing is selected before the only event that is. -/
theorem SelectedOnly.unselected_before
    (only : SelectedOnly matcher before creating rest sectionId)
    : Unselected matcher before := by
  intro history event extended
  have inside : history ++ [event] <+: before ++ creating :: rest :=
    extended.trans (List.prefix_append ..)
  rw [Bool.eq_false_iff]
  intro selected
  have length := extended.length_le
  rw [(only.selected inside).mp selected, List.length_append, List.length_singleton] at length
  omega

theorem SelectedOnly.selected_here
    (only : SelectedOnly matcher before creating rest sectionId)
    : (sectionSelector ν matcher).verdict before creating = true := by
  refine (only.selected ?_).mpr rfl
  exact ⟨rest, by simp⟩

/-- Nothing is selected after the only event that is. -/
theorem SelectedOnly.unselected_after
    (only : SelectedOnly matcher before creating rest sectionId)
    : Unselected ((sectionSelector ν matcher).after (before ++ [creating])) rest := by
  intro history event extended
  have inside : before ++ creating :: history ++ [event] <+: before ++ creating :: rest := by
    rw [List.append_assoc, List.cons_append]
    exact (List.prefix_append_right_inj before).mpr (List.cons_prefix_cons.mpr ⟨rfl, extended⟩)
  have resumed := (sectionSelector ν matcher).verdict_append (before ++ [creating]) history event
  rw [← List.append_cons] at resumed
  rw [Bool.eq_false_iff]
  intro selected
  have length := congrArg List.length ((only.selected inside).mp (resumed.trans selected))
  rw [List.length_append, List.length_cons] at length
  omega

/-- The call for the event that is selected changes the id. -/
theorem SelectedOnly.call_creating
    (only : SelectedOnly matcher before creating rest sectionId)
    : (EventInProfileSectionMatcher.afterUnselected { matcher := matcher } before).call creating
      = some
          (
            false,
            {
              matcher := (sectionSelector ν matcher).after (before ++ [creating])
              sectionId := sectionId
              recording := (latest (Event.toggle? invalidSectionId) before).getD false
            }
          ) := by
  rw [Acceptor.after_concat]
  exact EventInProfileSectionMatcher.call_of_selected _ only.selected_here only.created rfl

/-- The run up to and including the event that is selected. -/
theorem SelectedOnly.run_creating
    (only : SelectedOnly matcher before creating rest sectionId)
    : ∃ report,
        runSteps EventInProfileSectionMatcher.receive (before ++ [creating]) { matcher := matcher }
        = some
            (
              {
                matcher := (sectionSelector ν matcher).after (before ++ [creating])
                sectionId := sectionId
                recording := (latest (Event.toggle? invalidSectionId) before).getD false
              },
              report
            ) := by
  obtain ⟨report, ran⟩ :=
    EventInProfileSectionMatcher.run_unselected { matcher := matcher } only.unselected_before
  exact ⟨_, runSteps_concat ran (congrArg (Option.map _) only.call_creating)⟩

/-- Nothing is matched before the event that is selected but events after a toggle of the
invalid id.
-/
theorem verdict_of_unselected (unselected : Unselected matcher (before ++ [event]))
    : sectionVerdict? matcher before event
      = some
          (!event.steersSection
            && (latest (Event.toggle? invalidSectionId) before).getD false) := by
  obtain ⟨report, ran⟩ :=
    EventInProfileSectionMatcher.run_unselected { matcher := matcher }
      fun extended => unselected (extended.trans (List.prefix_append ..))
  rw [sectionVerdict?_of_run ran,
    EventInProfileSectionMatcher.call_afterUnselected (unselected List.prefix_rfl)]
  rfl

/-- After the event that is selected its id is watched: the latest toggle is one of that id, or
if there is none one of the invalid id before.
-/
theorem SelectedOnly.verdict_after
    (only : SelectedOnly matcher before creating rest sectionId) {history : List (Event ν)}
    (extended : history ++ [event] <+: rest)
    : sectionVerdict? matcher (before ++ creating :: history) event
      = some
          (!event.steersSection
            && ((latest (Event.toggle? sectionId) history).or
                (latest (Event.toggle? invalidSectionId) before)).getD false) := by
  obtain ⟨first, ranFirst⟩ := only.run_creating
  obtain ⟨later, ranLater⟩ :=
    EventInProfileSectionMatcher.run_unselected
      {
        matcher := (sectionSelector ν matcher).after (before ++ [creating])
        sectionId := sectionId
        recording := (latest (Event.toggle? invalidSectionId) before).getD false
      }
      fun inside =>
        only.unselected_after (inside.trans ((List.prefix_append ..).trans extended))
  have ran := runSteps_append_eq_some.mpr ⟨_, _, _, ranFirst, ranLater, rfl⟩
  rw [← List.append_cons] at ran
  rw [sectionVerdict?_of_run ran,
    EventInProfileSectionMatcher.call_afterUnselected (only.unselected_after extended)]
  simp only [EventInProfileSectionMatcher.afterUnselected, Option.map_some]
  cases latest (Event.toggle? sectionId) history <;> rfl

/-- The event that is selected is not matched itself. -/
theorem SelectedOnly.verdict_creating
    (only : SelectedOnly matcher before creating rest sectionId)
    : sectionVerdict? matcher before creating = some false := by
  obtain ⟨report, ran⟩ :=
    EventInProfileSectionMatcher.run_unselected { matcher := matcher } only.unselected_before
  rw [sectionVerdict?_of_run ran, only.call_creating]
  rfl

-----------------------------------------------------------------------------------------
-- Streams of sections
-----------------------------------------------------------------------------------------

/-- The id of a create event that a matcher accepts. -/
def selectedId? (matcher : M) (event : Event ν) : Option SectionId :=
  if event.acceptedBy matcher then event.createdId? else none

/-- A stream whose created ids are distinct and valid, with at most one create event that a
matcher accepts, and whose start, stop and destroy events follow the create event of their id.
-/
structure SectionStream (matcher : M) (stream : List (Event ν)) : Prop where
  distinct : (stream.filterMap Event.createdId?).Nodup
  valid : invalidSectionId ∉ stream.filterMap Event.createdId?
  once : (stream.filterMap (selectedId? matcher)).length ≤ 1
  created
    : ∀ position < stream.length,
        ∀ sectionId ∈ stream[position]?.bind Event.manipulatedId?,
          sectionId ∈ (stream.take position).filterMap Event.createdId?

theorem manipulatedId?_of_toggle? {started : Bool}
    (toggles : event.toggle? sectionId = some started)
    : event.manipulatedId? = some sectionId := by
  cases event with
  | custom type value => cases toggles
  | kokkos event =>
      cases event with
      | profileSectionManipulationEvent operation other =>
          cases operation with
          | destroy => cases toggles
          | _ =>
              simp only [Event.toggle?, Option.ite_none_right_eq_some] at toggles
              exact congrArg some toggles.1
      | _ => cases toggles

theorem createdId?_of_selectedId? (selected : selectedId? matcher event = some sectionId)
    : event.createdId? = some sectionId := by
  unfold selectedId? at selected
  split at selected
  · exact selected
  · cases selected

/-- Nothing toggles an id that has not been created. -/
theorem SectionStream.latest_toggle_eq_none {stream history : List (Event ν)}
    (sections : SectionStream matcher stream) (earlier : history <+: stream)
    (absent : sectionId ∉ history.filterMap Event.createdId?)
    : latest (Event.toggle? sectionId) history = none := by
  rw [latest_eq_none]
  intro event member
  rw [Option.eq_none_iff_forall_ne_some]
  intro started toggles
  obtain ⟨before, after, rfl⟩ := List.append_of_mem member
  obtain ⟨later, rfl⟩ := earlier
  have present :=
    sections.created before.length (by simp) sectionId
      (by simp [manipulatedId?_of_toggle? toggles])
  rw [List.append_assoc, List.take_left] at present
  exact absent (((List.prefix_append ..).sublist.filterMap _).subset present)

theorem toggle?_of_createdId? (created : event.createdId? = some sectionId) (watched : SectionId)
    : event.toggle? watched = none := by
  cases event with
  | custom type value => rfl
  | kokkos event =>
      cases event with
      | profileSectionManipulationEvent operation other => cases created
      | _ => rfl

/-- An id is toggled after its create event only, since created ids are distinct. -/
theorem SectionStream.latest_toggle_since {stream middle : List (Event ν)}
    (sections : SectionStream matcher stream) (earlier : before ++ creating :: middle <+: stream)
    (created : creating.createdId? = some sectionId)
    : latest (Event.toggle? sectionId) (before ++ creating :: middle)
      = latest (Event.toggle? sectionId) middle := by
  have distinct := (earlier.sublist.filterMap Event.createdId?).nodup sections.distinct
  rw [List.filterMap_append, List.filterMap_cons_some created, List.nodup_middle,
    List.nodup_cons, List.mem_append, not_or] at distinct
  have notBefore :=
    sections.latest_toggle_eq_none ((List.prefix_append ..).trans earlier) distinct.1.1
  rw [List.append_cons, latest_append, latest_concat, notBefore, toggle?_of_createdId? created]
  cases latest (Event.toggle? sectionId) middle <;> rfl

section

variable {N : Type} [StatelessMatcher N] {selector : N} {stream history : List (Event ν)}

theorem sectionSelector_step (selector : N) (event : Event ν)
    : (sectionSelector ν selector).step event selector
      = ((selectedId? selector event).isSome, selector) := by
  cases event with
  | custom type value => rfl
  | kokkos event =>
      cases event with
      | createProfileSectionEvent name sectionId =>
          refine (StatelessMatcher.call_eq _ selector).trans ?_
          cases accepted : Matcher.accepts selector (.createProfileSectionEvent name sectionId) <;>
            simp [selectedId?, Event.acceptedBy, Event.createdId?, accepted]
      | _ => simp [sectionSelector, selectedId?, Event.createdId?]

theorem sectionSelector_after (selector : N) (history : List (Event ν))
    : (sectionSelector ν selector).after history = selector := by
  induction history using List.reverseRecOn with
  | nil => rfl
  | append_singleton history event ih => rw [Acceptor.after_concat, ih, sectionSelector_step]

/-- A matcher without state selects the create events that it accepts. -/
theorem sectionSelector_verdict (selector : N) (history : List (Event ν)) (event : Event ν)
    : (sectionSelector ν selector).verdict history event = (selectedId? selector event).isSome := by
  rw [Acceptor.verdict, sectionSelector_after, sectionSelector_step]

/-- Where no event is accepted, none is selected. -/
theorem unselected_of_selectedId?
    (none? : ∀ event ∈ stretch, selectedId? selector event = none)
    : Unselected selector stretch := by
  intro history event extended
  have member : event ∈ stretch := extended.subset (by simp)
  rw [sectionSelector_verdict, none? event member, Option.isSome_none]

/-- The create event that is accepted is the only one that is selected. -/
theorem selectedOnly_of_selectedId?
    (selected : selectedId? selector creating = some sectionId)
    (others : ∀ other ∈ before ++ rest, selectedId? selector other = none)
    : SelectedOnly selector before creating rest sectionId where
  created := createdId?_of_selectedId? selected
  selected := by
    rintro history event ⟨later, split⟩
    rw [sectionSelector_verdict]
    rw [List.append_assoc, List.singleton_append, List.append_eq_append_iff] at split
    rcases split with ⟨between, rfl, split⟩ | ⟨between, rfl, split⟩
    · rcases between with _ | ⟨first, between⟩
      · obtain ⟨rfl, -⟩ := List.cons.inj split
        simp [selected]
      · obtain ⟨rfl, -⟩ := List.cons.inj split
        simp [others]
    · rcases between with _ | ⟨first, between⟩
      · obtain ⟨rfl, -⟩ := List.cons.inj split
        simp [selected]
      · obtain ⟨rfl, rfl⟩ := List.cons.inj split
        simp [others]

theorem SectionStream.latest_invalid (sections : SectionStream selector stream)
    (earlier : history <+: stream)
    : latest (Event.toggle? invalidSectionId) history = none :=
  sections.latest_toggle_eq_none earlier fun member =>
    sections.valid ((earlier.sublist.filterMap _).subset member)

/-- While no section has been selected, nothing is matched: the event is the one that is
selected, or still none is.
-/
theorem SectionStream.verdict_waiting (sections : SectionStream selector stream)
    (extended : history ++ [event] <+: stream)
    (waiting : history.filterMap (selectedId? selector) = [])
    : sectionVerdict? selector history event = some false := by
  have none? := List.filterMap_eq_nil_iff.mp waiting
  cases here : selectedId? selector event with
  | some sectionId =>
      have only : SelectedOnly selector history event [] sectionId :=
        selectedOnly_of_selectedId? here (by simpa using none?)
      exact only.verdict_creating
  | none =>
      have unselected : Unselected selector (history ++ [event]) :=
        unselected_of_selectedId? (by simpa [or_imp, forall_and, here] using none?)
      rw [verdict_of_unselected unselected,
        sections.latest_invalid ((List.prefix_append ..).trans extended)]
      simp

/-- Once a section has been selected, the events that do not steer sections are matched while
the latest toggle of its id is a start event.
-/
theorem SectionStream.verdict_selected {others : List SectionId}
    (sections : SectionStream selector stream) (extended : history ++ [event] <+: stream)
    (chosen : history.filterMap (selectedId? selector) = sectionId :: others)
    : others = []
      ∧ sectionVerdict? selector history event
        = some
            (!event.steersSection && (latest (Event.toggle? sectionId) history).getD false) := by
  have most :=
    ((extended.sublist.filterMap (selectedId? selector)).length_le).trans sections.once
  obtain ⟨before, creating, middle, rfl, none?, selected, later⟩ :=
    List.filterMap_eq_cons_iff.mp chosen
  rw [List.filterMap_append, chosen, List.length_append, List.length_cons] at most
  have single : others = [] := List.eq_nil_of_length_eq_zero (by omega)
  have notHere : [event].filterMap (selectedId? selector) = [] :=
    List.eq_nil_of_length_eq_zero (by omega)
  have noLater : (middle ++ [event]).filterMap (selectedId? selector) = [] := by
    rw [List.filterMap_append, later, single, notHere, List.append_nil]
  have only : SelectedOnly selector before creating (middle ++ [event]) sectionId := by
    refine selectedOnly_of_selectedId? selected fun other member => ?_
    rcases List.mem_append.mp member with member | member
    · exact none? other member
    · exact List.filterMap_eq_nil_iff.mp noLater other member
  have earlier : before ++ creating :: middle <+: stream :=
    (List.prefix_append ..).trans extended
  refine ⟨single, ?_⟩
  rw [only.verdict_after List.prefix_rfl,
    sections.latest_toggle_since earlier (createdId?_of_selectedId? selected),
    sections.latest_invalid ((List.prefix_append ..).trans earlier), Option.or_none]

/-- EventInProfileSectionMatcher never aborts on a stream of sections: it matches the events,
other than create, start and stop events, at which the accepted section has been created and
was last started.
-/
theorem eventInProfileSectionMatcher_selects (selector : N) (stream : List (Event ν))
    (sections : SectionStream selector stream) (history : List (Event ν)) (event : Event ν)
    (extended : history ++ [event] <+: stream)
    : ∃ verdict,
        sectionVerdict? selector history event = some verdict
        ∧ (event.steersSection = true → verdict = false)
        ∧ (event.steersSection = false
            → (verdict = true
                ↔ ∃ sectionId ∈ history.filterMap (selectedId? selector),
                    latest (Event.toggle? sectionId) history = some true)) := by
  cases chosen : history.filterMap (selectedId? selector) with
  | nil => exact ⟨false, sections.verdict_waiting extended chosen, fun _ => rfl, by simp⟩
  | cons sectionId others =>
      obtain ⟨rfl, verdict⟩ := sections.verdict_selected extended chosen
      refine ⟨_, verdict, fun steers => by simp [steers], fun other => ?_⟩
      rw [other]
      cases toggled : latest (Event.toggle? sectionId) history <;> simp [toggled]

end

/-- Two sections that are created, started and stopped in turn, and other events. -/
def interleavedSections : List (Event Unit) :=
  [
    .kokkos (.createProfileSectionEvent "other" 1),
    .kokkos (.profileSectionManipulationEvent .start 1),
    .kokkos (.createProfileSectionEvent "section" 2),
    .kokkos (.profileSectionManipulationEvent .start 2),
    .kokkos (.profileSectionManipulationEvent .stop 1),
    .custom "user" ()
  ]

theorem eventInProfileSectionMatcher_selects_interleaved
    : sectionVerdict? ({ name := "section" } : EventNameMatcher) (interleavedSections.take 5)
        (.custom "user" ())
      = some true := by
  have created
      : ∀ position < interleavedSections.length,
          (interleavedSections[position]?.bind Event.manipulatedId?).all
            (fun sectionId =>
              sectionId ∈ (interleavedSections.take position).filterMap Event.createdId?)
          = true := by decide
  have sections : SectionStream ({ name := "section" } : EventNameMatcher) interleavedSections := by
    refine ⟨by decide, by decide, by decide, fun position bound sectionId manipulated => ?_⟩
    exact of_decide_eq_true
      ((Option.all_eq_true _ _).mp (created position bound) sectionId manipulated)
  obtain ⟨verdict, seen, -, selects⟩ :=
    eventInProfileSectionMatcher_selects _ _ sections (interleavedSections.take 5)
      (.custom "user" ()) List.prefix_rfl
  rw [seen, (selects rfl).mpr (by decide)]

-----------------------------------------------------------------------------------------
-- Destroyed sections
-----------------------------------------------------------------------------------------

/-- None of the events that come later in a stream is matched. -/
def NeverMatched (matcher : M) (earlier later : List (Event ν)) : Prop :=
  ∀ history event,
    history ++ [event] <+: later
    → sectionVerdict? matcher (earlier ++ history) event = some false

/-- At the later events of a stream that do not steer sections, the latest toggle of the watched
id is no start event. That id is the invalid one before a section is selected.
-/
def NeverLastStarted (sectionId : SectionId) (before since later : List (Event ν)) : Prop :=
  ∀ history event,
    history ++ [event] <+: later
    → event.steersSection = false
    → (latest (Event.toggle? sectionId) (since ++ history)).or
        (latest (Event.toggle? invalidSectionId) before)
      ≠ some true

/-- The event that destroys the section of an id. -/
def destroySection (ν : Type) (sectionId : SectionId) : Event ν :=
  .kokkos (.profileSectionManipulationEvent .destroy sectionId)

/-- Nothing is matched after the selected section has been destroyed exactly when, at the later
events that do not steer sections, it was not last started: the destroy event changes nothing.
-/
theorem eventInProfileSectionMatcher_over_iff (matcher : M) (before : List (Event ν))
    (creating : Event ν) (middle later : List (Event ν)) (sectionId : SectionId)
    (only
      : SelectedOnly matcher before creating (middle ++ [destroySection ν sectionId] ++ later)
          sectionId)
    : NeverMatched matcher (before ++ creating :: (middle ++ [destroySection ν sectionId])) later
      ↔ NeverLastStarted sectionId before (middle ++ [destroySection ν sectionId]) later := by
  refine forall₃_congr fun history event extended => ?_
  have inside
      : middle ++ [destroySection ν sectionId] ++ history ++ [event]
        <+: middle ++ [destroySection ν sectionId] ++ later := by
    rw [List.append_assoc _ history]
    exact (List.prefix_append_right_inj _).mpr extended
  rw [List.append_assoc before, List.cons_append, only.verdict_after inside]
  cases event.steersSection with
  | true => simp
  | false =>
      cases (latest (Event.toggle? sectionId)
          (middle ++ [destroySection ν sectionId] ++ history)).or
          (latest (Event.toggle? invalidSectionId) before) with
      | none => simp
      | some started => simp

/-- A section that is created and started. -/
def startedSection : List (Event Unit) :=
  [
    .kokkos (.createProfileSectionEvent "section" 2),
    .kokkos (.profileSectionManipulationEvent .start 2)
  ]

theorem selectedOnly_startedSection
    : SelectedOnly ({ name := "section" } : EventNameMatcher) []
        (.kokkos (.createProfileSectionEvent "section" 2))
        (startedSection.tail ++ [destroySection Unit 2] ++ [.kokkos .popRegionEvent]) 2 :=
  selectedOnly_of_selectedId? (by decide)
    (by simp [startedSection, destroySection, selectedId?, Event.createdId?])

theorem eventInProfileSectionMatcher_over_iff_started
    : NeverMatched ({ name := "section" } : EventNameMatcher)
        (startedSection ++ [destroySection Unit 2]) [.kokkos .popRegionEvent]
      ↔ NeverLastStarted 2 [] (startedSection.tail ++ [destroySection Unit 2])
          [.kokkos .popRegionEvent] :=
  eventInProfileSectionMatcher_over_iff _ _ _ _ _ _ selectedOnly_startedSection

/-- An event after a section that was not stopped before it was destroyed is matched. -/
theorem startedSection_not_over
    : SelectedOnly ({ name := "section" } : EventNameMatcher) []
        (.kokkos (.createProfileSectionEvent "section" 2))
        (startedSection.tail ++ [destroySection Unit 2] ++ [.kokkos .popRegionEvent]) 2
      ∧ ¬ NeverMatched ({ name := "section" } : EventNameMatcher)
            (startedSection ++ [destroySection Unit 2]) [.kokkos .popRegionEvent] := by
  refine ⟨selectedOnly_startedSection, fun unmatched => ?_⟩
  exact absurd (unmatched [] (.kokkos .popRegionEvent) List.prefix_rfl) (by decide)

end KokkosUtils.Callbacks
