import KokkosUtils.Foundations.OrderedContainment

/-! The matchers `ContainsInOrder` and `ElementAt` of test assertions, for containers.
A result `none` of a call is undefined behaviour: reading beyond the end of the container or
writing through the null pointer that an uninterested listener has for a stream.
-/

namespace KokkosUtils.Callbacks

open KokkosUtils.Foundations

/-- `testing::MatchResultListener`, with the text written to its stream so far. -/
structure MatchResultListener where
  stream : Option String
  deriving DecidableEq

namespace MatchResultListener

/-- The listener behind `testing::Matches` and `testing::Not`. -/
def dummy : MatchResultListener := { stream := none }

def isInterested (listener : MatchResultListener) : Bool := listener.stream.isSome

/-- `*listener->stream() << text`. -/
def write (listener : MatchResultListener) (text : String) : Option MatchResultListener :=
  listener.stream.map (fun written => { stream := some (written ++ text) })

/-- Whoever is interested can be written to. -/
theorem write_eq_some {listener : MatchResultListener} (interested : listener.isInterested = true)
    (text : String)
    : ∃ final, listener.write text = some final := by
  obtain ⟨written, streamed⟩ := Option.isSome_iff_exists.mp interested
  exact ⟨{ stream := some (written ++ text) }, by rw [write, streamed]; rfl⟩

end MatchResultListener

/-- A matcher for elements, which is pure as it should be: its verdict does not depend on who is
listening.
-/
structure ElementMatcher (α : Type*) where
  matchAndExplain : α → MatchResultListener → Bool × MatchResultListener
  describe : Bool → String
  pure
    : ∀ element first second,
        (matchAndExplain element first).1 = (matchAndExplain element second).1

variable {α : Type*}

/-- `testing::Matches`. -/
def ElementMatcher.matchesElement (matcher : ElementMatcher α) (element : α) : Bool :=
  (matcher.matchAndExplain element .dummy).1

/-- `ContainsInOrderMatcher`. -/
structure ContainsInOrderMatcher (α : Type*) where
  matchers : List (ElementMatcher α)

namespace ContainsInOrderMatcher

/-- `MatchAndExplainImpl`, where the iterator `it_first` is a position of the container. -/
def matchAndExplainImpl (self : ContainsInOrderMatcher α) (arg : List α)
    (idx : Fin self.matchers.length) (itFirst : ℕ) (listener : MatchResultListener)
    : Option (Bool × MatchResultListener) :=
  if itFirst = arg.length then
    if listener.isInterested then
      (listener.write
          ("does not contain in order an element that "
            ++ (self.matchers.get idx).describe false)).map
        (fun listener => (false, listener))
    else
      some (false, listener)
  else
    match found : arg[itFirst]? with
    | none => none
    | some element =>
        have : itFirst < arg.length := (List.getElem?_eq_some_iff.mp found).1
        if (self.matchers.get idx).matchesElement element then
          if isLast : idx = self.matchers.length - 1 then
            some (true, listener)
          else
            matchAndExplainImpl self arg ⟨idx + 1, by omega⟩ (itFirst + 1) listener
        else
          matchAndExplainImpl self arg idx (itFirst + 1) listener
  termination_by arg.length - itFirst

def matchAndExplain (self : ContainsInOrderMatcher α) (arg : List α)
    (listener : MatchResultListener)
    : Option (Bool × MatchResultListener) :=
  if isEmpty : self.matchers.length = 0 then
    some (true, listener)
  else
    self.matchAndExplainImpl arg ⟨0, Nat.pos_of_ne_zero isEmpty⟩ 0 listener

end ContainsInOrderMatcher

/-- `ElementAtMatcher`. -/
structure ElementAtMatcher (α : Type*) where
  index : ℕ
  matcher : ElementMatcher α

/-- The early return when the index is out of bounds is taken for an interested listener only. -/
def ElementAtMatcher.matchAndExplain (self : ElementAtMatcher α) (arg : List α)
    (listener : MatchResultListener)
    : Option (Bool × MatchResultListener) :=
  if self.index ≥ arg.length ∧ listener.isInterested then
    (listener.write
        ("index " ++ toString self.index ++ " is out of bounds (size " ++ toString arg.length
          ++ ")")).map
      (fun listener => (false, listener))
  else
    arg[self.index]?.map (fun element => self.matcher.matchAndExplain element listener)

namespace ContainsInOrderMatcher

variable (self : ContainsInOrderMatcher α) (arg : List α) (idx : Fin self.matchers.length)
  (listener : MatchResultListener)

/-- The matchers from an index on match some elements in order. -/
def FoundAmong (index : ℕ) (elements : List α) : Prop :=
  List.SublistForall₂ (fun matcher element => ElementMatcher.matchesElement matcher element = true)
    (self.matchers.drop index) elements

variable {self} in
/-- A match of the current matcher may be taken at once. -/
theorem foundAmong_of_match {idx : Fin self.matchers.length} {element : α} {others : List α}
    (matched : (self.matchers.get idx).matchesElement element = true)
    : self.FoundAmong idx (element :: others) ↔ self.FoundAmong (idx + 1) others := by
  rw [FoundAmong, List.drop_eq_getElem_cons idx.isLt]
  exact sublistForall₂_cons_of_related matched

variable {self} in
/-- An element that the current matcher does not match is passed by. -/
theorem foundAmong_of_no_match {idx : Fin self.matchers.length} {element : α} {others : List α}
    (unmatched : ¬ (self.matchers.get idx).matchesElement element = true)
    : self.FoundAmong idx (element :: others) ↔ self.FoundAmong idx others := by
  rw [FoundAmong, FoundAmong, List.drop_eq_getElem_cons idx.isLt]
  exact sublistForall₂_cons_of_not_related unmatched

theorem not_foundAmong_nil : ¬ self.FoundAmong idx [] := by
  rw [FoundAmong, List.drop_eq_getElem_cons idx.isLt]
  rintro ⟨⟩

theorem foundAmong_of_length_le {index : ℕ} (beyond : self.matchers.length ≤ index)
    (elements : List α)
    : self.FoundAmong index elements := by
  rw [FoundAmong, List.drop_eq_nil_of_le beyond]
  exact .nil

/-- At the end of the container a matcher is left without an element, whoever is listening. -/
theorem matchAndExplainImpl_end
    : ∃ final,
        self.matchAndExplainImpl arg idx arg.length listener = some (false, final) := by
  unfold matchAndExplainImpl
  by_cases interested : listener.isInterested = true
  · obtain ⟨final, written⟩ :=
      MatchResultListener.write_eq_some interested
        ("does not contain in order an element that " ++ (self.matchers.get idx).describe false)
    exact ⟨final, by simp only [↓reduceIte, interested, written, Option.map_some]⟩
  · exact ⟨listener, by simp only [↓reduceIte, interested, Bool.false_eq_true]⟩

/-- Before the end the call goes on with the next element, and with the next matcher if there
is a match, until the last matcher has one.
-/
theorem matchAndExplainImpl_next {element : α} {others : List α} {itFirst : ℕ}
    (remaining : arg.drop itFirst = element :: others)
    : self.matchAndExplainImpl arg idx itFirst listener
      = if (self.matchers.get idx).matchesElement element then
          if isLast : idx = self.matchers.length - 1 then
            some (true, listener)
          else
            self.matchAndExplainImpl arg ⟨idx + 1, by omega⟩ (itFirst + 1) listener
        else
          self.matchAndExplainImpl arg idx (itFirst + 1) listener := by
  have found : arg[itFirst]? = some element := by
    rw [← List.head?_drop, remaining]
    rfl
  have bound : itFirst < arg.length := (List.getElem?_eq_some_iff.mp found).1
  rw [matchAndExplainImpl, if_neg (Nat.ne_of_lt bound)]
  split
  · rename_i absent
    cases found.symm.trans absent
  · rename_i same
    cases found.symm.trans same
    rfl

/-- From any position, the matchers from the current one on are looked for among the elements
from there on: induction on these elements.
-/
theorem matchAndExplainImpl_decides {remaining : List α} {itFirst : ℕ}
    (inside : itFirst ≤ arg.length) (left : arg.drop itFirst = remaining)
    : ∃ found final,
        self.matchAndExplainImpl arg idx itFirst listener = some (found, final)
        ∧ (found = true ↔ self.FoundAmong idx remaining) := by
  induction remaining generalizing idx itFirst with
  | nil =>
      have atEnd : itFirst = arg.length := Nat.le_antisymm inside (List.drop_eq_nil_iff.mp left)
      obtain ⟨final, ended⟩ := self.matchAndExplainImpl_end arg idx listener
      refine ⟨false, final, atEnd ▸ ended, ?_⟩
      simpa using self.not_foundAmong_nil idx
  | cons element others ih =>
      have bound : itFirst + 1 ≤ arg.length := by
        have := congrArg List.length left
        rw [List.length_drop, List.length_cons] at this
        omega
      have next : arg.drop (itFirst + 1) = others := by
        rw [← List.tail_drop, left, List.tail_cons]
      rw [self.matchAndExplainImpl_next arg idx listener left]
      by_cases matched : (self.matchers.get idx).matchesElement element = true
      · rw [if_pos matched, foundAmong_of_match matched]
        by_cases isLast : (idx : ℕ) = self.matchers.length - 1
        · have noMore : self.matchers.length ≤ idx + 1 := by omega
          exact
            ⟨true, listener, dif_pos isLast,
              iff_of_true rfl (self.foundAmong_of_length_le noMore others)⟩
        · rw [dif_neg isLast]
          exact ih ⟨idx + 1, by omega⟩ bound next
      · rw [if_neg matched, foundAmong_of_no_match matched]
        exact ih idx bound next

/-- A call is defined, whoever is listening, and finds what the container contains in order. -/
theorem matchAndExplain_decides
    : ∃ found final,
        self.matchAndExplain arg listener = some (found, final)
        ∧ (found = true
            ↔ self.FoundAmong 0 arg) := by
  unfold matchAndExplain
  by_cases isEmpty : self.matchers.length = 0
  · exact
      ⟨true, listener, dif_pos isEmpty,
        iff_of_true rfl (self.foundAmong_of_length_le (Nat.le_of_eq isEmpty) arg)⟩
  · rw [dif_neg isEmpty]
    exact self.matchAndExplainImpl_decides arg ⟨0, Nat.pos_of_ne_zero isEmpty⟩ listener
      (Nat.zero_le _) rfl

/-- `ContainsInOrder` terminates and decides ordered containment: some elements at increasing
positions match the matchers one by one.
-/
theorem containsInOrder_iff_increasing_positions
    : ∃ found final,
        self.matchAndExplain arg listener = some (found, final)
        ∧ (found = true
            ↔ ∃ position : Fin self.matchers.length → Fin arg.length,
                StrictMono position
                ∧ ∀ index,
                    (self.matchers.get index).matchesElement (arg.get (position index)) = true) := by
  obtain ⟨found, final, called, decides⟩ := self.matchAndExplain_decides arg listener
  exact ⟨found, final, called, decides.trans sublistForall₂_iff_strictMono⟩

end ContainsInOrderMatcher

/-- Two calls for two listeners are defined and give the same verdict. -/
def SameVerdict (call : MatchResultListener → Option (Bool × MatchResultListener))
    (first second : MatchResultListener) (verdict : Bool)
    : Prop :=
  (∃ final, call first = some (verdict, final)) ∧ ∃ final, call second = some (verdict, final)

namespace ElementAtMatcher

variable (self : ElementAtMatcher α) (arg : List α) (listener : MatchResultListener)

/-- Within bounds a call asks the inner matcher about the element. -/
theorem matchAndExplain_inside (inside : self.index < arg.length)
    : ∃ final,
        self.matchAndExplain arg listener
        = some (self.matcher.matchesElement arg[self.index], final) := by
  have notEarly : ¬ (self.index ≥ arg.length ∧ listener.isInterested = true) :=
    fun early => Nat.not_lt.mpr early.1 inside
  refine ⟨(self.matcher.matchAndExplain arg[self.index] listener).2, ?_⟩
  rw [matchAndExplain, if_neg notEarly, List.getElem?_eq_getElem inside, Option.map_some]
  exact congrArg some (Prod.ext (self.matcher.pure ..) rfl)

/-- Out of bounds only a call for an interested listener is defined. -/
theorem matchAndExplain_outside (outside : arg.length ≤ self.index) (verdict : Bool)
    : (∃ final, self.matchAndExplain arg listener = some (verdict, final))
      ↔ listener.isInterested = true ∧ verdict = false := by
  unfold matchAndExplain
  by_cases interested : listener.isInterested = true
  · obtain ⟨final, written⟩ :=
      MatchResultListener.write_eq_some interested
        ("index " ++ toString self.index ++ " is out of bounds (size " ++ toString arg.length
          ++ ")")
    rw [if_pos ⟨outside, interested⟩, written]
    simp [interested, eq_comm]
  · rw [if_neg (fun early => interested early.2), List.getElem?_eq_none outside]
    simp [interested]

end ElementAtMatcher

/-- `ContainsInOrder` gives its verdict whoever is listening. `ElementAt` does so, and tells
whether the element at its index matches, exactly when the index is within bounds or both
listeners are interested.
-/
theorem containerMatchers_sameVerdict_iff (ordered : ContainsInOrderMatcher α)
    (element : ElementAtMatcher α) (arg : List α) (first second : MatchResultListener)
    : ((∃ verdict, SameVerdict (ordered.matchAndExplain arg) first second verdict)
        ∧ ∃ verdict,
            SameVerdict (element.matchAndExplain arg) first second verdict
            ∧ (verdict = true
                ↔ ∃ inside : element.index < arg.length,
                    element.matcher.matchesElement arg[element.index] = true))
      ↔ element.index < arg.length
        ∨ first.isInterested = true ∧ second.isInterested = true := by
  have contains : ∃ verdict, SameVerdict (ordered.matchAndExplain arg) first second verdict := by
    obtain ⟨found, final, called, decides⟩ := ordered.matchAndExplain_decides arg first
    obtain ⟨other, otherFinal, otherCalled, otherDecides⟩ :=
      ordered.matchAndExplain_decides arg second
    have same : found = other := Bool.eq_iff_iff.mpr (decides.trans otherDecides.symm)
    exact ⟨found, ⟨final, called⟩, otherFinal, same ▸ otherCalled⟩
  simp only [contains, true_and]
  by_cases inside : element.index < arg.length
  · refine iff_of_true ?_ (Or.inl inside)
    exact
      ⟨element.matcher.matchesElement arg[element.index],
        ⟨element.matchAndExplain_inside arg first inside,
          element.matchAndExplain_inside arg second inside⟩,
        by simp [inside]⟩
  · have outside : arg.length ≤ element.index := Nat.not_lt.mp inside
    simp only [SameVerdict, element.matchAndExplain_outside arg _ outside, inside, false_or,
      IsEmpty.exists_iff, iff_false]
    constructor
    · rintro ⟨verdict, ⟨⟨heard, -⟩, heardToo, -⟩, -⟩
      exact ⟨heard, heardToo⟩
    · rintro ⟨heard, heardToo⟩
      exact ⟨false, ⟨⟨heard, rfl⟩, heardToo, rfl⟩, Bool.false_ne_true⟩

/-- `testing::Eq`, which explains nothing. -/
def elementEq [BEq α] [ToString α] (value : α) : ElementMatcher α where
  matchAndExplain := fun element listener => (element == value, listener)
  describe
    | false => "is equal to " ++ toString value
    | true => "isn't equal to " ++ toString value
  pure := fun _ _ _ => rfl

/-- Beyond the end an interested listener hears why there is no match, and the one of
`testing::Not` gets no verdict at all.
-/
theorem elementAt_outOfBounds_not_sameVerdict
    : let element : ElementAtMatcher ℕ := { index := 42, matcher := elementEq 2 }
      let call := element.matchAndExplain [1, 2, 3, 4]
      let interested : MatchResultListener := { stream := some "" }
      call interested
        = some (false, { stream := some "index 42 is out of bounds (size 4)" })
      ∧ call .dummy = none
      ∧ ¬ ∃ verdict, SameVerdict call interested .dummy verdict := by
  have undefined
      : ElementAtMatcher.matchAndExplain { index := 42, matcher := elementEq 2 } [1, 2, 3, 4] .dummy
        = none := by decide
  refine ⟨by decide, undefined, ?_⟩
  rintro ⟨verdict, -, final, called⟩
  cases undefined.symm.trans called

end KokkosUtils.Callbacks
