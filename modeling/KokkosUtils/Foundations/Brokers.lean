import KokkosUtils.Foundations.PartialRuns

/-! Brokers, which deliver published messages to their subscribers.
A broker keeps its subscribers in the order of their subscriptions and delivers a message to
those that want it.
-/

namespace KokkosUtils.Foundations

variable {ς μ ν ι : Type*}

/-- What a broker is asked to do. -/
inductive BrokerCommand (ς μ : Type*)
  | subscribe (subscriber : ς)
  | unsubscribe (selects : ς → Bool)
  | publish (message : μ)
  | clear

namespace BrokerCommand

/-- The subscribers after a command; an unsubscription ends the oldest one that it selects. -/
def update : BrokerCommand ς μ → List ς → List ς
  | subscribe subscriber, subscribers => subscribers ++ [subscriber]
  | unsubscribe selects, subscribers => subscribers.eraseP selects
  | publish _, subscribers => subscribers
  | clear, _ => []

/-- The deliveries that a command causes, in the order of the subscriptions. -/
def deliver (wants : ς → μ → Bool) : BrokerCommand ς μ → List ς → List (ς × μ)
  | publish message, subscribers =>
      (subscribers.filter (fun subscriber => wants subscriber message)).map
        (fun subscriber => (subscriber, message))
  | _, _ => []

/-- A step of a broker. -/
def perform (wants : ς → μ → Bool) (command : BrokerCommand ς μ) (subscribers : List ς)
    : List ς × List (ς × μ) :=
  (command.update subscribers, command.deliver wants subscribers)

/-- The command with another message in the place of its own. -/
def mapMessage (replace : μ → ν) : BrokerCommand ς μ → BrokerCommand ς ν
  | subscribe subscriber => .subscribe subscriber
  | unsubscribe selects => .unsubscribe selects
  | publish message => .publish (replace message)
  | clear => .clear

/-- Whether a command starts or ends single subscriptions only. -/
def isSubscription : BrokerCommand ς μ → Bool
  | subscribe _ => true
  | unsubscribe _ => true
  | _ => false

/-- All subscribers that a command adds, or that it can remove, satisfy a property. -/
def Concerns (holds : ς → Prop) : BrokerCommand ς μ → Prop
  | subscribe subscriber => holds subscriber
  | unsubscribe selects => ∀ subscriber, selects subscriber = true → holds subscriber
  | _ => True

/-- All subscribers that a command adds satisfy a property. -/
def Admits (holds : ς → Prop) : BrokerCommand ς μ → Prop
  | subscribe subscriber => holds subscriber
  | _ => True

/-- A property of the subscribers is kept by commands that add only such subscribers. -/
theorem Admits.update {holds : ς → Prop} {command : BrokerCommand ς μ}
    (admits : command.Admits holds) {subscribers : List ς}
    (before : ∀ subscriber ∈ subscribers, holds subscriber)
    : ∀ subscriber ∈ command.update subscribers, holds subscriber := by
  intro subscriber member
  cases command with
  | subscribe added =>
      rcases List.mem_append.mp member with old | new
      · exact before subscriber old
      · obtain rfl := List.mem_singleton.mp new
        exact admits
  | unsubscribe selects => exact before subscriber (List.mem_of_mem_eraseP member)
  | publish message => exact before subscriber member
  | clear => cases member

/-- The erasure of an element that a filter drops is invisible behind the filter. -/
theorem filter_eraseP_of_dropped {mine selects : ς → Bool} {subscribers : List ς}
    (dropped : ∀ subscriber ∈ subscribers, selects subscriber = true → mine subscriber = false)
    : (subscribers.eraseP selects).filter mine = subscribers.filter mine := by
  induction subscribers with
  | nil => rfl
  | cons first rest ih =>
      rw [List.forall_mem_cons] at dropped
      by_cases selected : selects first = true
      · rw [List.eraseP_cons_of_pos selected,
          List.filter_cons_of_neg (by simp [dropped.1 selected])]
      · rw [List.eraseP_cons_of_neg selected, List.filter_cons, List.filter_cons, ih dropped.2]

/-- The erasure of an element that a filter keeps commutes with the filter. -/
theorem filter_eraseP_of_kept {mine selects : ς → Bool} {subscribers : List ς}
    (kept : ∀ subscriber ∈ subscribers, selects subscriber = true → mine subscriber = true)
    : (subscribers.eraseP selects).filter mine = (subscribers.filter mine).eraseP selects := by
  induction subscribers with
  | nil => rfl
  | cons first rest ih =>
      rw [List.forall_mem_cons] at kept
      by_cases selected : selects first = true
      · rw [List.eraseP_cons_of_pos selected, List.filter_cons_of_pos (kept.1 selected),
          List.eraseP_cons_of_pos selected]
      · rw [List.eraseP_cons_of_neg selected, List.filter_cons, List.filter_cons, ih kept.2]
        split
        · rw [List.eraseP_cons_of_neg selected]
        · rfl

section

variable {mine : ς → Bool} {admitted : ς → Prop}
variable {command : BrokerCommand ς μ} {subscribers : List ς}

/-- A command about others changes nothing for the subscribers of interest. -/
theorem update_of_others (wants : ς → μ → Bool) (subscription : command.isSubscription = true)
    (others : command.Concerns (fun subscriber => admitted subscriber → mine subscriber = false))
    (admits : command.Admits admitted)
    (known : ∀ subscriber ∈ subscribers, admitted subscriber)
    : (command.update subscribers).filter mine = subscribers.filter mine
      ∧ command.deliver wants subscribers = [] := by
  cases command with
  | subscribe subscriber =>
      refine ⟨?_, rfl⟩
      have unseen : mine subscriber = false := others admits
      simp [update, List.filter_append, unseen]
  | unsubscribe selects =>
      refine ⟨filter_eraseP_of_dropped fun subscriber member selected => ?_, rfl⟩
      exact others subscriber selected (known subscriber member)
  | publish message => cases subscription
  | clear => cases subscription

/-- A command about the subscribers of interest does for them what it does among all. -/
theorem update_of_mine (wants : ς → μ → Bool)
    (concerned : command.Concerns (fun subscriber => admitted subscriber → mine subscriber = true))
    (admits : command.Admits admitted)
    (known : ∀ subscriber ∈ subscribers, admitted subscriber)
    : (command.update subscribers).filter mine = command.update (subscribers.filter mine)
      ∧ (command.deliver wants subscribers).filter (fun delivery => mine delivery.1)
        = command.deliver wants (subscribers.filter mine) := by
  cases command with
  | subscribe subscriber =>
      refine ⟨?_, rfl⟩
      have seen : mine subscriber = true := concerned admits
      simp [update, List.filter_append, seen]
  | unsubscribe selects =>
      refine ⟨filter_eraseP_of_kept fun subscriber member selected => ?_, rfl⟩
      exact concerned subscriber selected (known subscriber member)
  | publish message =>
      refine ⟨rfl, ?_⟩
      rw [deliver, deliver, List.filter_map, List.filter_filter, List.filter_filter]
      congr 1
      refine List.filter_congr fun subscriber _ => ?_
      exact Bool.and_comm ..
  | clear => exact ⟨rfl, rfl⟩

end

end BrokerCommand

/-- The subscribers in the end and all deliveries of a broker that performs some commands. -/
def runBroker (wants : ς → μ → Bool) (commands : List (BrokerCommand ς μ)) (subscribers : List ς)
    : List ς × List (ς × μ) :=
  foldSteps (BrokerCommand.perform wants) commands subscribers

variable {wants : ς → μ → Bool}

@[simp] theorem runBroker_nil (subscribers : List ς)
    : runBroker wants [] subscribers = (subscribers, []) := rfl

@[simp] theorem runBroker_cons (command : BrokerCommand ς μ) (rest : List (BrokerCommand ς μ))
    (subscribers : List ς)
    : runBroker wants (command :: rest) subscribers
      = let later := runBroker wants rest (command.update subscribers)
        (later.1, command.deliver wants subscribers ++ later.2) := rfl

/-- A broker that looks at messages through what they are replaced with delivers these to the
same subscribers.
-/
theorem runBroker_mapMessage {replace : μ → ν} {wantsReplaced : ς → ν → Bool}
    (same : ∀ subscriber message, wantsReplaced subscriber (replace message)
      = wants subscriber message)
    (commands : List (BrokerCommand ς μ)) (subscribers : List ς)
    : runBroker wantsReplaced (commands.map (BrokerCommand.mapMessage replace)) subscribers
      = (
          (runBroker wants commands subscribers).1,
          (runBroker wants commands subscribers).2.map (Prod.map id replace)
        ) := by
  induction commands generalizing subscribers with
  | nil => rfl
  | cons command rest ih =>
      rw [List.map_cons, runBroker_cons, runBroker_cons]
      have updated : (command.mapMessage replace).update subscribers
          = command.update subscribers := by
        cases command <;> rfl
      have delivered : (command.mapMessage replace).deliver wantsReplaced subscribers
          = (command.deliver wants subscribers).map (Prod.map id replace) := by
        cases command with
        | publish message =>
            simp [BrokerCommand.mapMessage, BrokerCommand.deliver, same, Function.comp_def]
        | _ => rfl
      rw [updated, delivered, ih, List.map_append]

/-- Isolation: without the inputs that are about others, the subscribers of interest receive what
they receive among all.
-/
theorem runBroker_isolated {command : ι → Option (BrokerCommand ς μ)} {dropped : ι → Bool}
    {mine : ς → Bool} {admitted : ς → Prop} {inputs : List ι} {subscribers : List ς}
    (known : ∀ subscriber ∈ subscribers, admitted subscriber)
    (admits : ∀ input ∈ inputs, ∀ asked ∈ command input, asked.Admits admitted)
    (others
      : ∀ input ∈ inputs,
          dropped input = true
          → ∀ asked ∈ command input,
              asked.isSubscription = true
              ∧ asked.Concerns (fun subscriber => admitted subscriber → mine subscriber = false))
    (concerned
      : ∀ input ∈ inputs,
          dropped input = false
          → ∀ asked ∈ command input,
              asked.Concerns (fun subscriber => admitted subscriber → mine subscriber = true))
    : runBroker wants ((inputs.filter (fun input => !dropped input)).filterMap command)
          (subscribers.filter mine)
      = (
          (runBroker wants (inputs.filterMap command) subscribers).1.filter mine,
          (runBroker wants (inputs.filterMap command) subscribers).2.filter
            (fun delivery => mine delivery.1)
        ) := by
  induction inputs generalizing subscribers with
  | nil => rfl
  | cons input rest ih =>
      rw [List.forall_mem_cons] at admits others concerned
      cases asked : command input with
      | none =>
          rw [List.filterMap_cons_none asked, ← ih known admits.2 others.2 concerned.2]
          congr 1
          rw [List.filter_cons]
          split
          · exact List.filterMap_cons_none asked
          · rfl
      | some order =>
          have fits := admits.1 order asked
          rw [List.filterMap_cons_some asked, runBroker_cons, List.filter_append]
          cases skipped : dropped input with
          | true =>
              obtain ⟨subscription, about⟩ := others.1 skipped order asked
              obtain ⟨same, silent⟩ :=
                BrokerCommand.update_of_others wants subscription about fits known
              rw [List.filter_cons_of_neg (by simp [skipped]), ← same, silent,
                ih (fits.update known) admits.2 others.2 concerned.2]
              rfl
          | false =>
              obtain ⟨updated, delivered⟩ :=
                BrokerCommand.update_of_mine wants (concerned.1 skipped order asked) fits known
              rw [List.filter_cons_of_pos (by simp [skipped]), List.filterMap_cons_some asked,
                runBroker_cons, ← updated, delivered,
                ih (fits.update known) admits.2 others.2 concerned.2]

end KokkosUtils.Foundations
