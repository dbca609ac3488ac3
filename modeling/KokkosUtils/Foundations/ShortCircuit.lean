import Mathlib.Data.List.Nodup
import Mathlib.Order.Lattice

/-! Short-circuiting conjunctions of operands with states of their own.
An operand is evaluated exactly when all operands before it were true, and only the states of
evaluated operands change.
-/

namespace KokkosUtils.Foundations

variable {κ : Type*} {μ : κ → Type*}

/-- What a conjunction does: its result, the states it leaves, and the evaluations that it makes
of its operands, in order and with their verdicts.
-/
structure Conjoined (μ : κ → Type*) where
  result : Bool
  states : (key : κ) → μ key
  evaluations : List (κ × Bool)

/-- Evaluates operands one after the other, up to the first one that is false. -/
def shortCircuit [DecidableEq κ] (evaluate : (key : κ) → μ key → Bool × μ key)
    : List κ → ((key : κ) → μ key) → Conjoined μ
  | [], states => { result := true, states := states, evaluations := [] }
  | key :: rest, states =>
      let (verdict, next) := evaluate key (states key)
      let states := Function.update states key next
      if verdict then
        let later := shortCircuit evaluate rest states
        { later with evaluations := (key, true) :: later.evaluations }
      else
        { result := false, states := states, evaluations := [(key, false)] }

/-- The evaluations that are made of operands with the given verdicts. -/
def evaluationsOf (verdict : κ → Bool) : List κ → List (κ × Bool)
  | [] => []
  | key :: rest =>
      if verdict key then (key, true) :: evaluationsOf verdict rest else [(key, false)]

variable {verdict : κ → Bool} {keys : List κ} {key : κ}

/-- The operands evaluated are the first ones. -/
theorem evaluationsOf_first (verdict : κ → Bool) (keys : List κ)
    : (evaluationsOf verdict keys).map Prod.fst <+: keys := by
  induction keys with
  | nil => exact List.prefix_rfl
  | cons key rest ih =>
      unfold evaluationsOf
      split
      · exact List.cons_prefix_cons.mpr ⟨rfl, ih⟩
      · exact List.cons_prefix_cons.mpr ⟨rfl, List.nil_prefix⟩

/-- The evaluations depend on the verdicts of the operands only. -/
theorem evaluationsOf_congr {other : κ → Bool} (same : ∀ key ∈ keys, verdict key = other key)
    : evaluationsOf verdict keys = evaluationsOf other keys := by
  induction keys with
  | nil => rfl
  | cons key rest ih =>
      rw [List.forall_mem_cons] at same
      rw [evaluationsOf, evaluationsOf, same.1, ih same.2]

section

variable [LinearOrder κ]

/-- In ascending order, an operand is evaluated exactly when all smaller ones are true, and then
once.
-/
theorem evaluationsOf_filter (verdict : κ → Bool) (ascending : keys.Pairwise (· < ·))
    (member : key ∈ keys)
    : (evaluationsOf verdict keys).filter (fun evaluation => evaluation.1 == key)
      = if ∀ earlier ∈ keys, earlier < key → verdict earlier = true then [(key, verdict key)]
        else [] := by
  induction keys with
  | nil => cases member
  | cons first rest ih =>
      obtain ⟨below, later⟩ := List.pairwise_cons.mp ascending
      rcases List.mem_cons.mp member with rfl | within
      · have least : ∀ earlier ∈ key :: rest, earlier < key → verdict earlier = true := by
          intro earlier listed smaller
          rcases List.mem_cons.mp listed with rfl | listed
          · exact absurd smaller (lt_irrefl _)
          · exact absurd (below earlier listed) (lt_asymm smaller)
        have none : (evaluationsOf verdict rest).filter (fun evaluation => evaluation.1 == key)
            = [] := by
          rw [List.filter_eq_nil_iff]
          intro evaluation evaluated same
          have listed := (evaluationsOf_first verdict rest).mem (List.mem_map_of_mem evaluated)
          rw [beq_iff_eq.mp same] at listed
          exact lt_irrefl key (below key listed)
        rw [if_pos least, evaluationsOf]
        cases truth : verdict key <;> simp [none]
      · have smaller := below key within
        rw [evaluationsOf]
        cases truth : verdict first with
        | true => simp [truth, smaller, smaller.ne, ih later within]
        | false => simp [truth, smaller, smaller.ne]

/-- In ascending order, an operand is evaluated exactly when all smaller ones are true. -/
theorem mem_map_fst_evaluationsOf (ascending : keys.Pairwise (· < ·)) (member : key ∈ keys)
    : key ∈ (evaluationsOf verdict keys).map Prod.fst
      ↔ ∀ earlier ∈ keys, earlier < key → verdict earlier = true := by
  have evaluated : key ∈ (evaluationsOf verdict keys).map Prod.fst
      ↔ (evaluationsOf verdict keys).filter (fun evaluation => evaluation.1 == key) ≠ [] := by
    simp only [List.mem_map, ne_eq, List.filter_eq_nil_iff, beq_iff_eq, not_forall, not_not,
      exists_prop]
  rw [evaluated, evaluationsOf_filter verdict ascending member]
  by_cases passed : ∀ earlier ∈ keys, earlier < key → verdict earlier = true
  · rw [if_pos passed]
    exact iff_of_true (List.cons_ne_nil _ _) passed
  · rw [if_neg passed]
    exact iff_of_false (not_not_intro rfl) passed

/-- In ascending order, an operand is evaluated as true exactly when it and all smaller ones are
true.
-/
theorem mem_evaluationsOf (ascending : keys.Pairwise (· < ·)) (member : key ∈ keys)
    : (key, true) ∈ evaluationsOf verdict keys
      ↔ (∀ earlier ∈ keys, earlier < key → verdict earlier = true) ∧ verdict key = true := by
  have filtered := evaluationsOf_filter verdict ascending member
  have kept : (key, true) ∈ evaluationsOf verdict keys
      ↔ (key, true)
        ∈ (evaluationsOf verdict keys).filter (fun evaluation => evaluation.1 == key) := by
    simp
  rw [kept, filtered]
  by_cases passed : ∀ earlier ∈ keys, earlier < key → verdict earlier = true
  · rw [if_pos passed, List.mem_singleton, Prod.mk.injEq]
    exact ⟨fun same => ⟨passed, same.2.symm⟩, fun both => ⟨rfl, both.2.symm⟩⟩
  · rw [if_neg passed]
    exact ⟨fun listed => (List.not_mem_nil listed).elim, fun both => (passed both.1).elim⟩

/-- All smaller operands have been evaluated as true exactly when they are true. -/
theorem forall_mem_evaluationsOf (ascending : keys.Pairwise (· < ·)) (key : κ)
    : (∀ earlier ∈ keys, earlier < key → (earlier, true) ∈ evaluationsOf verdict keys)
      ↔ ∀ earlier ∈ keys, earlier < key → verdict earlier = true := by
  constructor
  · intro evaluated earlier listed smaller
    exact ((mem_evaluationsOf ascending listed).mp (evaluated earlier listed smaller)).2
  · intro passed earlier listed smaller
    refine (mem_evaluationsOf ascending listed).mpr ⟨?_, passed earlier listed smaller⟩
    exact fun first found before => passed first found (before.trans smaller)

end

section

variable [DecidableEq κ] {evaluate : (key : κ) → μ key → Bool × μ key}

/-- The verdict that an operand gives in its current state. -/
def verdictIn (evaluate : (key : κ) → μ key → Bool × μ key) (states : (key : κ) → μ key)
    (key : κ)
    : Bool :=
  (evaluate key (states key)).1

/-- An operand does not depend on the states of others. -/
theorem verdictIn_update (states : (key : κ) → μ key) {other : κ} (apart : other ≠ key)
    (next : μ key)
    : verdictIn evaluate (Function.update states key next) other
      = verdictIn evaluate states other := by
  rw [verdictIn, Function.update_of_ne apart, verdictIn]

/-- Distinct operands are evaluated in the states before the conjunction, and exactly those that
are evaluated move on.
-/
theorem shortCircuit_eq (distinct : keys.Nodup) (states : (key : κ) → μ key)
    : shortCircuit evaluate keys states
      = {
        result := keys.all (verdictIn evaluate states)
        states := fun key =>
          if key ∈ (evaluationsOf (verdictIn evaluate states) keys).map Prod.fst then
            (evaluate key (states key)).2
          else
            states key
        evaluations := evaluationsOf (verdictIn evaluate states) keys
      } := by
  induction keys generalizing states with
  | nil => simp [shortCircuit, evaluationsOf]
  | cons key rest ih =>
      obtain ⟨absent, distinct⟩ := List.nodup_cons.mp distinct
      have apart : ∀ other ∈ rest, other ≠ key := by
        rintro other listed rfl
        exact absent listed
      cases truth : verdictIn evaluate states key with
      | false =>
          have stops : (evaluate key (states key)).1 = false := truth
          simp only [shortCircuit, stops, evaluationsOf, truth, List.all_cons, Bool.false_and,
            Bool.false_eq_true, if_false, List.map_cons, List.map_nil, List.mem_singleton]
          rw [Conjoined.mk.injEq]
          refine ⟨rfl, ?_, rfl⟩
          funext other
          by_cases same : other = key
          · subst same
            simp
          · simp [same]
      | true =>
          have goesOn : (evaluate key (states key)).1 = true := truth
          have verdicts
              : ∀ other ∈ rest,
                  verdictIn evaluate
                      (Function.update states key (evaluate key (states key)).2) other
                    = verdictIn evaluate states other :=
            fun other listed => verdictIn_update states (apart other listed) _
          simp only [shortCircuit, goesOn, if_pos, ih distinct, evaluationsOf_congr verdicts,
            evaluationsOf, truth, List.all_cons, Bool.true_and, List.map_cons]
          rw [Conjoined.mk.injEq]
          refine ⟨?_, ?_, rfl⟩
          · rw [Bool.eq_iff_iff, List.all_eq_true, List.all_eq_true]
            exact forall₂_congr fun other listed => by rw [verdicts other listed]
          · funext other
            by_cases same : other = key
            · subst same
              have unlisted
                  : other ∉ (evaluationsOf (verdictIn evaluate states) rest).map Prod.fst :=
                fun listed => absent ((evaluationsOf_first _ rest).mem listed)
              rw [if_neg unlisted, if_pos (.head _), Function.update_self]
            · simp [same]

/-- The operands evaluated are the first ones. -/
theorem shortCircuit_first (distinct : keys.Nodup) (states : (key : κ) → μ key)
    : (shortCircuit evaluate keys states).evaluations.map Prod.fst <+: keys := by
  rw [shortCircuit_eq distinct]
  exact evaluationsOf_first _ keys

end

section

variable [LinearOrder κ] {evaluate : (key : κ) → μ key → Bool × μ key}

/-- An operand is evaluated, once and in its current state, if all smaller ones are evaluated as
true, and then it moves on.
-/
theorem shortCircuit_evaluated (ascending : keys.Pairwise (· < ·)) (member : key ∈ keys)
    (states : (key : κ) → μ key)
    (passed
      : ∀ earlier ∈ keys,
          earlier < key → (earlier, true) ∈ (shortCircuit evaluate keys states).evaluations)
    : (shortCircuit evaluate keys states).evaluations.filter
          (fun evaluation => evaluation.1 == key)
        = [(key, (evaluate key (states key)).1)]
      ∧ (shortCircuit evaluate keys states).states key = (evaluate key (states key)).2 := by
  rw [shortCircuit_eq (ascending.imp ne_of_lt)] at passed ⊢
  rw [forall_mem_evaluationsOf ascending] at passed
  refine ⟨?_, if_pos ((mem_map_fst_evaluationsOf ascending member).mpr passed)⟩
  exact (evaluationsOf_filter _ ascending member).trans (if_pos passed)

/-- Otherwise an operand is not evaluated, and stays in its state. -/
theorem shortCircuit_skipped (ascending : keys.Pairwise (· < ·)) (member : key ∈ keys)
    (states : (key : κ) → μ key)
    (failed
      : ¬∀ earlier ∈ keys,
          earlier < key → (earlier, true) ∈ (shortCircuit evaluate keys states).evaluations)
    : (shortCircuit evaluate keys states).evaluations.filter
          (fun evaluation => evaluation.1 == key)
        = []
      ∧ (shortCircuit evaluate keys states).states key = states key := by
  rw [shortCircuit_eq (ascending.imp ne_of_lt)] at failed ⊢
  rw [forall_mem_evaluationsOf ascending] at failed
  refine ⟨?_, if_neg fun evaluated => failed ?_⟩
  · exact (evaluationsOf_filter _ ascending member).trans (if_neg failed)
  · exact (mem_map_fst_evaluationsOf ascending member).mp evaluated

/-- The conjunction is true exactly when all operands are evaluated as true. -/
theorem shortCircuit_result (ascending : keys.Pairwise (· < ·)) (states : (key : κ) → μ key)
    : (shortCircuit evaluate keys states).result = true
      ↔ ∀ key ∈ keys, (key, true) ∈ (shortCircuit evaluate keys states).evaluations := by
  rw [shortCircuit_eq (ascending.imp ne_of_lt), List.all_eq_true]
  constructor
  · intro all key member
    exact (mem_evaluationsOf ascending member).mpr ⟨fun earlier listed _ => all earlier listed,
      all key member⟩
  · intro evaluated key member
    exact ((mem_evaluationsOf ascending member).mp (evaluated key member)).2

end

end KokkosUtils.Foundations
