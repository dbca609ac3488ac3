import Mathlib.Data.Fin.Tuple.Basic
import Mathlib.Data.List.FinRange
import Mathlib.Order.PiLex

/-! The indices of a multi-dimensional array in row-major order. -/

namespace KokkosUtils.Foundations

variable {rank : ℕ}

/-- The first dimension of an array, whose index varies slowest. -/
abbrev slowest : Fin (rank + 1) := 0

/-- An index into an array with the given extents. -/
abbrev MultiIndex (extent : Fin rank → ℕ) : Type :=
  (dimension : Fin rank) → Fin (extent dimension)

/-- All indices, in row-major order. -/
def indicesOf : {rank : ℕ} → (extent : Fin rank → ℕ) → List (MultiIndex extent)
  | 0, _ => [fun dimension => dimension.elim0]
  | _ + 1, extent =>
      (List.finRange (extent slowest)).flatMap fun index =>
        (indicesOf (fun dimension => extent dimension.succ)).map (Fin.cons index)

/-- Each index occurs. -/
theorem mem_indicesOf {extent : Fin rank → ℕ} (indices : MultiIndex extent)
    : indices ∈ indicesOf extent := by
  induction rank with
  | zero => exact List.mem_singleton.mpr (funext fun dimension => dimension.elim0)
  | succ rank ih =>
      refine List.mem_flatMap.mpr ⟨indices 0, List.mem_finRange _, List.mem_map.mpr ?_⟩
      exact ⟨fun dimension => indices dimension.succ, ih _, Fin.cons_self_tail indices⟩

/-- An index is before another in row-major order. -/
def RowMajor (extent : Fin rank → ℕ) : MultiIndex extent → MultiIndex extent → Prop :=
  Pi.Lex (· < ·) (· < ·)

/-- Indices with the same first index are ordered by the rest. -/
theorem RowMajor.cons {extent : Fin (rank + 1) → ℕ} {index : Fin (extent slowest)}
    {left right : MultiIndex (fun dimension => extent dimension.succ)}
    (before : RowMajor _ left right)
    : RowMajor extent (Fin.cons index left) (Fin.cons index right) := by
  obtain ⟨dimension, same, smaller⟩ := before
  refine ⟨dimension.succ, ?_, by simpa using smaller⟩
  intro earlier below
  cases earlier using Fin.cases with
  | zero => rfl
  | succ earlier => simpa using same earlier (Fin.succ_lt_succ_iff.mp below)

/-- Indices with different first indices are ordered by these. -/
theorem RowMajor.of_first {extent : Fin (rank + 1) → ℕ} {left right : MultiIndex extent}
    (smaller : left slowest < right slowest)
    : RowMajor extent left right :=
  ⟨0, fun _ below => absurd below (Fin.not_lt_zero _), smaller⟩

/-- The indices are in row-major order, without repetition. -/
theorem pairwise_indicesOf (extent : Fin rank → ℕ)
    : (indicesOf extent).Pairwise (RowMajor extent) := by
  induction rank with
  | zero => exact List.pairwise_singleton _ _
  | succ rank ih =>
      refine List.pairwise_flatMap.mpr ⟨?_, ?_⟩
      · intro index _
        exact (ih _).map _ fun _ _ before => before.cons
      · refine (List.pairwise_lt_finRange _).imp ?_
        intro first second smaller left leftListed right rightListed
        obtain ⟨_, -, rfl⟩ := List.mem_map.mp leftListed
        obtain ⟨_, -, rfl⟩ := List.mem_map.mp rightListed
        exact .of_first smaller

end KokkosUtils.Foundations
