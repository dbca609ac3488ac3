import Mathlib.Data.List.Basic
import Mathlib.Logic.Function.Basic

/-! Interleavings of sequences that several owners append to. -/

namespace KokkosUtils.Foundations

variable {τ α : Type*} [DecidableEq τ]

/-- The entries of one owner. -/
def ownedBy (owner : τ) (entries : List (τ × α)) : List α :=
  (entries.filter (fun entry => entry.1 == owner)).map Prod.snd

/-- A list interleaves sequences: each of its entries belongs to one owner, and the entries of each
owner are its sequence.
-/
def Interleaves (sequences : τ → List α) (merged : List α) : Prop :=
  ∃ entries : List (τ × α),
    entries.map Prod.snd = merged ∧ ∀ owner, ownedBy owner entries = sequences owner

variable {sequences : τ → List α} {merged : List α}

theorem interleaves_nil : Interleaves (fun _ : τ => ([] : List α)) [] :=
  ⟨[], rfl, fun _ => rfl⟩

/-- An interleaving grows at its end with one of the sequences. -/
theorem Interleaves.concat (interleaves : Interleaves sequences merged) (owner : τ) (value : α)
    : Interleaves (Function.update sequences owner (sequences owner ++ [value]))
        (merged ++ [value]) := by
  obtain ⟨entries, rfl, owned⟩ := interleaves
  refine ⟨entries ++ [(owner, value)], by simp, ?_⟩
  intro other
  by_cases same : other = owner
  · subst same
    rw [Function.update_self, ← owned]
    simp [ownedBy]
  · rw [Function.update_of_ne same, ← owned]
    simp [ownedBy, Ne.symm same]

/-- The sequences keep their order. -/
theorem Interleaves.sublist (interleaves : Interleaves sequences merged) (owner : τ)
    : (sequences owner).Sublist merged := by
  obtain ⟨entries, rfl, owned⟩ := interleaves
  rw [← owned]
  exact (List.filter_sublist ..).map Prod.snd

/-- Each entry of an interleaving is one of a sequence. -/
theorem Interleaves.exists_of_mem (interleaves : Interleaves sequences merged) {value : α}
    (member : value ∈ merged)
    : ∃ owner, value ∈ sequences owner := by
  obtain ⟨entries, rfl, owned⟩ := interleaves
  obtain ⟨⟨owner, _⟩, listed, rfl⟩ := List.mem_map.mp member
  refine ⟨owner, ?_⟩
  rw [← owned]
  exact List.mem_map_of_mem (List.mem_filter.mpr ⟨listed, beq_self_eq_true owner⟩)

end KokkosUtils.Foundations
