import Mathlib.Data.List.Forall2
import Mathlib.Data.List.NodupEquivFin

/-! Ordered containment of a list in another, up to a relation between their elements.
The leftmost choice never misses a match, and containment means increasing positions.
-/

namespace KokkosUtils.Foundations

open List

variable {α β : Type*} {related : α → β → Prop} {head : α} {first : β} {rest : List α}
  {others : List β}

/-- What contains a list contains its tail, by induction on how it contains the list. -/
theorem sublistForall₂_of_cons {list : List α} {elements : List β}
    (contained : SublistForall₂ related list elements)
    : SublistForall₂ related list.tail elements := by
  induction contained with
  | nil => exact .nil
  | cons _ remaining _ => exact .cons_right remaining
  | cons_right _ ih => exact .cons_right ih

/-- Matching the head with the first element that it is related to never misses a match: any
match of the rest comes later.
-/
theorem sublistForall₂_cons_of_related (matched : related head first)
    : SublistForall₂ related (head :: rest) (first :: others)
      ↔ SublistForall₂ related rest others := by
  constructor
  · intro contained
    cases contained with
    | cons _ remaining => exact remaining
    | cons_right later => exact sublistForall₂_of_cons later
  · exact .cons matched

/-- An element that the head is not related to is of no use for it. -/
theorem sublistForall₂_cons_of_not_related (unmatched : ¬ related head first)
    : SublistForall₂ related (head :: rest) (first :: others)
      ↔ SublistForall₂ related (head :: rest) others := by
  constructor
  · intro contained
    cases contained with
    | cons matched _ => exact (unmatched matched).elim
    | cons_right later => exact later
  · exact .cons_right

/-- A list is contained exactly when its elements are related to those at strictly increasing
positions.
-/
theorem sublistForall₂_iff_strictMono {list : List α} {elements : List β}
    : SublistForall₂ related list elements
      ↔ ∃ position : Fin list.length → Fin elements.length,
          StrictMono position
          ∧ ∀ index, related (list.get index) (elements.get (position index)) := by
  rw [sublistForall₂_iff]
  constructor
  · rintro ⟨chosen, pointwise, sublist⟩
    obtain ⟨embedding, same⟩ := sublist_iff_exists_fin_orderEmbedding_get_eq.mp sublist
    have length := pointwise.length_eq
    refine ⟨fun index => embedding (index.cast length), ?_, ?_⟩
    · intro earlier later before
      exact embedding.strictMono before
    · intro index
      rw [← same]
      exact (forall₂_iff_get.mp pointwise).2 index index.isLt (length ▸ index.isLt)
  · rintro ⟨position, increasing, matched⟩
    let chosen := ofFn (fun index => elements.get (position index))
    have length : chosen.length = list.length := length_ofFn
    refine ⟨chosen, ?_, ?_⟩
    · rw [forall₂_iff_get]
      refine ⟨length.symm, ?_⟩
      intro index bound _
      simpa [chosen] using matched ⟨index, bound⟩
    · have strict : StrictMono (fun index => position (Fin.cast length index)) :=
        fun _ _ before => increasing before
      rw [sublist_iff_exists_fin_orderEmbedding_get_eq]
      refine ⟨OrderEmbedding.ofStrictMono _ strict, ?_⟩
      intro index
      rw [get_eq_getElem, List.getElem_ofFn]
      rfl

end KokkosUtils.Foundations
