import KokkosUtils.Foundations.RowMajor

/-! Views and their slices. -/

namespace KokkosUtils.Views

open KokkosUtils.Foundations

/-- `Kokkos::View` as the host sees it: its extents, and the element at each index. -/
structure View (α : Type) (rank : ℕ) where
  extent : Fin rank → ℕ
  element : MultiIndex extent → α

namespace View

variable {α : Type} {rank : ℕ}

/-- `slice` with one index, the subview that has all elements with this first index. -/
def slice (view : View α (rank + 1)) (index : Fin (view.extent slowest)) : View α rank where
  extent := fun dimension => view.extent dimension.succ
  element := fun indices => view.element (Fin.cons index indices)

/-- The element of a view of rank 0. -/
def scalar (view : View α 0) : α := view.element fun dimension => dimension.elim0

/-- The element of a view of rank 1 at an index. -/
def scalarAt (view : View α 1) (index : Fin (view.extent slowest)) : α :=
  view.element (Fin.cons index fun dimension => dimension.elim0)

/-- All elements, in row-major order. -/
def elements (view : View α rank) : List α := (indicesOf view.extent).map view.element

/-- A view of rank 0 has one element. -/
theorem elements_zero (view : View α 0) : view.elements = [view.scalar] := rfl

/-- The elements of a view are those of its slices, one after the other. -/
theorem elements_succ (view : View α (rank + 1))
    : view.elements
      = (List.finRange (view.extent slowest)).flatMap
          (fun index => (view.slice index).elements) := by
  simp only [elements, indicesOf, List.map_flatMap, List.map_map]
  rfl

end View

end KokkosUtils.Views
