import Mathlib.Data.List.Basic
import Mathlib.Data.List.Nodup
import Mathlib.Logic.Function.Basic

/-! The type list operations that drive the Manager's compile-time loops.
A type list is a list of the names of its types. What does not compile has no result.
-/

namespace KokkosUtils.Impl

variable {α β γ : Type*}

/-- `type_list_size_v`. -/
def typeListSize (types : List α) : Nat := types.length

/-- `type_list_contains_v`, a disjunction over the types of the list. -/
def typeListContains [DecidableEq α] (target : α) (types : List α) : Bool :=
  types.any (fun type => target == type)

/-- `type_list_at_t`, by peeling the head off; no type lies beyond the end. -/
def typeListAt : Nat → List α → Option α
  | 0, head :: _ => some head
  | index + 1, _ :: tail => typeListAt index tail
  | _, [] => none

/-- `type_list_index_v`, by the specialisation for a list that starts with the type and the one
for any other head; there is none for an empty list.
-/
def typeListIndex [DecidableEq α] (target : α) : List α → Option Nat
  | [] => none
  | head :: tail =>
      if target = head then some 0 else (typeListIndex target tail).map (fun index => 1 + index)

/-- `concat_type_list_t`. -/
def concatTypeList (lists : List (List α)) : List α := lists.flatten

/-- `transform_type_list_t`, which concatenates the one list of the transformed types. -/
def transformTypeList (transformer : α → β) (types : List α) : List β :=
  concatTypeList [types.map transformer]

/-- `for_each`: calls `callable` for the type at each index of the index sequence, threading
the state its calls modify.
-/
def forEach (types : List α) (callable : α → β → β) (state : β) : β :=
  (List.range (typeListSize types)).foldl
    (fun current index =>
      match typeListAt index types with
      | some type => callable type current
      | none => current)
    state

@[simp] theorem typeListContains_eq_true [DecidableEq α] {target : α} {types : List α}
    : typeListContains target types = true ↔ target ∈ types := by
  simp [typeListContains]

@[simp] theorem typeListAt_eq_getElem? (index : Nat) (types : List α)
    : typeListAt index types = types[index]? := by
  induction index, types using typeListAt.induct <;> simp_all [typeListAt]

/-- `for_each` is a left fold: the index sequence visits the types in list order. -/
theorem forEach_eq_foldl (types : List α) (callable : α → β → β) (state : β)
    : forEach types callable state
      = types.foldl (fun current type => callable type current) state := by
  have visited : (List.range types.length).filterMap (fun index => types[index]?) = types := by
    induction types with
    | nil => rfl
    | cons head tail ih =>
        rw [List.length_cons, List.range_succ_eq_map, List.filterMap_cons, List.filterMap_map]
        simpa using ih
  unfold forEach typeListSize
  conv_rhs => rw [← visited, List.foldl_filterMap]
  congr 1
  funext current index
  rw [typeListAt_eq_getElem?]
  cases types[index]? <;> rfl

@[simp] theorem typeListIndex_eq_idxOf? [DecidableEq α] (target : α) (types : List α)
    : typeListIndex target types = types.idxOf? target := by
  induction types with
  | nil => rfl
  | cons head tail ih =>
      rw [typeListIndex, List.idxOf?_cons, ih]
      by_cases same : head = target
      · simp [same]
      · simp [same, Ne.symm same, Nat.add_comm]

@[simp] theorem transformTypeList_eq_map (transformer : α → β) (types : List α)
    : transformTypeList transformer types = types.map transformer := by
  simp [transformTypeList, concatTypeList]

/-- The index of a type is the position of its first occurrence. -/
theorem typeListIndex_eq_some [DecidableEq α] {target : α} {types : List α} {index : Nat}
    : typeListIndex target types = some index
      ↔ typeListAt index types = some target
        ∧ ∀ earlier < index, typeListAt earlier types ≠ some target := by
  simp only [typeListIndex_eq_idxOf?, typeListAt_eq_getElem?, List.idxOf?_eq_some_iff]
  constructor
  · rintro ⟨bound, here, first⟩
    refine ⟨List.getElem?_eq_some_iff.mpr ⟨bound, here⟩, fun earlier less there => ?_⟩
    exact first earlier less (List.getElem?_eq_some_iff.mp there).2
  · rintro ⟨here, first⟩
    obtain ⟨bound, same⟩ := List.getElem?_eq_some_iff.mp here
    refine ⟨bound, same, fun earlier less there => first earlier less ?_⟩
    exact List.getElem?_eq_some_iff.mpr ⟨Nat.lt_trans less bound, there⟩

/-- A type has an index exactly if the list contains it. -/
theorem isSome_typeListIndex [DecidableEq α] (target : α) (types : List α)
    : (typeListIndex target types).isSome = typeListContains target types := by
  rw [Bool.eq_iff_iff, typeListIndex_eq_idxOf?, List.isSome_idxOf?, typeListContains_eq_true]

/-- In a list without duplicates, the type at an index has that index. -/
theorem typeListIndex_of_typeListAt [DecidableEq α] {target : α} {types : List α} {index : Nat}
    (distinct : types.Nodup) (there : typeListAt index types = some target)
    : typeListIndex target types = some index := by
  refine typeListIndex_eq_some.mpr ⟨there, fun earlier less same => ?_⟩
  rw [typeListAt_eq_getElem?] at there same
  have bound := (List.getElem?_eq_some_iff.mp there).1
  have equal := (List.getElem?_inj bound distinct).mp (there.trans same.symm)
  exact Nat.ne_of_gt less equal

/-- A transformed list has at each index what the transformer makes of the type there. -/
theorem typeListAt_transformTypeList (transformer : α → β) (index : Nat) (types : List α)
    : typeListAt index (transformTypeList transformer types)
      = (typeListAt index types).map transformer := by
  simp

/-- Storing a value at the index of a type changes the slot of that type and no other. -/
theorem transformTypeList_update [DecidableEq α] {target : α} {types : List α} {index : Nat}
    (distinct : types.Nodup) (known : typeListIndex target types = some index) (slots : α → β)
    (value : β)
    : (transformTypeList slots types).set index value
      = transformTypeList (Function.update slots target value) types := by
  have there := (typeListIndex_eq_some.mp known).1
  rw [typeListAt_eq_getElem?] at there
  have bound := (List.getElem?_eq_some_iff.mp there).1
  refine List.ext_getElem? fun position => ?_
  simp only [transformTypeList_eq_map, List.getElem?_map]
  by_cases same : index = position
  · subst same
    rw [List.getElem?_set_self (by simpa using bound), there, Option.map_some,
      Function.update_self]
  · rw [List.getElem?_set_ne same, List.getElem?_map]
    cases other : types[position]? with
    | none => rfl
    | some type =>
        have apart : type ≠ target := by
          rintro rfl
          exact same ((List.getElem?_inj bound distinct).mp (there.trans other.symm))
        rw [Option.map_some, Option.map_some, Function.update_of_ne apart]

/-- The operations on type lists agree: the index of a type is that of its first occurrence, it
is defined exactly for the types that the list contains, and indexing and looking up undo each
other in a list without duplicates; a transformed list has what becomes of a type at the index of
the type; and a loop visits the types in order, each position exactly once.
-/
theorem typeListIndex_agrees [DecidableEq α] (types : List α)
    : (∀ target index,
        typeListIndex target types = some index
        ↔ typeListAt index types = some target
          ∧ ∀ earlier < index, typeListAt earlier types ≠ some target)
      ∧ (∀ target, (typeListIndex target types).isSome = typeListContains target types)
      ∧ (types.Nodup
        → (∀ target,
            typeListContains target types = true
            → (typeListIndex target types).bind (fun index => typeListAt index types)
              = some target)
          ∧ ∀ index < typeListSize types,
              (typeListAt index types).bind (fun target => typeListIndex target types)
              = some index)
      ∧ (∀ (transformer : α → β) target index,
          typeListIndex target types = some index
          → typeListAt index (transformTypeList transformer types) = some (transformer target))
      ∧ ∀ (callable : α → γ → γ) (state : γ),
          forEach types callable state
          = types.foldl (fun current type => callable type current) state := by
  refine ⟨fun _ _ => typeListIndex_eq_some, fun _ => isSome_typeListIndex .., fun distinct => ?_,
    fun transformer target index known => ?_, forEach_eq_foldl types⟩
  · constructor
    · intro target contained
      rw [← isSome_typeListIndex] at contained
      obtain ⟨index, known⟩ := Option.isSome_iff_exists.mp contained
      rw [known]
      exact (typeListIndex_eq_some.mp known).1
    · intro index bound
      have there : typeListAt index types = some types[index] := by
        rw [typeListAt_eq_getElem?]
        exact List.getElem?_eq_getElem bound
      rw [there]
      exact typeListIndex_of_typeListAt distinct there
  · rw [typeListAt_transformTypeList, (typeListIndex_eq_some.mp known).1]
    rfl

/-- The last type of a list of three. -/
theorem typeListIndex_agrees_last
    : (typeListIndex "int" ["char", "short", "int"]).bind
          (fun index => typeListAt index ["char", "short", "int"])
        = some "int"
      ∧ typeListAt 2 (transformTypeList String.length ["char", "short", "int"]) = some 3 := by
  obtain ⟨-, -, undo, transformed, -⟩ :=
    @typeListIndex_agrees String Nat Nat _ ["char", "short", "int"]
  exact ⟨(undo (by decide)).1 "int" (by decide), transformed String.length "int" 2 (by decide)⟩

end KokkosUtils.Impl
