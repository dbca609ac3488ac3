import Mathlib.Data.List.Nodup
import Mathlib.Logic.Function.Basic

/-! Per-key indexes kept beside a list of entries.
An index lists for each key the names of the entries that cover it, in list order.
The lemmas say which updates of the index follow an insertion at the end of the list
and the erasure of one entry.
-/

namespace KokkosUtils.Foundations

variable {ι κ ν ς α : Type*}

section Tables

variable [DecidableEq ς] (slot : κ → ς) (change : κ → α → α)

/-- A loop over keys never touches a place that belongs to none of its keys. -/
theorem foldl_update_of_forall_ne {keys : List κ} {place : ς}
    (absent : ∀ key ∈ keys, slot key ≠ place) (table : ς → α)
    : keys.foldl
          (fun current key =>
            Function.update current (slot key) (change key (current (slot key)))) table place
      = table place := by
  induction keys generalizing table with
  | nil => rfl
  | cons key rest ih =>
      rw [List.foldl_cons, ih (fun other member => absent other (by simp [member])),
        Function.update_of_ne (absent key (by simp)).symm]

/-- A loop over distinct keys changes the place of each key exactly once. -/
theorem foldl_update_slot [DecidableEq κ] {keys : List κ} (injective : Function.Injective slot)
    (distinct : keys.Nodup) (table : ς → α) (key : κ)
    : keys.foldl
          (fun current key =>
            Function.update current (slot key) (change key (current (slot key)))) table (slot key)
      = if key ∈ keys then change key (table (slot key)) else table (slot key) := by
  induction keys generalizing table with
  | nil => simp
  | cons head rest ih =>
      obtain ⟨fresh, distinctRest⟩ := List.nodup_cons.mp distinct
      rw [List.foldl_cons]
      by_cases same : key = head
      · subst same
        have unvisited : ∀ other ∈ rest, slot other ≠ slot key := by
          intro other member equal
          exact fresh (injective equal ▸ member)
        rw [foldl_update_of_forall_ne slot change unvisited]
        simp
      · have other : slot key ≠ slot head := fun equal => same (injective equal)
        rw [ih distinctRest, Function.update_of_ne other]
        simp [same]

end Tables

/-- Each key's list names exactly the entries covering it, in the order of the base list. -/
def Indexes (covers : ι → κ → Bool) (name : ι → ν) (base : List ι) (index : κ → List ν)
    : Prop :=
  ∀ key, index key = (base.filter (fun entry => covers entry key)).map name

variable {covers : ι → κ → Bool} {name : ι → ν} {base : List ι} {index next : κ → List ν}

/-- Without entries all lists of the index are empty. -/
theorem Indexes.nil : Indexes covers name [] (fun _ => []) := fun _ => rfl

/-- Appending an entry pushes its name onto the lists of the keys it covers. -/
theorem Indexes.push (faithful : Indexes covers name base index) {entry : ι}
    (pushed
      : ∀ key, next key = if covers entry key then index key ++ [name entry] else index key)
    : Indexes covers name (base ++ [entry]) next := by
  intro key
  rw [pushed key, faithful key, List.filter_append, List.map_append]
  by_cases covered : covers entry key <;> simp [covered]

/-- Erasing the entry of one name from entries with distinct names filters that name out. -/
theorem eraseP_eq_filter [BEq ν] [LawfulBEq ν] (distinct : (base.map name).Nodup) (target : ν)
    : base.eraseP (fun entry => name entry == target)
      = base.filter (fun entry => name entry != target) := by
  induction base with
  | nil => rfl
  | cons entry rest ih =>
      obtain ⟨fresh, distinctRest⟩ := List.nodup_cons.mp distinct
      by_cases same : name entry = target
      · have kept : rest.filter (fun other => name other != target) = rest := by
          apply List.filter_eq_self.mpr
          intro other member
          have absent : name other ≠ target := by
            intro equal
            exact fresh (List.mem_map.mpr ⟨other, member, equal.trans same.symm⟩)
          simp [absent]
        simp [same, kept]
      · simp [same, ih distinctRest]

/-- Erasing the first entry that satisfies a test erases the entry of its name.
Witness: distinct names make the entry found the only one of its name.
-/
theorem eraseP_of_find? [BEq ν] [LawfulBEq ν] {found : ι → Bool} (distinct : (base.map name).Nodup)
    {entry : ι} (first : base.find? found = some entry)
    : base.eraseP found = base.eraseP (fun other => name other == name entry) := by
  obtain ⟨satisfied, before, after, rfl, unsatisfied⟩ := List.find?_eq_some_iff_append.mp first
  have apart : ∀ other ∈ before, ¬(name other == name entry) = true := by
    intro other member equal
    rw [List.map_append, List.map_cons] at distinct
    have separate := (List.nodup_append.mp distinct).2.2
    exact separate _ (List.mem_map_of_mem member) _ (by simp) (beq_iff_eq.mp equal)
  rw [List.eraseP_append_right _ (by simpa using unsatisfied),
    List.eraseP_append_right _ apart]
  simp [satisfied]

/-- The names that remain when the entry of one name is erased. -/
theorem map_eraseP [BEq ν] [LawfulBEq ν] (target : ν)
    : (base.eraseP (fun entry => name entry == target)).map name
      = (base.map name).erase target := by
  induction base with
  | nil => rfl
  | cons entry rest ih =>
      by_cases same : name entry = target
      · simp [same]
      · simp [same, ih]

/-- With distinct names an entry of the second part is erased there. -/
theorem eraseP_append_of_mem [BEq ν] [LawfulBEq ν] {before later : List ι} {target : ν}
    (distinct : ((before ++ later).map name).Nodup) (member : target ∈ later.map name)
    : (before ++ later).eraseP (fun entry => name entry == target)
      = before ++ later.eraseP (fun entry => name entry == target) := by
  apply List.eraseP_append_right
  intro entry entryMember same
  rw [List.map_append] at distinct
  have separate := (List.nodup_append.mp distinct).2.2
  exact separate _ (List.mem_map_of_mem entryMember) _ member (beq_iff_eq.mp same)

/-- Erasing an entry that a search passes over does not change what the search finds. -/
theorem find?_eraseP {erased found : ι → Bool}
    (passed : ∀ entry ∈ base, erased entry = true → found entry = false)
    : (base.eraseP erased).find? found = base.find? found := by
  induction base with
  | nil => rfl
  | cons entry rest ih =>
      have others := ih (fun other member => passed other (List.mem_cons_of_mem _ member))
      by_cases same : erased entry = true
      · rw [List.eraseP_cons_of_pos same, List.find?_cons, passed entry (by simp) same]
      · rw [List.eraseP_cons_of_neg same, List.find?_cons, List.find?_cons, others]

/-- Erasing the entry of one name removes it from the lists of the keys it covers.
Witness: with distinct names both sides filter the same name out of the base list.
-/
theorem Indexes.erase [BEq ν] [LawfulBEq ν] (faithful : Indexes covers name base index)
    (distinct : (base.map name).Nodup) {entry : ι} (member : entry ∈ base)
    (removed
      : ∀ key,
          next key
          = if covers entry key then (index key).filter (fun other => other != name entry)
            else index key)
    : Indexes covers name (base.eraseP (fun other => name other == name entry)) next := by
  intro key
  rw [removed key, faithful key, eraseP_eq_filter distinct, List.filter_filter]
  by_cases covered : covers entry key
  · rw [if_pos covered, List.filter_map, List.filter_filter]
    congr 1
    apply List.filter_congr
    intro other _
    exact Bool.and_comm ..
  · rw [if_neg covered]
    congr 1
    apply List.filter_congr
    intro other otherMember
    by_cases same : name other = name entry
    · have equal := List.inj_on_of_nodup_map distinct otherMember member same
      simp [equal, covered]
    · simp [same]

end KokkosUtils.Foundations
