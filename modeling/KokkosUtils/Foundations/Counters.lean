import Mathlib.Data.List.Iterate
import Mathlib.Data.List.Nodup

/-! Counters whose values are handed out one after the other, and logs whose entries are told
apart by distinct marks. A counter of fixed width counts up to its size.
-/

namespace KokkosUtils.Foundations

variable {α ι : Type*}

/-- Advancing a counter counts, as long as what is read of it stays below the bound. -/
structure Counts (advance : α → α) (first : α) (read : α → ℕ) (bound : ℕ) : Prop where
  first : read first = 0
  advance : ∀ value, read value + 1 < bound → read (advance value) = read value + 1

/-- A counter reads how often it has been advanced. -/
theorem Counts.read_iterate {advance : α → α} {first : α} {read : α → ℕ} {bound count : ℕ}
    (counts : Counts advance first read bound) (below : count < bound)
    : read (advance^[count] first) = count := by
  induction count with
  | zero => exact counts.first
  | succ count ih =>
      have reached := ih (Nat.lt_of_succ_lt below)
      rw [Function.iterate_succ_apply', counts.advance _ (by rw [reached]; exact below), reached]

/-- Counting in 64 bits. -/
theorem counts_uint64 : Counts (fun value : UInt64 => value + 1) 0 UInt64.toNat UInt64.size where
  first := rfl
  advance := fun value below => by
    rw [UInt64.toNat_add]
    exact Nat.mod_eq_of_lt below

/-- Counting in 32 bits. -/
theorem counts_uint32 : Counts (fun value : UInt32 => value + 1) 0 UInt32.toNat UInt32.size where
  first := rfl
  advance := fun value below => by
    rw [UInt32.toNat_add]
    exact Nat.mod_eq_of_lt below

/-- The values that a counter has handed out since it stood at `first`, each when it was
advanced, and where it stands now.
-/
structure HandedOut (advance : α → α) (first : α) (values : List α) (counter : α) : Prop where
  iterated : values = List.iterate advance first values.length
  stands : counter = advance^[values.length] first

namespace HandedOut

variable {advance : α → α} {first counter value : α} {values : List α}

theorem start : HandedOut advance first [] first := ⟨rfl, rfl⟩

/-- A counter hands out where it stands and is advanced. -/
theorem concat (handed : HandedOut advance first values counter)
    : HandedOut advance first (values ++ [counter]) (advance counter) := by
  obtain ⟨iterated, stands⟩ := handed
  constructor
  · rw [List.length_append, List.length_singleton, List.iterate_add, ← iterated, ← stands]
    rfl
  · rw [List.length_append, List.length_singleton, Function.iterate_succ_apply', ← stands]

/-- What is read of a value is how many were handed out before it. -/
theorem read_lt {read : α → ℕ} {bound : ℕ} (handed : HandedOut advance first values counter)
    (counts : Counts advance first read bound) (few : values.length ≤ bound)
    (member : value ∈ values)
    : read value < values.length := by
  rw [handed.iterated, List.mem_iterate] at member
  obtain ⟨count, below, rfl⟩ := member
  rw [counts.read_iterate (Nat.lt_of_lt_of_le below few)]
  exact below

/-- A counter that has not wrapped around has handed out distinct values. -/
theorem nodup {read : α → ℕ} {bound : ℕ} (handed : HandedOut advance first values counter)
    (counts : Counts advance first read bound) (few : values.length ≤ bound)
    : values.Nodup := by
  rw [handed.iterated, ← List.range_map_iterate]
  refine List.Nodup.map_on (fun left leftMember right rightMember same => ?_) List.nodup_range
  have leftRead := counts.read_iterate (Nat.lt_of_lt_of_le (List.mem_range.mp leftMember) few)
  have rightRead := counts.read_iterate (Nat.lt_of_lt_of_le (List.mem_range.mp rightMember) few)
  rw [← leftRead, same, rightRead]

end HandedOut

/-- In a log whose marks are distinct, two entries with the same mark are the same, by induction
on the log.
-/
theorem eq_of_nodup_filterMap {log : List ι} {mark : ι → Option α} {left right : ι} {value : α}
    (distinct : (log.filterMap mark).Nodup) (leftMember : left ∈ log) (rightMember : right ∈ log)
    (leftMark : mark left = some value) (rightMark : mark right = some value)
    : left = right := by
  induction log with
  | nil => cases leftMember
  | cons entry rest ih =>
      cases marked : mark entry with
      | none =>
          rw [List.filterMap_cons_none marked] at distinct
          rcases List.mem_cons.mp leftMember with rfl | leftLater
          · cases marked.symm.trans leftMark
          · rcases List.mem_cons.mp rightMember with rfl | rightLater
            · cases marked.symm.trans rightMark
            · exact ih distinct leftLater rightLater
      | some found =>
          rw [List.filterMap_cons_some marked, List.nodup_cons] at distinct
          have later {other : ι} (member : other ∈ rest) (otherMark : mark other = some value)
              : found ≠ value := by
            rintro rfl
            exact distinct.1 (List.mem_filterMap.mpr ⟨other, member, otherMark⟩)
          rcases List.mem_cons.mp leftMember with rfl | leftLater <;>
            rcases List.mem_cons.mp rightMember with rfl | rightLater
          · rfl
          · exact (later rightLater rightMark (Option.some.inj (marked.symm.trans leftMark))).elim
          · exact (later leftLater leftMark (Option.some.inj (marked.symm.trans rightMark))).elim
          · exact ih distinct.2 leftLater rightLater

end KokkosUtils.Foundations
