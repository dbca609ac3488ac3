import Mathlib.Data.List.Nodup
import Mathlib.Logic.Function.Basic

/-! Numbers that are drawn from a counter and held for a while. Each holder has a list of the
numbers that it holds, and no number is held twice.
-/

namespace KokkosUtils.Foundations

variable {τ : Type*} {held : τ → List ℕ} {count : ℕ} {holder : τ}

/-- The numbers that are held have been drawn, and are held in one place only. -/
structure Tickets (held : τ → List ℕ) (count : ℕ) : Prop where
  drawn : ∀ {holder number}, number ∈ held holder → number < count
  distinct : ∀ holder, (held holder).Nodup
  holder_unique
    : ∀ {holder other number}, number ∈ held holder → number ∈ held other → holder = other

namespace Tickets

/-- At first nobody holds a number. -/
theorem none (count : ℕ) : Tickets (fun _ : τ => []) count where
  drawn := nofun
  distinct := fun _ => List.nodup_nil
  holder_unique := nofun

/-- A number may be drawn that nobody holds afterwards. -/
theorem skip (tickets : Tickets held count) : Tickets held (count + 1) where
  drawn := fun member => Nat.lt_succ_of_lt (tickets.drawn member)
  distinct := tickets.distinct
  holder_unique := tickets.holder_unique

variable [DecidableEq τ] {fewer : List ℕ}

/-- What a holder keeps was held by that holder. -/
theorem mem_of_mem_update (sublist : fewer.Sublist (held holder)) {other : τ} {number : ℕ}
    (member : number ∈ Function.update held holder fewer other)
    : number ∈ held other := by
  by_cases same : other = holder
  · subst same
    rw [Function.update_self] at member
    exact sublist.subset member
  · rwa [Function.update_of_ne same] at member

/-- A holder may give numbers back. -/
theorem giveBack (tickets : Tickets held count) (sublist : fewer.Sublist (held holder))
    : Tickets (Function.update held holder fewer) count where
  drawn := fun member => tickets.drawn (mem_of_mem_update sublist member)
  distinct := by
    intro other
    by_cases same : other = holder
    · subst same
      rw [Function.update_self]
      exact sublist.nodup (tickets.distinct other)
    · rw [Function.update_of_ne same]
      exact tickets.distinct other
  holder_unique := fun member again =>
    tickets.holder_unique (mem_of_mem_update sublist member) (mem_of_mem_update sublist again)

/-- What is held after a drawing was held before or is the number drawn. -/
theorem mem_drawn {other : τ} {number : ℕ}
    (member : number ∈ Function.update held holder (count :: held holder) other)
    : (other = holder ∧ number = count) ∨ number ∈ held other := by
  by_cases same : other = holder
  · subst same
    rw [Function.update_self, List.mem_cons] at member
    exact member.imp_left (fun equal => ⟨rfl, equal⟩)
  · rw [Function.update_of_ne same] at member
    exact .inr member

/-- A holder may draw the next number, which nobody holds. -/
theorem draw (tickets : Tickets held count) (holder : τ)
    : Tickets (Function.update held holder (count :: held holder)) (count + 1) where
  drawn := by
    intro other number member
    rcases mem_drawn member with ⟨-, rfl⟩ | before
    · exact Nat.lt_succ_self number
    · exact Nat.lt_succ_of_lt (tickets.drawn before)
  distinct := by
    intro other
    by_cases same : other = holder
    · subst same
      rw [Function.update_self, List.nodup_cons]
      exact ⟨fun member => Nat.lt_irrefl count (tickets.drawn member), tickets.distinct other⟩
    · rw [Function.update_of_ne same]
      exact tickets.distinct other
  holder_unique := by
    intro left right number member again
    rcases mem_drawn member with ⟨rfl, rfl⟩ | before
    · rcases mem_drawn again with ⟨rfl, -⟩ | held
      · rfl
      · exact (Nat.lt_irrefl number (tickets.drawn held)).elim
    · rcases mem_drawn again with ⟨rfl, rfl⟩ | held
      · exact (Nat.lt_irrefl number (tickets.drawn before)).elim
      · exact tickets.holder_unique before held

end Tickets

end KokkosUtils.Foundations
