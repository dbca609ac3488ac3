import Mathlib.Data.Option.Basic
import Mathlib.Logic.Equiv.Basic
import Mathlib.Logic.Function.Basic

/-! Resources that are each held in one place.
What is in use is what is held, and nothing is held twice. Acquiring a resource, releasing it and
handing it over keep it that way.
-/

namespace KokkosUtils.Foundations

variable {ι ρ : Type*} {inUse later : ρ → Prop} {held : ι → Option ρ}

/-- The resources in use are those that are held, each in a single place. -/
structure SolelyHeld (inUse : ρ → Prop) (held : ι → Option ρ) : Prop where
  inUse_iff : ∀ resource, inUse resource ↔ ∃ place, held place = some resource
  single
    : ∀ {left right resource}, held left = some resource → held right = some resource → left = right

namespace SolelyHeld

/-- Nothing is in use where nothing is held. -/
theorem nothing (unused : ∀ resource, ¬ inUse resource) (empty : ∀ place, held place = none)
    : SolelyHeld inUse held where
  inUse_iff := by
    intro resource
    refine iff_of_false (unused resource) ?_
    rintro ⟨place, known⟩
    rw [empty] at known
    cases known
  single := by
    intro left right resource known
    rw [empty] at known
    cases known

/-- When nothing is held any more, nothing is in use. -/
theorem not_inUse (sole : SolelyHeld inUse held) (empty : ∀ place, held place = none)
    (resource : ρ)
    : ¬ inUse resource := by
  intro used
  obtain ⟨place, known⟩ := (sole.inUse_iff resource).mp used
  rw [empty] at known
  cases known

/-- It only matters what is in use. -/
theorem congr (sole : SolelyHeld inUse held) (same : ∀ resource, later resource ↔ inUse resource)
    : SolelyHeld later held where
  inUse_iff := fun resource => (same resource).trans (sole.inUse_iff resource)
  single := sole.single

/-- What is held may be rearranged. -/
theorem rearranged (sole : SolelyHeld inUse held) (exchange : ι ≃ ι)
    : SolelyHeld inUse (held ∘ exchange) where
  inUse_iff := by
    intro resource
    rw [sole.inUse_iff, ← exchange.exists_congr_right]
    rfl
  single := fun leftKnown rightKnown =>
    exchange.injective (sole.single leftKnown rightKnown)

variable [DecidableEq ι]

/-- An unused resource may be acquired in an empty place. -/
theorem acquire (sole : SolelyHeld inUse held) {place : ι} {resource : ρ}
    (empty : held place = none) (unused : ¬ inUse resource)
    (changed : ∀ other, later other ↔ other = resource ∨ inUse other)
    : SolelyHeld later (Function.update held place (some resource)) where
  inUse_iff := by
    intro other
    rw [changed]
    constructor
    · rintro (rfl | used)
      · exact ⟨place, Function.update_self ..⟩
      · obtain ⟨elsewhere, known⟩ := (sole.inUse_iff other).mp used
        refine ⟨elsewhere, ?_⟩
        rw [Function.update_of_ne, known]
        rintro rfl
        rw [empty] at known
        cases known
    · rintro ⟨elsewhere, known⟩
      by_cases same : elsewhere = place
      · rw [same, Function.update_self] at known
        exact .inl (Option.some.inj known).symm
      · rw [Function.update_of_ne same] at known
        exact .inr ((sole.inUse_iff other).mpr ⟨elsewhere, known⟩)
  single := by
    have fresh {elsewhere : ι} (known : held elsewhere = some resource) : False :=
      unused ((sole.inUse_iff resource).mpr ⟨elsewhere, known⟩)
    intro left right other leftKnown rightKnown
    by_cases leftSame : left = place <;> by_cases rightSame : right = place
    · rw [leftSame, rightSame]
    · rw [leftSame, Function.update_self] at leftKnown
      rw [Function.update_of_ne rightSame, ← Option.some.inj leftKnown] at rightKnown
      exact (fresh rightKnown).elim
    · rw [rightSame, Function.update_self] at rightKnown
      rw [Function.update_of_ne leftSame, ← Option.some.inj rightKnown] at leftKnown
      exact (fresh leftKnown).elim
    · rw [Function.update_of_ne leftSame] at leftKnown
      rw [Function.update_of_ne rightSame] at rightKnown
      exact sole.single leftKnown rightKnown

/-- A resource may be released where it is held. -/
theorem release (sole : SolelyHeld inUse held) {place : ι} {resource : ρ}
    (known : held place = some resource)
    (changed : ∀ other, later other ↔ other ≠ resource ∧ inUse other)
    : SolelyHeld later (Function.update held place none) where
  inUse_iff := by
    intro other
    rw [changed]
    constructor
    · rintro ⟨differs, used⟩
      obtain ⟨elsewhere, found⟩ := (sole.inUse_iff other).mp used
      refine ⟨elsewhere, ?_⟩
      rw [Function.update_of_ne, found]
      rintro rfl
      rw [known] at found
      exact differs (Option.some.inj found).symm
    · rintro ⟨elsewhere, found⟩
      have apart : elsewhere ≠ place := by
        rintro rfl
        rw [Function.update_self] at found
        cases found
      rw [Function.update_of_ne apart] at found
      refine ⟨?_, (sole.inUse_iff other).mpr ⟨elsewhere, found⟩⟩
      rintro rfl
      exact apart (sole.single found known)
  single := by
    intro left right other leftKnown rightKnown
    have kept {elsewhere : ι} (found : Function.update held place none elsewhere = some other)
        : held elsewhere = some other := by
      by_cases same : elsewhere = place
      · rw [same, Function.update_self] at found
        cases found
      · rwa [Function.update_of_ne same] at found
    exact sole.single (kept leftKnown) (kept rightKnown)

/-- What is held in a place may be handed over to an empty one. -/
theorem handOver (sole : SolelyHeld inUse held) {source target : ι} (empty : held target = none)
    : SolelyHeld inUse
        (Function.update (Function.update held source none) target (held source)) := by
  -- This exchanges what is held in the two places.
  have exchanged : Function.update (Function.update held source none) target (held source)
      = held ∘ Equiv.swap source target := by
    funext place
    by_cases atTarget : place = target
    · rw [atTarget, Function.update_self, Function.comp, Equiv.swap_apply_right]
    by_cases atSource : place = source
    · rw [Function.update_of_ne atTarget, atSource, Function.update_self, Function.comp,
        Equiv.swap_apply_left, empty]
    · rw [Function.update_of_ne atTarget, Function.update_of_ne atSource, Function.comp,
        Equiv.swap_apply_of_ne_of_ne atSource atTarget]
  rw [exchanged]
  exact sole.rearranged (Equiv.swap source target)

end SolelyHeld

end KokkosUtils.Foundations
