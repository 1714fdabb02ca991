import Mathlib.Data.Set.Insert
import Mathlib.Order.Defs.LinearOrder

/-!
# The newest of what is known

A last-writer-wins register shows the newest value it has heard of.  `IsNewest`
states this for values compared by a key: the register is empty when nothing is
known, and otherwise holds a known value that no known value is newer than.
-/

namespace Cled.Core

variable {α κ : Type*} [LinearOrder κ] (key : α → κ)

def IsNewest (known : Set α) : Option α → Prop
  | none => known = ∅
  | some value => value ∈ known ∧ ∀ other ∈ known, key other ≤ key value

namespace IsNewest

variable {key}

/-- Hearing of a value that is not newer leaves the register alone. -/
theorem insert_older {known : Set α} {value other : α}
    (hnewest : IsNewest key known (some value)) (hle : key other ≤ key value) :
    IsNewest key (insert other known) (some value) := by
  obtain ⟨hmem, hmax⟩ := hnewest
  refine ⟨Set.mem_insert_of_mem _ hmem, ?_⟩
  rintro candidate (rfl | hcandidate)
  · exact hle
  · exact hmax candidate hcandidate

/-- A value that is at least as new as the register's takes its place. -/
theorem insert_newer {known : Set α} {newest : Option α} {other : α}
    (hnewest : IsNewest key known newest)
    (hle : ∀ value ∈ newest, key value ≤ key other) :
    IsNewest key (insert other known) (some other) := by
  refine ⟨Set.mem_insert _ _, ?_⟩
  rintro candidate (rfl | hcandidate)
  · exact le_rfl
  cases newest with
  | none => exact absurd hcandidate (hnewest ▸ Set.notMem_empty candidate)
  | some value =>
      exact (hnewest.2 candidate hcandidate).trans (hle value rfl)

theorem mem {known : Set α} {value : α}
    (hnewest : IsNewest key known (some value)) : value ∈ known :=
  hnewest.1

theorem le {known : Set α} {newest : Option α} {other : α}
    (hnewest : IsNewest key known newest) (hmem : other ∈ known) :
    ∃ value ∈ newest, key other ≤ key value := by
  cases newest with
  | none => exact absurd hmem (hnewest ▸ Set.notMem_empty other)
  | some value => exact ⟨value, rfl, hnewest.2 other hmem⟩

end IsNewest

end Cled.Core
