import Mathlib.Data.List.DropRight

/-!
# A window over the accepted values

Values are offered one after another.  A value is accepted unless it is among
the last `capacity` accepted ones, so the window moves with every value that is
accepted and with no other.
-/

namespace Cled.Core.Window

variable {T : Type*}

/-- A full window loses its oldest value to a new one. -/
theorem rtake_concat (capacity : ℕ) (values : List T) (value : T) :
    (values ++ [value]).rtake capacity =
      if capacity < (values.rtake capacity ++ [value]).length then
        (values.rtake capacity ++ [value]).tail
      else values.rtake capacity ++ [value] := by
  have hpushed : values.rtake capacity ++ [value] =
      (values ++ [value]).drop (values.length - capacity) := by
    rw [List.rtake, List.drop_append_of_le_length (Nat.sub_le _ _)]
  rw [hpushed, List.tail_drop, List.rtake]
  simp only [List.length_drop, List.length_append, List.length_singleton]
  split
  · next hfull =>
      congr 1
      omega
  · next hroom =>
      congr 1
      omega

theorem length_rtake_le (capacity : ℕ) (values : List T) :
    (values.rtake capacity).length ≤ capacity := by
  rw [List.rtake, List.length_drop]
  omega

variable [DecidableEq T]

/-- Offers `value` to a window that has accepted `accepted` so far. -/
def offer (capacity : ℕ) (accepted : List T) (value : T) : Bool × List T :=
  if value ∈ accepted.rtake capacity then (false, accepted)
  else (true, accepted ++ [value])

theorem offer_of_mem {capacity : ℕ} {accepted : List T} {value : T}
    (hmem : value ∈ accepted.rtake capacity) :
    offer capacity accepted value = (false, accepted) :=
  if_pos hmem

theorem offer_of_not_mem {capacity : ℕ} {accepted : List T} {value : T}
    (hnew : value ∉ accepted.rtake capacity) :
    offer capacity accepted value = (true, accepted ++ [value]) :=
  if_neg hnew

end Cled.Core.Window
