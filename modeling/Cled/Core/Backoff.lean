import Mathlib.Algebra.Order.Group.Nat
import Mathlib.Data.List.Basic
import Mathlib.Tactic.Ring

/-!
# Delays that double

What fails is tried again after a delay, which doubles with every failure in a
row up to a bound.  The failures in a row of one key are read off a history of
what happened to all of them.
-/

namespace Cled.Core

/-- The delay after so many failures before the last one. -/
def delayAfter (base cap count : ℕ) : ℕ := min (base * 2 ^ count) cap

theorem delayAfter_zero {base cap : ℕ} (hbase : base ≤ cap) :
    delayAfter base cap 0 = base := by
  rw [delayAfter, pow_zero, mul_one, min_eq_left hbase]

theorem delayAfter_succ (base cap count : ℕ) :
    delayAfter base cap (count + 1) = min (delayAfter base cap count * 2) cap := by
  have hpow : base * 2 ^ (count + 1) = base * 2 ^ count * 2 := by ring
  rw [delayAfter, delayAfter, hpow]
  omega

theorem delayAfter_le (base cap count : ℕ) : delayAfter base cap count ≤ cap :=
  min_le_right _ _

/-! ## Failures in a row -/

/-- What happened to a key, or to all of them. -/
inductive Mark (Key : Type*) where
  | failed (key : Key) (time : ℕ)
  | forgotten (key : Key)
  | allForgotten
  deriving DecidableEq

/-- How many failures in a row, and when the last one was. -/
structure Streak where
  count : ℕ
  last : ℕ
  deriving DecidableEq

def Streak.none : Streak := ⟨0, 0⟩

/-- The delay after the last failure is over. -/
def Streak.Over (base cap : ℕ) (streak : Streak) (now : ℕ) : Prop :=
  streak.count = 0 ∨ streak.last + delayAfter base cap (streak.count - 1) ≤ now

variable {Key : Type*} [DecidableEq Key]

def Streak.note (key : Key) (streak : Streak) : Mark Key → Streak
  | .failed other time => if other = key then ⟨streak.count + 1, time⟩ else streak
  | .forgotten other => if other = key then Streak.none else streak
  | .allForgotten => Streak.none

/-- The failures of a key since it was last forgotten. -/
def streakOf (key : Key) (marks : List (Mark Key)) : Streak :=
  marks.foldl (Streak.note key) Streak.none

theorem streakOf_concat (key : Key) (marks : List (Mark Key)) (mark : Mark Key) :
    streakOf key (marks ++ [mark]) = (streakOf key marks).note key mark := by
  rw [streakOf, List.foldl_append]
  rfl

/-- Once the longest delay has passed it is over, however long the streak. -/
theorem Streak.Over.of_cap {base cap now : ℕ} {streak : Streak}
    (hpast : streak.last + cap ≤ now) : streak.Over base cap now :=
  .inr ((Nat.add_le_add_left (delayAfter_le base cap _) _).trans hpast)

end Cled.Core
