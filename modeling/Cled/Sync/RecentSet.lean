import Mathlib.Data.Finset.Insert
import Mathlib.Data.Finset.Erase

/-!
# A set that remembers the most recent values

`RecentSet` keeps the accepted values in order of arrival and, beside them, the
set of their members; past its capacity the oldest value is forgotten.
-/

namespace Cled.Sync

structure RecentSet (T : Type*) where
  order : List T
  members : Finset T
  capacity : ℕ
  deriving DecidableEq

namespace RecentSet

variable {T : Type*} [DecidableEq T]

def new (capacity : ℕ) : RecentSet T :=
  { order := [], members := ∅, capacity }

/-- Adds `value`.  The flag is `false` if it was already present. -/
def insert (set : RecentSet T) (value : T) : Bool × RecentSet T :=
  if value ∈ set.members then (false, set)
  else
    let order := set.order ++ [value]
    let members := Insert.insert value set.members
    if set.capacity < order.length then
      match order with
      | oldest :: rest =>
          (true, { set with order := rest, members := members.erase oldest })
      | [] => (true, { set with order, members })
    else (true, { set with order, members })

theorem insert_of_mem {set : RecentSet T} {value : T}
    (hmem : value ∈ set.members) : set.insert value = (false, set) := by
  rw [insert, if_pos hmem]

/-- A new value goes to the end, and the oldest one leaves a full set. -/
theorem insert_of_not_mem {set : RecentSet T} {value : T}
    (hnew : value ∉ set.members) :
    ∃ oldest rest, set.order ++ [value] = oldest :: rest ∧
      set.insert value =
        (true,
          if set.capacity < (oldest :: rest).length then
            { set with
              order := rest
              members := (Insert.insert value set.members).erase oldest }
          else
            { set with
              order := oldest :: rest
              members := Insert.insert value set.members }) := by
  obtain ⟨oldest, rest, hpushed⟩ := List.exists_cons_of_ne_nil
    (List.append_ne_nil_of_right_ne_nil set.order (List.cons_ne_nil value []))
  refine ⟨oldest, rest, hpushed, ?_⟩
  rw [insert, if_neg hnew]
  dsimp only
  rw [hpushed]
  split <;> rfl

theorem insert_fst (set : RecentSet T) (value : T) :
    (set.insert value).1 = decide (value ∉ set.members) := by
  by_cases hmem : value ∈ set.members
  · rw [insert_of_mem hmem, decide_eq_false (not_not.mpr hmem)]
  · obtain ⟨_, _, _, hinsert⟩ := insert_of_not_mem hmem
    rw [hinsert, decide_eq_true hmem]

/-- An insertion brings in no other value than the one inserted. -/
theorem mem_of_mem_insert {set : RecentSet T} {value other : T}
    (hmem : other ∈ (set.insert value).2.members) :
    other = value ∨ other ∈ set.members := by
  by_cases hvalue : value ∈ set.members
  · rw [insert_of_mem hvalue] at hmem
    exact Or.inr hmem
  · obtain ⟨_, _, _, hinsert⟩ := insert_of_not_mem hvalue
    rw [hinsert] at hmem
    apply Finset.mem_insert.mp
    dsimp only at hmem
    split at hmem
    · exact Finset.mem_of_mem_erase hmem
    · exact hmem

theorem insert_capacity (set : RecentSet T) (value : T) :
    (set.insert value).2.capacity = set.capacity := by
  by_cases hmem : value ∈ set.members
  · rw [insert_of_mem hmem]
  · obtain ⟨_, _, _, hinsert⟩ := insert_of_not_mem hmem
    rw [hinsert]
    dsimp only
    split <;> rfl

end RecentSet

end Cled.Sync
