import Mathlib.Data.Finset.Basic
import Mathlib.Data.Finset.Dedup
import Cled.Core.Window
import Cled.Sync.RecentSet

/-!
# The recent set is a window

Whatever was inserted, the set holds the last of the values it accepted, each
once, and its members are the values in its order.  It therefore refines a
window over everything that was accepted.
-/

namespace Cled.Sync.RecentSet

open Cled.Core

variable {T : Type*} [DecidableEq T]

def insertAll (set : RecentSet T) (values : List T) : RecentSet T :=
  values.foldl (fun set value => (set.insert value).2) set

/-- Those of `values` for which `insert` returns `true`. -/
def accepted (set : RecentSet T) : List T → List T
  | [] => []
  | value :: values =>
      let rest := (set.insert value).2.accepted values
      if (set.insert value).1 then value :: rest else rest

/-- The set after it has accepted `accepted`. -/
structure Holds (set : RecentSet T) (accepted : List T) : Prop where
  order : set.order = accepted.rtake set.capacity
  members : set.members = set.order.toFinset
  nodup : set.order.Nodup

namespace Holds

theorem new (capacity : ℕ) : (RecentSet.new capacity : RecentSet T).Holds [] where
  order := (List.rtake_nil capacity).symm
  members := rfl
  nodup := List.nodup_nil

variable {set : RecentSet T} {before : List T}

theorem mem_iff (hholds : set.Holds before) (value : T) :
    value ∈ set.members ↔ value ∈ before.rtake set.capacity := by
  rw [hholds.members, List.mem_toFinset, hholds.order]

/-- One insertion does what the window does with the value. -/
theorem insert (hholds : set.Holds before) (value : T) :
    (set.insert value).1 = (Window.offer set.capacity before value).1 ∧
      (set.insert value).2.Holds (Window.offer set.capacity before value).2 := by
  by_cases hmem : value ∈ set.members
  · rw [insert_of_mem hmem, Window.offer_of_mem ((hholds.mem_iff value).mp hmem)]
    exact ⟨rfl, hholds⟩
  · obtain ⟨oldest, rest, hpushed, hinsert⟩ := insert_of_not_mem hmem
    have hnew : value ∉ before.rtake set.capacity :=
      fun hwindow => hmem ((hholds.mem_iff value).mpr hwindow)
    have hwindow := Window.rtake_concat set.capacity before value
    rw [← hholds.order, hpushed, List.tail_cons] at hwindow
    have hdistinct : (oldest :: rest).Nodup := by
      rw [← hpushed, ← List.concat_eq_append]
      exact hholds.nodup.concat (hholds.order ▸ hnew)
    have hmembers : Insert.insert value set.members = (oldest :: rest).toFinset := by
      rw [← hpushed, hholds.members]
      ext other
      simp only [Finset.mem_insert, List.mem_toFinset, List.mem_append,
        List.mem_singleton]
      exact or_comm
    rw [hinsert, Window.offer_of_not_mem hnew]
    refine ⟨rfl, ?_⟩
    split
    · next hfull =>
        rw [if_pos hfull] at hwindow
        refine ⟨hwindow.symm, ?_, hdistinct.of_cons⟩
        have hgone : oldest ∉ rest.toFinset := by
          rw [List.mem_toFinset]
          exact (List.nodup_cons.mp hdistinct).1
        calc
          (Insert.insert value set.members).erase oldest =
              (Insert.insert oldest rest.toFinset).erase oldest := by
            rw [hmembers, List.toFinset_cons]
          _ = rest.toFinset := Finset.erase_insert hgone
    · next hroom =>
        rw [if_neg hroom] at hwindow
        exact ⟨hwindow.symm, hmembers, hdistinct⟩

/-- After any insertions the set holds the last values it has accepted. -/
theorem insertAll (hholds : set.Holds before) (values : List T) :
    (set.insertAll values).Holds (before ++ set.accepted values) := by
  induction values generalizing set before with
  | nil =>
      rw [accepted, List.append_nil]
      exact hholds
  | cons value values ih =>
      obtain ⟨hflag, hnext⟩ := hholds.insert value
      have hrest := ih hnext
      by_cases hwindow : value ∈ before.rtake set.capacity
      · rw [Window.offer_of_mem hwindow] at hflag hrest
        simpa [accepted, RecentSet.insertAll, hflag] using hrest
      · rw [Window.offer_of_not_mem hwindow] at hflag hrest
        simpa [accepted, RecentSet.insertAll, hflag] using hrest

end Holds

theorem insertAll_capacity (set : RecentSet T) (values : List T) :
    (set.insertAll values).capacity = set.capacity := by
  induction values generalizing set with
  | nil => rfl
  | cons value values ih =>
      calc
        ((set.insert value).2.insertAll values).capacity =
            (set.insert value).2.capacity := ih (set.insert value).2
        _ = set.capacity := insert_capacity set value

/-- The set keeps exactly the last `capacity` values it accepted, each once, and
turns down exactly these. -/
theorem insertAll_window (capacity : ℕ) (values : List T) :
    let set := (new capacity).insertAll values
    let window := ((new capacity).accepted values).rtake capacity
    (∀ value, (set.insert value).1 = false ↔ value ∈ window) ∧
      set.order = window ∧
      set.members = set.order.toFinset ∧
      set.order.Nodup ∧
      set.order.length ≤ capacity := by
  intro set window
  have hholds : set.Holds ((new capacity).accepted values) :=
    (Holds.new capacity).insertAll values
  have hcapacity : set.capacity = capacity := insertAll_capacity _ values
  have hwindow : set.order = window := by
    rw [hholds.order, hcapacity]
  refine ⟨fun value => ?_, hwindow, hholds.members, hholds.nodup, ?_⟩
  · calc
      (set.insert value).1 = false ↔ value ∈ set.members := by
        rw [insert_fst, decide_eq_false_iff_not, not_not]
      _ ↔ value ∈ window := by
        rw [hholds.members, List.mem_toFinset, hwindow]
  · rw [hwindow]
    exact Window.length_rtake_le capacity _

example :
    let set := (new 2).insertAll [1, 2, 3]
    (set.insert 1).1 = true ∧ (set.insert 3).1 = false := by
  decide

end Cled.Sync.RecentSet
