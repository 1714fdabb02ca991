import Mathlib.Data.Finset.Basic
import Mathlib.Data.List.Nodup
import Mathlib.Data.List.Perm.Basic

/-!
# Keys that tasks hold

A set of keys guards against two tasks doing the same at once: a task puts its
key in, goes on only if the key was not there, and takes it out when it is done.
The set then always has the keys of the tasks in between, and each key is held
by one of them.
-/

namespace Cled.Core

variable {Task Key : Type*} {holds : Task → Option Key} {tasks : List Task}
  {place : ℕ} {old new : Task}

/-- The keys that are held, once for each task that holds one. -/
def heldKeys (holds : Task → Option Key) (tasks : List Task) : List Key :=
  tasks.filterMap holds

/-- The set has the keys that are held, and no two tasks hold the same one. -/
structure HeldOnce (holds : Task → Option Key) (keys : Finset Key)
    (tasks : List Task) : Prop where
  once : (heldKeys holds tasks).Nodup
  mem : ∀ key, key ∈ keys ↔ key ∈ heldKeys holds tasks

/-- A task that goes on changes only what it holds itself. -/
theorem heldKeys_set (holds : Task → Option Key)
    (hplace : tasks[place]? = some old) (new : Task) :
    ∃ others, (heldKeys holds tasks).Perm ((holds old).toList ++ others) ∧
      (heldKeys holds (tasks.set place new)).Perm
        ((holds new).toList ++ others) := by
  obtain ⟨hlt, hold⟩ := List.getElem?_eq_some_iff.mp hplace
  have hcons (task : Task) (rest : List Task) :
      heldKeys holds (task :: rest) =
        (holds task).toList ++ heldKeys holds rest := by
    rw [heldKeys, List.filterMap_cons]
    cases holds task <;> rfl
  refine ⟨heldKeys holds (tasks.eraseIdx place), ?_, ?_⟩
  · rw [← hcons, ← hold]
    exact (List.getElem_cons_eraseIdx_perm hlt).symm.filterMap _
  · rw [← hcons]
    exact (List.set_perm_cons_eraseIdx hlt new).filterMap _

namespace HeldOnce

variable {keys : Finset Key}

theorem nil : HeldOnce holds ∅ ([] : List Task) :=
  ⟨List.nodup_nil, fun key => by simp [heldKeys]⟩

theorem concat (hheld : HeldOnce holds keys tasks) (hnew : holds new = none) :
    HeldOnce holds keys (tasks ++ [new]) := by
  have hsame : heldKeys holds (tasks ++ [new]) = heldKeys holds tasks := by
    rw [heldKeys, List.filterMap_append, List.filterMap_cons_none hnew,
      List.filterMap_nil, List.append_nil]
    rfl
  exact ⟨hsame ▸ hheld.once, hsame ▸ hheld.mem⟩

theorem set_same (hheld : HeldOnce holds keys tasks)
    (hplace : tasks[place]? = some old) (hsame : holds new = holds old) :
    HeldOnce holds keys (tasks.set place new) := by
  obtain ⟨others, hbefore, hafter⟩ := heldKeys_set holds hplace new
  rw [hsame] at hafter
  have hperm := hbefore.trans hafter.symm
  exact ⟨hperm.nodup_iff.mp hheld.once, fun key =>
    (hheld.mem key).trans hperm.mem_iff⟩

variable [DecidableEq Key] {key : Key}

/-- A task puts a key in that is not there. -/
theorem take (hheld : HeldOnce holds keys tasks)
    (hplace : tasks[place]? = some old) (hold : holds old = none)
    (hnew : holds new = some key) (hfree : key ∉ keys) :
    HeldOnce holds (insert key keys) (tasks.set place new) := by
  obtain ⟨others, hbefore, hafter⟩ := heldKeys_set holds hplace new
  rw [hold, Option.toList_none, List.nil_append] at hbefore
  rw [hnew, Option.toList_some, List.singleton_append] at hafter
  have hothers (other : Key) : other ∈ keys ↔ other ∈ others :=
    (hheld.mem other).trans hbefore.mem_iff
  constructor
  · rw [hafter.nodup_iff, List.nodup_cons]
    exact ⟨fun hmem => hfree ((hothers key).mpr hmem),
      hbefore.nodup_iff.mp hheld.once⟩
  · intro other
    rw [Finset.mem_insert, hafter.mem_iff, List.mem_cons, hothers other]

/-- The task that holds a key takes it out. -/
theorem release (hheld : HeldOnce holds keys tasks)
    (hplace : tasks[place]? = some old) (hold : holds old = some key)
    (hnew : holds new = none) :
    HeldOnce holds (keys.erase key) (tasks.set place new) := by
  obtain ⟨others, hbefore, hafter⟩ := heldKeys_set holds hplace new
  rw [hold, Option.toList_some, List.singleton_append] at hbefore
  rw [hnew, Option.toList_none, List.nil_append] at hafter
  obtain ⟨hnotMem, honce⟩ := List.nodup_cons.mp (hbefore.nodup_iff.mp hheld.once)
  constructor
  · exact hafter.nodup_iff.mpr honce
  · intro other
    rw [Finset.mem_erase, hheld.mem other, hbefore.mem_iff, List.mem_cons,
      hafter.mem_iff]
    constructor
    · exact fun hboth => hboth.2.resolve_left hboth.1
    · intro hmem
      exact ⟨fun heq => hnotMem (heq ▸ hmem), .inr hmem⟩

end HeldOnce

end Cled.Core
