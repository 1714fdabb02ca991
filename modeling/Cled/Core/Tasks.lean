import Mathlib.Data.List.Basic

/-!
# Tasks that take turns

The tasks of a program are a list, in which one task at a time is replaced by
what it has become, or a new one is added at the end.  The rules say what this
does to conditions on all tasks, on some task, and on all tasks but one, and to
facts that hold already or are up to a task to establish.
-/

namespace Cled.Core

variable {Task : Type*} {P Q : Task → Prop} {tasks : List Task} {place : ℕ}
  {old new : Task}

theorem forall_set (hall : ∀ task ∈ tasks, P task) (hnew : P new) :
    ∀ task ∈ tasks.set place new, P task := by
  intro task hmem
  rcases List.mem_or_eq_of_mem_set hmem with hold | rfl
  · exact hall task hold
  · exact hnew

theorem forall_concat (hall : ∀ task ∈ tasks, P task) (hnew : P new) :
    ∀ task ∈ tasks ++ [new], P task := by
  intro task hmem
  rcases List.mem_append.mp hmem with hold | hnewMem
  · exact hall task hold
  · exact List.mem_singleton.mp hnewMem ▸ hnew

theorem getElem?_concat_of_some {task : Task}
    (htask : tasks[place]? = some task) (new : Task) :
    (tasks ++ [new])[place]? = some task := by
  have hlt : place < tasks.length := (List.getElem?_eq_some_iff.mp htask).1
  rw [List.getElem?_append_left hlt, htask]

theorem eq_of_getElem?_set {task : Task}
    (htask : (tasks.set place new)[place]? = some task) : task = new := by
  have hlt := (List.getElem?_eq_some_iff.mp htask).1
  rw [List.length_set] at hlt
  exact Option.some.inj (htask.symm.trans (List.getElem?_set_self hlt))

/-! ## Some task -/

theorem exists_set_self (hplace : tasks[place]? = some old) (hnew : P new) :
    ∃ task ∈ tasks.set place new, P task := by
  have hlt : place < tasks.length := (List.getElem?_eq_some_iff.mp hplace).1
  exact ⟨new, List.mem_set hlt new, hnew⟩

theorem exists_concat (hsome : ∃ task ∈ tasks, P task) (new : Task) :
    ∃ task ∈ tasks ++ [new], P task := by
  obtain ⟨task, hmem, htask⟩ := hsome
  exact ⟨task, List.mem_append_left _ hmem, htask⟩

/-- A task with the property is still there, unless it was the one replaced. -/
theorem exists_set_or (hsome : ∃ task ∈ tasks, P task)
    (hplace : tasks[place]? = some old) (new : Task) :
    P old ∨ ∃ task ∈ tasks.set place new, P task := by
  obtain ⟨task, hmem, htask⟩ := hsome
  obtain ⟨index, hindex⟩ := List.mem_iff_getElem?.mp hmem
  by_cases heq : place = index
  · subst heq
    exact .inl (Option.some.inj (hplace.symm.trans hindex) ▸ htask)
  · have hstill : (tasks.set place new)[index]? = some task :=
      (List.getElem?_set_ne heq).trans hindex
    exact .inr ⟨task, List.mem_of_getElem? hstill, htask⟩

/-- What holds of some task and not of the new one held of a task before. -/
theorem exists_of_set (hsome : ∃ task ∈ tasks.set place new, P task)
    (hnew : ¬ P new) : ∃ task ∈ tasks, P task := by
  obtain ⟨task, hmem, htask⟩ := hsome
  rcases List.mem_or_eq_of_mem_set hmem with hold | rfl
  · exact ⟨task, hold, htask⟩
  · exact absurd htask hnew

theorem exists_of_concat (hsome : ∃ task ∈ tasks ++ [new], P task)
    (hnew : ¬ P new) : ∃ task ∈ tasks, P task := by
  obtain ⟨task, hmem, htask⟩ := hsome
  rcases List.mem_append.mp hmem with hold | hlast
  · exact ⟨task, hold, htask⟩
  · exact absurd (List.mem_singleton.mp hlast ▸ htask) hnew

/-! ## Facts that are up to a task -/

/-- The fact holds, or a task is still to establish it. -/
def Covered (fact : Prop) (pending : Task → Prop) (tasks : List Task) : Prop :=
  fact ∨ ∃ task ∈ tasks, pending task

section Covered

variable {fact fact' : Prop}

theorem Covered.of_fact (hfact : fact) : Covered fact P tasks := .inl hfact

theorem Covered.by_self (hplace : tasks[place]? = some old) (hnew : P new) :
    Covered fact P (tasks.set place new) :=
  .inr (exists_set_self hplace hnew)

theorem Covered.concat (hcovered : Covered fact P tasks) (new : Task) :
    Covered fact P (tasks ++ [new]) :=
  hcovered.imp_right (exists_concat · new)

/-- A task that goes on keeps the fact, and what was up to it is done or still
is up to it. -/
theorem Covered.set (hcovered : Covered fact P tasks)
    (hplace : tasks[place]? = some old) (hfact : fact → fact' ∨ P new)
    (hold : P old → fact' ∨ P new) : Covered fact' P (tasks.set place new) := by
  have hdone (hnext : fact' ∨ P new) : Covered fact' P (tasks.set place new) :=
    hnext.imp_right (exists_set_self hplace)
  rcases hcovered with hholds | hsome
  · exact hdone (hfact hholds)
  · rcases exists_set_or hsome hplace new with hpending | hother
    · exact hdone (hold hpending)
    · exact .inr hother

end Covered

/-! ## All tasks but one -/

/-- Only the task in this place can have the property. -/
def OnlyAt (P : Task → Prop) (place : ℕ) (tasks : List Task) : Prop :=
  ∀ index task, tasks[index]? = some task → P task → index = place

instance [DecidablePred P] : Decidable (OnlyAt P place tasks) :=
  decidable_of_iff
    (∀ index : Fin tasks.length, P tasks[index] → index.val = place)
    ⟨fun honly index task hindex htask => by
      obtain ⟨hlt, rfl⟩ := List.getElem?_eq_some_iff.mp hindex
      exact honly ⟨index, hlt⟩ htask,
    fun honly index htask =>
      honly index tasks[index] (List.getElem?_eq_getElem index.isLt) htask⟩

theorem onlyAt_concat (honly : OnlyAt P place tasks) (hnew : ¬ P new) :
    OnlyAt P place (tasks ++ [new]) := by
  intro index task hindex htask
  rcases Nat.lt_or_ge index tasks.length with hlt | hge
  · rw [List.getElem?_append_left hlt] at hindex
    exact honly index task hindex htask
  · rw [List.getElem?_append_right hge] at hindex
    have hmem := List.mem_of_getElem? hindex
    exact absurd (List.mem_singleton.mp hmem ▸ htask) hnew

theorem onlyAt_set (honly : OnlyAt P place tasks) {index : ℕ}
    (hnew : index = place ∨ ¬ P new) : OnlyAt P place (tasks.set index new) := by
  intro other task hother htask
  by_cases heq : index = other
  · subst heq
    obtain rfl := eq_of_getElem?_set hother
    exact hnew.resolve_right (not_not_intro htask)
  · rw [List.getElem?_set_ne heq] at hother
    exact honly other task hother htask

theorem onlyAt_of_none (hnone : ∀ task ∈ tasks, ¬ P task) (new : Task) :
    OnlyAt P place (tasks.set place new) :=
  onlyAt_set (fun _ task hindex htask =>
    absurd htask (hnone task (List.mem_of_getElem? hindex))) (.inl rfl)

theorem none_of_onlyAt (honly : OnlyAt P place tasks) (hnew : ¬ P new) :
    ∀ task ∈ tasks.set place new, ¬ P task := by
  intro task hmem htask
  obtain ⟨index, hindex⟩ := List.mem_iff_getElem?.mp hmem
  by_cases heq : place = index
  · subst heq
    obtain rfl := eq_of_getElem?_set hindex
    exact hnew htask
  · rw [List.getElem?_set_ne heq] at hindex
    exact heq (honly index task hindex htask).symm

end Cled.Core
