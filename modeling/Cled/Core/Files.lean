import Mathlib.Data.List.Basic
import Mathlib.Logic.Function.Basic

/-!
# Files that may be left half-written

A program writes a file in small steps and can be stopped between any two of
them, also when only some of the letters are written.  Whoever writes a file
beside the old one and lets it take its place is never seen to have written half
of it.  Whoever overwrites a file leaves a part of what was to be written.
-/

namespace Cled.Core

/-- What is in each file that there is. -/
abbrev Disk (Name Letter : Type*) := Name → Option (List Letter)

inductive FileTask (Name Letter : Type*) where
  /-- Opens a file to write it from the start. -/
  | create (name : Name)
  | append (name : Name) (letters : List Letter)
  | rename (source target : Name)
  deriving DecidableEq

namespace FileTask

variable {Name Letter : Type*} [DecidableEq Name]

/-- The next step of these tasks, with so many letters if it writes any, and
what is left of them. -/
def advance (count : ℕ) (disk : Disk Name Letter) :
    List (FileTask Name Letter) →
      Option (Disk Name Letter × List (FileTask Name Letter))
  | [] => none
  | create name :: tasks => some (Function.update disk name (some []), tasks)
  | append name letters :: tasks =>
      let written := (disk name).getD [] ++ letters.take count
      some (Function.update disk name (some written),
        match letters.drop count with
        | [] => tasks
        | left => append name left :: tasks)
  | rename source target :: tasks =>
      (disk source).map fun content =>
        (Function.update (Function.update disk source none) target (some content),
          tasks)

/-- Writes the content beside the file, and then puts it in its place. -/
def replacing (beside target : Name) (content : List Letter) :
    List (FileTask Name Letter) :=
  [create beside, append beside content, rename beside target]

/-- Writes the parts into the file, one after the other. -/
def overwriting (target : Name) (parts : List (List Letter)) :
    List (FileTask Name Letter) :=
  create target :: parts.map (append target)

/-- What is left of replacing a file. -/
inductive Replaces (disk : Disk Name Letter) (beside target : Name)
    (content : List Letter) : List (FileTask Name Letter) → Prop
  | opening : Replaces disk beside target content
      [create beside, append beside content, rename beside target]
  | writing {front left : List Letter} (hfront : disk beside = some front)
      (hcontent : front ++ left = content) :
      Replaces disk beside target content
        [append beside left, rename beside target]
  | closing (hwritten : disk beside = some content) :
      Replaces disk beside target content [rename beside target]

/-- What is left of overwriting a file. -/
inductive Overwrites (disk : Disk Name Letter) (target : Name)
    (content : List Letter) : List (FileTask Name Letter) → Prop
  | opening {parts : List (List Letter)} (hparts : parts.flatten = content) :
      Overwrites disk target content (create target :: parts.map (append target))
  | writing {front : List Letter} {parts : List (List Letter)}
      (hfront : disk target = some front)
      (hcontent : front ++ parts.flatten = content) :
      Overwrites disk target content (parts.map (append target))

variable {disk next : Disk Name Letter} {beside target : Name}
  {content : List Letter} {tasks rest : List (FileTask Name Letter)} {count : ℕ}

omit [DecidableEq Name] in
theorem Replaces.congr (hreplaces : Replaces disk beside target content tasks)
    (hsame : next beside = disk beside) :
    Replaces next beside target content tasks := by
  cases hreplaces with
  | opening => exact .opening
  | writing hfront hcontent => exact .writing (hsame.trans hfront) hcontent
  | closing hwritten => exact .closing (hsame.trans hwritten)

omit [DecidableEq Name] in
theorem Replaces.ne_nil (hreplaces : Replaces disk beside target content tasks) :
    tasks ≠ [] := by
  cases hreplaces <;> exact List.cons_ne_nil _ _

/-- The target is as it was until it has the whole content. -/
theorem Replaces.advance (hne : beside ≠ target)
    (hreplaces : Replaces disk beside target content tasks)
    (hadvance : FileTask.advance count disk tasks = some (next, rest)) :
    Replaces next beside target content rest ∧ next target = disk target ∨
      rest = [] ∧ next target = some content := by
  cases hreplaces with
  | opening =>
      obtain ⟨rfl, rfl⟩ := Prod.mk.inj (Option.some.inj hadvance)
      left
      refine ⟨.writing (Function.update_self ..) (List.nil_append _), ?_⟩
      exact Function.update_of_ne hne.symm _ _
  | @writing front left hfront hcontent =>
      obtain ⟨rfl, rfl⟩ := Prod.mk.inj (Option.some.inj hadvance)
      left
      refine ⟨?_, Function.update_of_ne hne.symm _ _⟩
      rw [hfront, Option.getD_some]
      split
      · next hdone =>
        refine .closing ?_
        have hall : left.take count = left := by
          rw [← List.append_nil (left.take count), ← hdone, List.take_append_drop]
        rw [Function.update_self, hall, hcontent]
      · refine .writing (Function.update_self ..) ?_
        rw [List.append_assoc, List.take_append_drop, hcontent]
  | closing hwritten =>
      right
      rw [FileTask.advance, hwritten] at hadvance
      obtain ⟨rfl, rfl⟩ := Prod.mk.inj (Option.some.inj hadvance)
      exact ⟨rfl, Function.update_self ..⟩

theorem Replaces.frame (hreplaces : Replaces disk beside target content tasks)
    (hadvance : FileTask.advance count disk tasks = some (next, rest)) {name : Name}
    (hbeside : name ≠ beside) (htarget : name ≠ target) : next name = disk name := by
  cases hreplaces with
  | opening =>
      obtain ⟨rfl, -⟩ := Prod.mk.inj (Option.some.inj hadvance)
      exact Function.update_of_ne hbeside _ _
  | writing hfront hcontent =>
      obtain ⟨rfl, -⟩ := Prod.mk.inj (Option.some.inj hadvance)
      exact Function.update_of_ne hbeside _ _
  | closing hwritten =>
      rw [FileTask.advance, hwritten] at hadvance
      obtain ⟨rfl, -⟩ := Prod.mk.inj (Option.some.inj hadvance)
      rw [Function.update_of_ne htarget, Function.update_of_ne hbeside]

theorem Overwrites.advance (hoverwrites : Overwrites disk target content tasks)
    (hadvance : FileTask.advance count disk tasks = some (next, rest)) :
    Overwrites next target content rest := by
  cases hoverwrites with
  | opening hparts =>
      obtain ⟨rfl, rfl⟩ := Prod.mk.inj (Option.some.inj hadvance)
      exact .writing (Function.update_self ..) ((List.nil_append _).trans hparts)
  | @writing front parts hfront hcontent =>
      cases parts with
      | nil => cases hadvance
      | cons part parts =>
          obtain ⟨rfl, rfl⟩ := Prod.mk.inj (Option.some.inj hadvance)
          rw [hfront, Option.getD_some]
          rw [List.flatten_cons] at hcontent
          split
          · next hdone =>
            refine .writing (Function.update_self ..) ?_
            have hall : part.take count = part := by
              rw [← List.append_nil (part.take count), ← hdone,
                List.take_append_drop]
            rw [hall, List.append_assoc, hcontent]
          · have hcut : (part.drop count :: parts).map (append target) =
                append target (part.drop count) :: parts.map (append target) := rfl
            rw [← hcut]
            refine .writing (Function.update_self ..) ?_
            rw [List.flatten_cons, List.append_assoc, ← List.append_assoc
              (part.take count), List.take_append_drop, hcontent]

/-- After a step the file has a part of the content, from its start. -/
theorem Overwrites.front (hoverwrites : Overwrites disk target content tasks)
    (hadvance : FileTask.advance count disk tasks = some (next, rest)) :
    ∃ front, next target = some front ∧ front <+: content := by
  cases hoverwrites with
  | opening hparts =>
      obtain ⟨rfl, -⟩ := Prod.mk.inj (Option.some.inj hadvance)
      exact ⟨[], Function.update_self .., List.nil_prefix⟩
  | @writing front parts hfront hcontent =>
      cases parts with
      | nil => cases hadvance
      | cons part parts =>
          obtain ⟨rfl, -⟩ := Prod.mk.inj (Option.some.inj hadvance)
          refine ⟨_, Function.update_self .., ?_⟩
          rw [hfront, Option.getD_some, ← hcontent, List.flatten_cons]
          exact (List.prefix_append_right_inj front).mpr
            ((List.take_prefix count part).trans (List.prefix_append _ _))

omit [DecidableEq Name] in
/-- When nothing is left to write, the file has the whole content. -/
theorem Overwrites.done (hoverwrites : Overwrites disk target content []) :
    disk target = some content := by
  generalize htasks : ([] : List (FileTask Name Letter)) = tasks at hoverwrites
  cases hoverwrites with
  | opening hparts => cases htasks
  | writing hfront hcontent =>
      obtain rfl := List.map_eq_nil_iff.mp htasks.symm
      rw [hfront, ← hcontent, List.flatten_nil, List.append_nil]

theorem Overwrites.frame (hoverwrites : Overwrites disk target content tasks)
    (hadvance : FileTask.advance count disk tasks = some (next, rest)) {name : Name}
    (hname : name ≠ target) : next name = disk name := by
  cases hoverwrites with
  | opening hparts =>
      obtain ⟨rfl, -⟩ := Prod.mk.inj (Option.some.inj hadvance)
      exact Function.update_of_ne hname _ _
  | @writing front parts hfront hcontent =>
      cases parts with
      | nil => cases hadvance
      | cons part parts =>
          obtain ⟨rfl, -⟩ := Prod.mk.inj (Option.some.inj hadvance)
          exact Function.update_of_ne hname _ _

end FileTask

end Cled.Core
