import Mathlib.Data.List.Basic
import Mathlib.Data.Option.Basic

/-!
# Machines and their runs

A component that reacts to one action after another is a partial step function
on its states: an action that is not possible in a state has no successor.
This module supplies finite runs of such machines, step conditions that hold
along a run, and the two rules that carry an invariant from one step to a whole
run.  Nothing here mentions a particular component.
-/

namespace Cled.Core

/-- A machine answers an action in a state with the next state, or with `none`
when the action is not possible there. -/
structure Machine (State Action : Type*) where
  step : State → Action → Option State

namespace Machine

variable {State Action : Type*} (machine : Machine State Action)

/-- The state after a whole list of actions. -/
def run : State → List Action → Option State
  | state, [] => some state
  | state, action :: actions =>
      (machine.step state action).bind fun next => run next actions

/-- `Along P state actions` says that `P` holds of every action of the run and
of the state the action is taken in. -/
def Along (P : State → Action → Prop) : State → List Action → Prop
  | _, [] => True
  | state, action :: actions =>
      P state action ∧
        ∀ next ∈ machine.step state action, Along P next actions

instance decidableAlong (P : State → Action → Prop)
    [∀ state action, Decidable (P state action)] :
    ∀ state actions, Decidable (machine.Along P state actions)
  | _, [] => inferInstanceAs (Decidable True)
  | state, action :: actions =>
      have : ∀ next, Decidable (machine.Along P next actions) :=
        fun next => decidableAlong P next actions
      inferInstanceAs (Decidable (P state action ∧
        ∀ next ∈ machine.step state action, machine.Along P next actions))

@[simp]
theorem run_nil (state : State) : machine.run state [] = some state := rfl

theorem run_append (state : State) (front back : List Action) :
    machine.run state (front ++ back) =
      (machine.run state front).bind fun next => machine.run next back := by
  induction front generalizing state with
  | nil => rfl
  | cons action front ih =>
      rw [List.cons_append, run, run, Option.bind_assoc]
      exact congrArg _ (funext ih)

/-- Nothing is left to do. -/
def Stuck (state : State) : Prop := ∀ action, machine.step state action = none

/-- A machine that steps as another one does runs as the other one does. -/
theorem run_render {Abstract : Type*} {machine : Machine State Action}
    {abstract : Machine Abstract Action} {render : Abstract → State}
    (hstep : ∀ state action, machine.step (render state) action =
      (abstract.step state action).map render)
    (state : Abstract) (actions : List Action) :
    machine.run (render state) actions =
      (abstract.run state actions).map render := by
  induction actions generalizing state with
  | nil => rfl
  | cons action actions ih =>
      rw [run, run, hstep, Option.map_bind, Option.bind_map]
      exact congrArg _ (funext ih)

theorem stuck_render_iff {Abstract : Type*} {machine : Machine State Action}
    {abstract : Machine Abstract Action} {render : Abstract → State}
    (hstep : ∀ state action, machine.step (render state) action =
      (abstract.step state action).map render)
    (state : Abstract) : machine.Stuck (render state) ↔ abstract.Stuck state :=
  forall_congr' fun action => by rw [hstep, Option.map_eq_none_iff]

/-- A step condition that holds along a run holds of each of its steps. -/
theorem Along.of_run {machine : Machine State Action}
    {P : State → Action → Prop} {start state : State}
    {front back : List Action} {action : Action}
    (halong : machine.Along P start (front ++ action :: back))
    (hrun : machine.run start front = some state) : P state action := by
  induction front generalizing start with
  | nil =>
      obtain rfl := Option.some.inj hrun
      exact halong.1
  | cons first front ih =>
      obtain ⟨next, hnext, hrest⟩ := Option.bind_eq_some_iff.mp hrun
      exact ih (halong.2 next hnext) hrest

/-- A step condition that holds along a run holds along its two parts. -/
theorem Along.append {machine : Machine State Action} {P : State → Action → Prop}
    {start middle : State} {front back : List Action}
    (halong : machine.Along P start (front ++ back))
    (hrun : machine.run start front = some middle) :
    machine.Along P start front ∧ machine.Along P middle back := by
  induction front generalizing start with
  | nil =>
      obtain rfl := Option.some.inj hrun
      exact ⟨trivial, halong⟩
  | cons action front ih =>
      obtain ⟨next, hnext, hrest⟩ := Option.bind_eq_some_iff.mp hrun
      obtain ⟨hfront, hback⟩ := ih (halong.2 next hnext) hrest
      refine ⟨⟨halong.1, fun other hother => ?_⟩, hback⟩
      obtain rfl := Option.some.inj (hnext.symm.trans hother)
      exact hfront

/-- What holds of all actions holds along a run of them. -/
theorem along_of_forall {P : Action → Prop} {actions : List Action}
    (hall : ∀ action ∈ actions, P action) (state : State) :
    machine.Along (fun _ action => P action) state actions := by
  induction actions generalizing state with
  | nil => trivial
  | cons action actions ih =>
      obtain ⟨hhead, htail⟩ := List.forall_mem_cons.mp hall
      exact ⟨hhead, fun next _ => ih htail next⟩

/-- Each action of a run is one of its actions. -/
theorem along_mem (state : State) (actions : List Action) :
    machine.Along (fun _ action => action ∈ actions) state actions := by
  have hof : ∀ (known : List Action) (state : State), actions ⊆ known →
      machine.Along (fun _ action => action ∈ known) state actions := by
    intro known
    induction actions with
    | nil => exact fun _ _ => trivial
    | cons action actions ih =>
        intro state hsubset
        obtain ⟨hhead, htail⟩ := List.cons_subset.mp hsubset
        exact ⟨hhead, fun next _ => ih next htail⟩
  exact hof actions state (List.Subset.refl _)

/-- Each step of a run is possible. -/
theorem along_of_run {state final : State} {actions : List Action}
    (hrun : machine.run state actions = some final) :
    machine.Along (fun state action => ∃ next,
      machine.step state action = some next) state actions := by
  induction actions generalizing state with
  | nil => trivial
  | cons action actions ih =>
      obtain ⟨next, hnext, hrest⟩ := Option.bind_eq_some_iff.mp hrun
      refine ⟨⟨next, hnext⟩, fun other hother => ?_⟩
      obtain rfl := Option.some.inj (hnext.symm.trans hother)
      exact ih hrest

section Invariant

variable {machine}
variable {Inv : State → Prop} {Allowed Good : State → Action → Prop}

/-- Invariant rule.  An invariant that every allowed step keeps holds at the end
of every run whose steps are all allowed. -/
theorem run_of_invariant
    (hstep : ∀ state action next, Inv state → Allowed state action →
      machine.step state action = some next → Inv next)
    {state final : State} {actions : List Action} (hinv : Inv state)
    (hallowed : machine.Along Allowed state actions)
    (hrun : machine.run state actions = some final) : Inv final := by
  induction actions generalizing state with
  | nil =>
      rw [run_nil, Option.some.injEq] at hrun
      exact hrun ▸ hinv
  | cons action actions ih =>
      obtain ⟨next, hnext, hrest⟩ := Option.bind_eq_some_iff.mp hrun
      obtain ⟨hhead, htail⟩ := hallowed
      exact ih (hstep state action next hinv hhead hnext)
        (htail next hnext) hrest

/-- Until rule.  If every allowed step from an invariant state keeps the
invariant or stops, a run of allowed steps keeps the invariant to its end, or one
of its steps stops, before which the invariant holds. -/
theorem run_until {Stop : State → Prop}
    (hstep : ∀ state action next, Inv state → Allowed state action →
      machine.step state action = some next → Stop next ∨ Inv next)
    {state final : State} {actions : List Action} (hinv : Inv state)
    (hallowed : machine.Along Allowed state actions)
    (hrun : machine.run state actions = some final) :
    Inv final ∨ ∃ front action back before after,
      actions = front ++ action :: back ∧ machine.run state front = some before ∧
        Inv before ∧ machine.step before action = some after ∧ Stop after := by
  induction actions generalizing state with
  | nil =>
      rw [run_nil, Option.some.injEq] at hrun
      exact .inl (hrun ▸ hinv)
  | cons action actions ih =>
      obtain ⟨next, hnext, hrest⟩ := Option.bind_eq_some_iff.mp hrun
      obtain ⟨hhead, htail⟩ := hallowed
      rcases hstep state action next hinv hhead hnext with hstop | hinvNext
      · exact .inr ⟨[], action, actions, state, next, rfl, rfl, hinv, hnext, hstop⟩
      · refine (ih hinvNext (htail next hnext) hrest).imp_right ?_
        rintro ⟨front, last, back, before, after, rfl, hfront, hlast⟩
        refine ⟨action :: front, last, back, before, after, rfl, ?_, hlast⟩
        rw [run, hnext, Option.bind_some, hfront]

/-- Measure rule.  If every allowed step makes a measure smaller, no run of
allowed steps is longer than the measure of its first state. -/
theorem length_le_of_measure {measure : State → ℕ}
    (hstep : ∀ state action next, Inv state → Allowed state action →
      machine.step state action = some next →
        Inv next ∧ measure next < measure state)
    {state final : State} {actions : List Action} (hinv : Inv state)
    (hallowed : machine.Along Allowed state actions)
    (hrun : machine.run state actions = some final) :
    actions.length ≤ measure state := by
  induction actions generalizing state with
  | nil => exact Nat.zero_le _
  | cons action actions ih =>
      obtain ⟨next, hnext, hrest⟩ := Option.bind_eq_some_iff.mp hrun
      obtain ⟨hhead, htail⟩ := hallowed
      obtain ⟨hinvNext, hlt⟩ := hstep state action next hinv hhead hnext
      exact Nat.lt_of_le_of_lt (ih hinvNext (htail next hnext) hrest) hlt

/-- Step rule.  If an allowed step from an invariant state is good and keeps the
invariant, then every step of a run of allowed steps is good. -/
theorem along_of_invariant
    (hgood : ∀ state action, Inv state → Allowed state action →
      Good state action)
    (hstep : ∀ state action next, Inv state → Allowed state action →
      machine.step state action = some next → Inv next)
    {state : State} {actions : List Action} (hinv : Inv state)
    (hallowed : machine.Along Allowed state actions) :
    machine.Along Good state actions := by
  induction actions generalizing state with
  | nil => trivial
  | cons action actions ih =>
      obtain ⟨hhead, htail⟩ := hallowed
      refine ⟨hgood state action hinv hhead, fun next hnext => ?_⟩
      exact ih (hstep state action next hinv hhead hnext) (htail next hnext)

/-- Step rule for two conditions that agree on the allowed steps from invariant
states: they hold along the same runs. -/
theorem along_congr {Other : State → Action → Prop}
    (hagree : ∀ state action, Inv state → Allowed state action →
      (Good state action ↔ Other state action))
    (hstep : ∀ state action next, Inv state → Allowed state action →
      machine.step state action = some next → Inv next)
    {state : State} {actions : List Action} (hinv : Inv state)
    (hallowed : machine.Along Allowed state actions) :
    machine.Along Good state actions ↔ machine.Along Other state actions := by
  induction actions generalizing state with
  | nil => exact Iff.rfl
  | cons action actions ih =>
      obtain ⟨hhead, htail⟩ := hallowed
      have hrest : ∀ next ∈ machine.step state action,
          (machine.Along Good next actions ↔ machine.Along Other next actions) :=
        fun next hnext =>
          ih (hstep state action next hinv hhead hnext) (htail next hnext)
      exact and_congr (hagree state action hinv hhead)
        (forall₂_congr hrest)

end Invariant

section StepInvariant

variable {machine}
variable {Inv : State → Prop} {Good : State → Action → Prop}

theorem along_true (state : State) (actions : List Action) :
    machine.Along (fun _ _ => True) state actions := by
  induction actions generalizing state with
  | nil => trivial
  | cons action actions ih => exact ⟨trivial, fun next _ => ih next⟩

/-- The invariant rule for a machine all of whose steps keep the invariant. -/
theorem run_of_step_invariant
    (hstep : ∀ state action next, Inv state →
      machine.step state action = some next → Inv next)
    {state final : State} {actions : List Action} (hinv : Inv state)
    (hrun : machine.run state actions = some final) : Inv final :=
  run_of_invariant (fun state action next hinv _ => hstep state action next hinv)
    hinv (along_true state actions) hrun

/-- The invariant rule for invariants that also speak about the actions taken so
far. -/
theorem run_of_history {Inv : List Action → State → Prop}
    (hstep : ∀ past state action next, Inv past state →
      machine.step state action = some next → Inv (past ++ [action]) next)
    {past actions : List Action} {state final : State} (hinv : Inv past state)
    (hrun : machine.run state actions = some final) :
    Inv (past ++ actions) final := by
  induction actions generalizing past state with
  | nil =>
      rw [run_nil, Option.some.injEq] at hrun
      rwa [List.append_nil, ← hrun]
  | cons action actions ih =>
      obtain ⟨next, hnext, hrest⟩ := Option.bind_eq_some_iff.mp hrun
      have htail := ih (hstep past state action next hinv hnext) hrest
      rwa [List.append_assoc] at htail

/-- The step rule for a machine all of whose steps keep the invariant. -/
theorem along_of_step_invariant
    (hgood : ∀ state action, Inv state → Good state action)
    (hstep : ∀ state action next, Inv state →
      machine.step state action = some next → Inv next)
    {state : State} (actions : List Action) (hinv : Inv state) :
    machine.Along Good state actions :=
  along_of_invariant (fun state action hinv _ => hgood state action hinv)
    (fun state action next hinv _ => hstep state action next hinv) hinv
    (along_true state actions)

end StepInvariant

end Machine

end Cled.Core
