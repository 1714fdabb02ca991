import Mathlib.Data.List.Basic
import Cled.Core.Machine
import Cled.Desktop.Control

/-!
# Setting the connection mode and the relay URL

Each setter saves the settings while it holds their lock, lets go of it, and then
hands what it saved to the relay connection.  Another setter can come in between,
so the connection follows the saved settings when the setter that hands over last
has still got what is saved.
-/

namespace Cled.Desktop

open Cled.Core

/-- The settings in memory and in their file. -/
structure SettingsState where
  /-- There is a config directory. -/
  path : Bool
  settings : Settings
  file : Option Settings

/-- Applies a change and saves.  If saving fails, nothing changes, in memory or
on disk. -/
def SettingsState.update (state : SettingsState) (change : Settings → Settings)
    (saves : Bool) : SettingsState × Except String Settings :=
  let next := change state.settings
  if state.path && !saves then (state, .error "Couldn't save settings.")
  else
    ({ state with
      settings := next
      file := if state.path then some next else state.file }, .ok next)

/-- What a setter changes. -/
inductive Change where
  | connectionMode (mode : ConnectionMode)
  | relayUrl (url : String)

def Change.apply : Change → Settings → Settings
  | .connectionMode mode, settings => { settings with connectionMode := mode }
  | .relayUrl url, settings => { settings with relayUrl := url }

/-- How far a call of a setter has got. -/
inductive Setter where
  | called (change : Change)
  /-- The settings are saved, and the relay has not heard of them. -/
  | saved (settings : Settings)
  | returned (result : Except String Settings)

def Setter.Returned : Setter → Prop
  | .returned _ => True
  | _ => False

instance : ∀ setter : Setter, Decidable setter.Returned
  | .called _ => .isFalse id
  | .saved _ => .isFalse id
  | .returned _ => .isTrue trivial

structure Configuration where
  saved : SettingsState
  control : Control
  setters : List Setter

namespace Configuration

inductive Move where
  | setConnectionMode (mode : ConnectionMode)
  | setRelayUrl (url : String)
  /-- A setter holds the lock of the settings. -/
  | update (setter : ℕ) (saves : Bool)
  | configure (setter : ℕ)
  /-- Signing in or out tells the relay. -/
  | setSignedIn (signedIn : Bool)
  deriving DecidableEq

def start (format : UrlFormat) (saved : SettingsState) (signedIn : Bool) :
    Configuration where
  saved := saved
  control := .start format
    ⟨saved.settings.connectionMode, saved.settings.relayUrl, signedIn⟩
  setters := []

def call (state : Configuration) (setter : Setter) : Configuration :=
  { state with setters := state.setters ++ [setter] }

def update (state : Configuration) (setter : ℕ) (saves : Bool) :
    Option Configuration :=
  match state.setters[setter]? with
  | some (.called change) =>
      match state.saved.update change.apply saves with
      | (saved, .ok settings) =>
          some { state with
            saved
            setters := state.setters.set setter (.saved settings) }
      | (saved, .error error) =>
          some { state with
            saved
            setters := state.setters.set setter (.returned (.error error)) }
  | _ => none

def configure (format : UrlFormat) (state : Configuration) (setter : ℕ) :
    Option Configuration :=
  match state.setters[setter]? with
  | some (.saved settings) =>
      some { state with
        control := state.control.configure format settings
        setters := state.setters.set setter (.returned (.ok settings)) }
  | _ => none

def machine (format : UrlFormat) : Machine Configuration Move where
  step state
    | .setConnectionMode mode => some (state.call (.called (.connectionMode mode)))
    | .setRelayUrl url =>
        match validateRelayUrl format url with
        | .ok url => some (state.call (.called (.relayUrl url)))
        | .error error => some (state.call (.returned (.error error)))
    | .update setter saves => state.update setter saves
    | .configure setter => state.configure format setter
    | .setSignedIn signedIn =>
        some { state with
          control := state.control.setSignedIn format signedIn }

/-! ## What a step can do -/

section Steps

variable {format : UrlFormat} {state next : Configuration} {setter : ℕ}

theorem update_eq_some {saves : Bool}
    (hstep : state.update setter saves = some next) :
    ∃ change, state.setters[setter]? = some (.called change) ∧
      ((state.saved.path && !saves) = true ∧ next = { state with
          setters := state.setters.set setter
            (.returned (.error "Couldn't save settings.")) } ∨
        (state.saved.path && !saves) = false ∧ next = { state with
          saved := { state.saved with
            settings := change.apply state.saved.settings
            file := if state.saved.path then
              some (change.apply state.saved.settings) else state.saved.file }
          setters := state.setters.set setter
            (.saved (change.apply state.saved.settings)) }) := by
  rw [update] at hstep
  split at hstep
  · next change hcalled =>
    refine ⟨change, hcalled, ?_⟩
    rw [SettingsState.update] at hstep
    by_cases hfails : (state.saved.path && !saves) = true
    · rw [if_pos hfails] at hstep
      exact .inl ⟨hfails, (Option.some.inj hstep).symm⟩
    · rw [if_neg hfails] at hstep
      exact .inr ⟨Bool.eq_false_iff.mpr hfails, (Option.some.inj hstep).symm⟩
  · cases hstep

theorem configure_eq_some (hstep : state.configure format setter = some next) :
    ∃ settings, state.setters[setter]? = some (.saved settings) ∧
      next = { state with
        control := state.control.configure format settings
        setters := state.setters.set setter (.returned (.ok settings)) } := by
  rw [configure] at hstep
  split at hstep
  · next settings hsaved => exact ⟨settings, hsaved, (Option.some.inj hstep).symm⟩
  · cases hstep

end Steps

/-! ## Nothing saved is forgotten -/

variable {format : UrlFormat} {state next final : Configuration} {move : Move}
  {moves : List Move}

/-- Settings are saved that the relay has not heard of. -/
def Waiting (state : Configuration) : Prop :=
  ∃ (setter : ℕ) (settings : Settings),
    state.setters[setter]? = some (.saved settings)

/-- The settings and what the relay knows of them are as before. -/
structure Unchanged (before state : Configuration) : Prop where
  settings : state.saved.settings = before.saved.settings
  mode : state.control.inputs.mode = before.control.inputs.mode
  relayUrl : state.control.inputs.relayUrl = before.control.inputs.relayUrl

theorem Unchanged.refl (state : Configuration) : Unchanged state state :=
  ⟨rfl, rfl, rfl⟩

theorem Waiting.call (hwaiting : state.Waiting) (setter : Setter) :
    (state.call setter).Waiting := by
  obtain ⟨number, settings, hsaved⟩ := hwaiting
  have hlt : number < state.setters.length :=
    (List.getElem?_eq_some_iff.mp hsaved).1
  exact ⟨number, settings, (List.getElem?_append_left hlt).trans hsaved⟩

/-- A setter that has not saved yet goes on, and the waiting ones wait. -/
theorem Waiting.set (hwaiting : state.Waiting) {setter : ℕ} {change : Change}
    (hcalled : state.setters[setter]? = some (.called change)) (after : Setter) :
    ∃ (number : ℕ) (settings : Settings),
      (state.setters.set setter after)[number]? = some (.saved settings) := by
  obtain ⟨number, settings, hsaved⟩ := hwaiting
  have hne : setter ≠ number := by
    rintro rfl
    rw [hcalled] at hsaved
    cases hsaved
  exact ⟨number, settings, (List.getElem?_set_ne hne).trans hsaved⟩

/-- Until a setter hands over what it saved, the settings stay as they were, or
something waits to be handed over. -/
theorem unchanged_or_waiting {before : Configuration}
    (hinv : Unchanged before state ∨ state.Waiting)
    (hmove : ∀ setter, move ≠ .configure setter)
    (hstep : (machine format).step state move = some next) :
    Unchanged before next ∨ next.Waiting := by
  have hkeep {after : Configuration}
      (hsettings : after.saved.settings = state.saved.settings)
      (hmode : after.control.inputs.mode = state.control.inputs.mode)
      (hurl : after.control.inputs.relayUrl = state.control.inputs.relayUrl)
      (hwait : state.Waiting → after.Waiting) :
      Unchanged before after ∨ after.Waiting :=
    hinv.imp (fun hsame => ⟨hsettings.trans hsame.settings,
      hmode.trans hsame.mode, hurl.trans hsame.relayUrl⟩) hwait
  cases move with
  | setConnectionMode mode =>
      obtain rfl := Option.some.inj hstep
      exact hkeep rfl rfl rfl (·.call _)
  | setRelayUrl url =>
      dsimp only [machine] at hstep
      split at hstep
      all_goals
        obtain rfl := Option.some.inj hstep
        exact hkeep rfl rfl rfl (·.call _)
  | update setter saves =>
      obtain ⟨change, hcalled, ⟨-, rfl⟩ | ⟨-, rfl⟩⟩ := update_eq_some hstep
      · exact hkeep rfl rfl rfl (·.set hcalled _)
      · have hlt : setter < state.setters.length :=
          (List.getElem?_eq_some_iff.mp hcalled).1
        exact .inr ⟨setter, _, List.getElem?_set_self hlt⟩
  | configure setter => exact absurd rfl (hmove setter)
  | setSignedIn signedIn =>
      obtain rfl := Option.some.inj hstep
      exact hkeep rfl rfl rfl id

/-- When all setters have returned, nothing has changed since one handed over
last. -/
theorem unchanged_of_run
    (hreturned : ∀ setter ∈ final.setters, setter.Returned)
    (hlast : ∀ setter, .configure setter ∉ moves)
    (hrun : (machine format).run state moves = some final) :
    Unchanged state final := by
  have hstep : ∀ now move next, (Unchanged state now ∨ now.Waiting) →
      move ∈ moves → (machine format).step now move = some next →
        Unchanged state next ∨ next.Waiting :=
    fun now move next hinv hmem hstep => unchanged_or_waiting hinv
      (fun setter heq => hlast setter (heq ▸ hmem)) hstep
  rcases Machine.run_of_invariant hstep (.inl (Unchanged.refl state))
    ((machine format).along_mem state moves) hrun with hsame | hwaiting
  · exact hsame
  · obtain ⟨setter, settings, hsaved⟩ := hwaiting
    exact (hreturned _ (List.mem_of_getElem? hsaved)).elim

/-! ## The file and the connection task -/

/-- Whether the last save succeeded. -/
def lastSave (moves : List Move) : Option Bool :=
  (moves.filterMap fun
    | .update _ saves => some saves
    | _ => none).getLast?

theorem lastSave_concat (moves : List Move) (move : Move) :
    lastSave (moves ++ [move]) =
      match move with
      | .update _ saves => some saves
      | _ => lastSave moves := by
  rw [lastSave, List.filterMap_append]
  cases move with
  | update setter saves => exact List.getLast?_concat
  | setConnectionMode | setRelayUrl | configure | setSignedIn =>
      exact congrArg _ (List.append_nil _)

/-- What holds whatever the order. -/
structure Kept (format : UrlFormat) (moves : List Move) (state : Configuration) :
    Prop where
  file : lastSave moves = some true → state.saved.path = true →
    state.saved.file = some state.saved.settings
  derived : state.control.Derived format

theorem Kept.step (past : List Move) (state : Configuration) (move : Move)
    (next : Configuration) (hkept : Kept format past state)
    (hstep : (machine format).step state move = some next) :
    Kept format (past ++ [move]) next := by
  have hfile (hno : ∀ setter saves, move ≠ .update setter saves)
      (hsaved : next.saved = state.saved) :
      lastSave (past ++ [move]) = some true → next.saved.path = true →
        next.saved.file = some next.saved.settings := by
    rw [lastSave_concat, hsaved]
    cases move with
    | update setter saves => exact absurd rfl (hno setter saves)
    | setConnectionMode | setRelayUrl | configure | setSignedIn =>
        exact hkept.file
  cases move with
  | setConnectionMode mode =>
      obtain rfl := Option.some.inj hstep
      exact ⟨hfile nofun rfl, hkept.derived⟩
  | setRelayUrl url =>
      dsimp only [machine] at hstep
      split at hstep
      all_goals
        obtain rfl := Option.some.inj hstep
        exact ⟨hfile nofun rfl, hkept.derived⟩
  | update setter saves =>
      obtain ⟨change, -, ⟨hfails, rfl⟩ | ⟨-, rfl⟩⟩ := update_eq_some hstep
      · refine ⟨fun hsave hpath => ?_, hkept.derived⟩
        rw [lastSave_concat, Option.some.injEq] at hsave
        simp [hsave] at hfails
      · refine ⟨fun _ hpath => ?_, hkept.derived⟩
        exact if_pos hpath
  | configure setter =>
      obtain ⟨settings, -, rfl⟩ := configure_eq_some hstep
      exact ⟨hfile nofun rfl, state.control.derived_update format _⟩
  | setSignedIn signedIn =>
      obtain rfl := Option.some.inj hstep
      exact ⟨hfile nofun rfl, state.control.derived_update format _⟩

theorem kept_of_run {saved : SettingsState} {signedIn : Bool}
    (hrun : (machine format).run (start format saved signedIn) moves =
      some final) : Kept format moves final := by
  have hstart : Kept format [] (start format saved signedIn) :=
    ⟨nofun, Control.derived_start format _⟩
  exact Machine.run_of_history Kept.step hstart hrun

/-! ## When the relay follows the settings -/

/-- The relay connection follows the saved settings. -/
structure Follows (format : UrlFormat) (moves : List Move)
    (state : Configuration) : Prop where
  mode : state.control.inputs.mode = state.saved.settings.connectionMode
  relayUrl : state.control.inputs.relayUrl = state.saved.settings.relayUrl
  file : lastSave moves = some true → state.saved.path = true →
    state.saved.file = some state.saved.settings
  desired : state.control.desired = .fromInputs format state.control.inputs

/-- Between the save of the setter that hands over last and its handing over, the
saves of the others come to the same settings. -/
def LastIsSaved (format : UrlFormat) (start : Configuration)
    (moves : List Move) : Prop :=
  ∀ earlier setter saves between back saved before,
    moves = earlier ++ .update setter saves :: between ++ .configure setter :: back →
    (∀ other, .configure other ∉ back) →
    (machine format).run start (earlier ++ [.update setter saves]) = some saved →
    (machine format).run saved between = some before →
      before.saved.settings = saved.saved.settings

/-- The setter waits with these settings, or has returned. -/
def Done (setter : ℕ) (settings : Settings) (state : Configuration) : Prop :=
  state.setters[setter]? = some (.saved settings) ∨
    ∃ result, state.setters[setter]? = some (.returned result)

theorem done_of_update {setter : ℕ} {saves : Bool}
    (hstep : state.update setter saves = some next) :
    Done setter next.saved.settings next := by
  obtain ⟨change, hcalled, hnext⟩ := update_eq_some hstep
  have hlt : setter < state.setters.length :=
    (List.getElem?_eq_some_iff.mp hcalled).1
  obtain ⟨-, rfl⟩ | ⟨-, rfl⟩ := hnext
  · exact .inr ⟨_, List.getElem?_set_self hlt⟩
  · exact .inl (List.getElem?_set_self hlt)

/-- What a step does to one setter. -/
theorem setter_of_step (setter : ℕ)
    (hstep : (machine format).step state move = some next) :
    next.setters[setter]? = state.setters[setter]? ∨
    (state.setters[setter]? = none ∧
      ∀ settings, next.setters[setter]? ≠ some (.saved settings)) ∨
    (∃ saves change, move = .update setter saves ∧
      state.setters[setter]? = some (.called change) ∧
        Done setter next.saved.settings next) ∨
    ∃ settings result, state.setters[setter]? = some (.saved settings) ∧
      next.setters[setter]? = some (.returned result) := by
  have hcall {added : Setter} (hadded : ∀ settings, added ≠ .saved settings) :
      (state.call added).setters[setter]? = state.setters[setter]? ∨
        (state.setters[setter]? = none ∧ ∀ settings,
          (state.call added).setters[setter]? ≠ some (.saved settings)) := by
    rw [call]
    rcases Nat.lt_or_ge setter state.setters.length with hlt | hge
    · exact .inl (List.getElem?_append_left hlt)
    · refine .inr ⟨List.getElem?_eq_none hge, fun settings hat => ?_⟩
      rw [List.getElem?_append_right hge] at hat
      have hmem := List.mem_singleton.mp (List.mem_of_getElem? hat)
      exact hadded settings hmem.symm
  have hset {other : ℕ} (after : Setter) (hne : other ≠ setter) :
      (state.setters.set other after)[setter]? = state.setters[setter]? :=
    List.getElem?_set_ne hne
  cases move with
  | setConnectionMode mode =>
      obtain rfl := Option.some.inj hstep
      exact (hcall (by simp)).imp_right .inl
  | setRelayUrl url =>
      dsimp only [machine] at hstep
      split at hstep
      all_goals
        obtain rfl := Option.some.inj hstep
        exact (hcall (by simp)).imp_right .inl
  | update other saves =>
      obtain ⟨change, hcalled, hnext⟩ := update_eq_some hstep
      by_cases hsame : other = setter
      · subst hsame
        exact .inr (.inr (.inl ⟨saves, change, rfl, hcalled, done_of_update hstep⟩))
      · left
        obtain ⟨-, rfl⟩ | ⟨-, rfl⟩ := hnext
        · exact hset _ hsame
        · exact hset _ hsame
  | configure other =>
      obtain ⟨settings, hwaits, rfl⟩ := configure_eq_some hstep
      by_cases hsame : other = setter
      · subst hsame
        have hlt : other < state.setters.length :=
          (List.getElem?_eq_some_iff.mp hwaits).1
        exact .inr (.inr (.inr ⟨settings, _, hwaits, List.getElem?_set_self hlt⟩))
      · exact .inl (hset _ hsame)
  | setSignedIn signedIn =>
      obtain rfl := Option.some.inj hstep
      exact .inl rfl

/-- What a setter has saved does not change while it waits. -/
theorem Done.step {setter : ℕ} {settings : Settings}
    (hdone : Done setter settings state)
    (hstep : (machine format).step state move = some next) :
    Done setter settings next := by
  rcases setter_of_step setter hstep with
    hsame | ⟨hnone, -⟩ | ⟨saves, change, -, hcalled, -⟩ | ⟨_, result, -, hreturned⟩
  · rwa [Done, hsame]
  · rw [Done, hnone] at hdone
    simp at hdone
  · rw [Done, hcalled] at hdone
    simp at hdone
  · exact .inr ⟨result, hreturned⟩

theorem settings_of_done {setter : ℕ} {settings handed : Settings}
    {saved before : Configuration}
    (hdone : Done setter settings saved)
    (hrun : (machine format).run saved moves = some before)
    (hwaits : before.setters[setter]? = some (.saved handed)) :
    handed = settings := by
  have hlater : Done setter settings before := Machine.run_of_step_invariant
    (fun _ _ _ hdone hstep => hdone.step hstep) hdone hrun
  rcases hlater with hat | ⟨_, hat⟩
  · exact Setter.saved.inj (Option.some.inj (hwaits.symm.trans hat))
  · cases hwaits.symm.trans hat

/-- A setter begins to wait when it saves. -/
theorem waits_of_step {setter : ℕ} {settings : Settings}
    (hstep : (machine format).step state move = some next)
    (hwaits : next.setters[setter]? = some (.saved settings)) :
    state.setters[setter]? = some (.saved settings) ∨
      ∃ saves, move = .update setter saves := by
  rcases setter_of_step setter hstep with
    hsame | ⟨-, hnew⟩ | ⟨saves, change, hmove, -⟩ | ⟨_, result, -, hreturned⟩
  · exact .inl (hsame.symm.trans hwaits)
  · exact absurd hwaits (hnew settings)
  · exact .inr ⟨saves, hmove⟩
  · cases hwaits.symm.trans hreturned

theorem exists_update_of_waits {first before : Configuration} {front : List Move}
    {setter : ℕ} {settings : Settings}
    (hfirst : first.setters = [])
    (hrun : (machine format).run first front = some before)
    (hwaits : before.setters[setter]? = some (.saved settings)) :
    ∃ earlier saves between saved,
      front = earlier ++ .update setter saves :: between ∧
      (machine format).run first (earlier ++ [.update setter saves]) =
        some saved ∧
      (machine format).run saved between = some before ∧
      settings = saved.saved.settings := by
  induction front using List.reverseRecOn generalizing before with
  | nil =>
      obtain rfl := Option.some.inj hrun
      rw [hfirst] at hwaits
      cases hwaits
  | append_singleton front move ih =>
      have hwhole := hrun
      rw [Machine.run_append] at hrun
      obtain ⟨middle, hfront, hlast⟩ := Option.bind_eq_some_iff.mp hrun
      obtain ⟨after, hstep, hafter⟩ := Option.bind_eq_some_iff.mp hlast
      obtain rfl := Option.some.inj hafter
      rcases waits_of_step hstep hwaits with hbefore | ⟨saves, rfl⟩
      · obtain ⟨earlier, saves, between, saved, rfl, hsaved, hbetween, hsettings⟩ :=
          ih hfront hbefore
        refine ⟨earlier, saves, between ++ [move], saved, by simp, hsaved, ?_,
          hsettings⟩
        rw [Machine.run_append, hbetween]
        exact hlast
      · have hdone := done_of_update hstep
        exact ⟨front, saves, [], after, rfl, hwhole, rfl,
          settings_of_done hdone (Machine.run_nil (machine format) _) hwaits⟩

/-- The last setter that hands over, if one does. -/
theorem exists_last_configure (moves : List Move) :
    (∀ setter, .configure setter ∉ moves) ∨
      ∃ front setter back, moves = front ++ .configure setter :: back ∧
        ∀ other, .configure other ∉ back := by
  induction moves with
  | nil => exact .inl fun _ => List.not_mem_nil
  | cons move moves ih =>
      rcases ih with hnone | ⟨front, setter, back, rfl, hback⟩
      · cases move with
        | configure setter => exact .inr ⟨[], setter, moves, rfl, hnone⟩
        | setConnectionMode | setRelayUrl | update | setSignedIn =>
            refine .inl fun setter hmem => ?_
            rcases List.mem_cons.mp hmem with heq | hmem
            · cases heq
            · exact hnone setter hmem
      · exact .inr ⟨move :: front, setter, back, rfl, hback⟩

/-- What a run that hands over comes to: what was handed over last. -/
theorem inputs_of_run {front back : List Move} {setter : ℕ}
    {start : Configuration}
    (hreturned : ∀ setter ∈ final.setters, setter.Returned)
    (hback : ∀ other, .configure other ∉ back)
    (hrun : (machine format).run start (front ++ .configure setter :: back) =
      some final) :
    ∃ before settings, (machine format).run start front = some before ∧
      before.setters[setter]? = some (.saved settings) ∧
      final.saved.settings = before.saved.settings ∧
      final.control.inputs.mode = settings.connectionMode ∧
      final.control.inputs.relayUrl = settings.relayUrl := by
  rw [Machine.run_append] at hrun
  obtain ⟨before, hfront, hrest⟩ := Option.bind_eq_some_iff.mp hrun
  obtain ⟨after, hstep, hlast⟩ := Option.bind_eq_some_iff.mp hrest
  obtain ⟨settings, hsaved, rfl⟩ := configure_eq_some hstep
  have hsame := unchanged_of_run hreturned hback hlast
  exact ⟨before, settings, hfront, hsaved, hsame.settings, hsame.mode,
    hsame.relayUrl⟩

/-- Once all setters have returned, the relay connection follows the settings if
and only if, when the last setter handed over, the settings were still those that
it had saved. -/
theorem follows_iff_last_is_saved {saved : SettingsState} {signedIn : Bool}
    (hrun : (machine format).run (start format saved signedIn) moves =
      some final)
    (hreturned : ∀ setter ∈ final.setters, setter.Returned) :
    Follows format moves final ↔
      LastIsSaved format (start format saved signedIn) moves := by
  constructor
  · rintro hfollows earlier setter saves between back stored before rfl hback
      hstored hbetween
    have hfront : (machine format).run (start format saved signedIn)
        (earlier ++ .update setter saves :: between) = some before := by
      rw [List.append_cons, Machine.run_append, hstored]
      exact hbetween
    obtain ⟨same, handed, hsame, hhanded, hsettings, hmode, hurl⟩ :=
      inputs_of_run hreturned hback hrun
    obtain rfl := Option.some.inj (hfront.symm.trans hsame)
    rw [Machine.run_append] at hstored
    obtain ⟨middle, -, hlast⟩ := Option.bind_eq_some_iff.mp hstored
    obtain ⟨after, hstep, hafter⟩ := Option.bind_eq_some_iff.mp hlast
    obtain rfl := Option.some.inj hafter
    rw [← settings_of_done (done_of_update hstep) hbetween hhanded, ← hsettings]
    exact Settings.ext (hfollows.mode.symm.trans hmode)
      (hfollows.relayUrl.symm.trans hurl)
  · intro hlast
    have hkept := kept_of_run hrun
    rcases exists_last_configure moves with hnone | ⟨front, setter, back, rfl, hback⟩
    · have hsame := unchanged_of_run hreturned hnone hrun
      refine ⟨?_, ?_, hkept.file, hkept.derived⟩
      · rw [hsame.mode, hsame.settings]
        rfl
      · rw [hsame.relayUrl, hsame.settings]
        rfl
    · obtain ⟨before, settings, hfront, hwaits, hsettings, hmode, hurl⟩ :=
        inputs_of_run hreturned hback hrun
      obtain ⟨earlier, saves, between, stored, rfl, hstored, hbetween, rfl⟩ :=
        exists_update_of_waits rfl hfront hwaits
      have hfresh := hlast earlier setter saves between back stored before rfl
        hback hstored hbetween
      refine ⟨?_, ?_, hkept.file, hkept.derived⟩
      · rw [hmode, hsettings, hfresh]
      · rw [hurl, hsettings, hfresh]

def exampleSaved : SettingsState := ⟨true, ⟨.lan, "https://a.example"⟩, none⟩

/-- One setter saves relay mode and another one LAN mode; they hand over in the
order they saved. -/
def inOrder : List Move :=
  [.setConnectionMode .relay, .setConnectionMode .lan, .update 0 true,
    .update 1 true, .configure 0, .configure 1]

theorem follows_iff_last_is_saved_inOrder :
    ∃ final, (machine exampleUrls).run (start exampleUrls exampleSaved false)
        inOrder = some final ∧
      final.control.inputs.mode = final.saved.settings.connectionMode ∧
      LastIsSaved exampleUrls (start exampleUrls exampleSaved false) inOrder := by
  refine ⟨_, rfl, rfl, ?_⟩
  exact (follows_iff_last_is_saved rfl (by decide)).mp
    ⟨rfl, rfl, fun _ _ => rfl, rfl⟩

/-- They hand over the other way round. -/
def crossed : List Move :=
  [.setConnectionMode .relay, .setConnectionMode .lan, .update 0 true,
    .update 1 true, .configure 1, .configure 0]

/-- LAN mode is saved, and the relay connection stays in relay mode. -/
theorem not_follows_crossed :
    ∃ final, (machine exampleUrls).run (start exampleUrls exampleSaved false)
        crossed = some final ∧
      (∀ setter ∈ final.setters, setter.Returned) ∧
      final.saved.settings.connectionMode = .lan ∧
      final.saved.file = some final.saved.settings ∧
      final.control.inputs.mode = .relay ∧
      ¬ Follows exampleUrls crossed final := by
  refine ⟨_, rfl, by decide, rfl, rfl, rfl, fun hfollows => ?_⟩
  cases hfollows.mode

end Configuration

end Cled.Desktop
