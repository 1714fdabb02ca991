import Mathlib.Data.Fintype.Basic
import Mathlib.Data.Finset.Dedup
import Mathlib.Logic.Function.Basic
import Mathlib.Logic.ExistsUnique
import Cled.Core.Machine

/-!
# Two sides that keep one of several sessions

The same sessions arrive at two sides, at each in its own order.  A side keeps
one session: the first that arrives, until one that it prefers takes its place.
A session that one side turned down, replaced or ended also ends on the other
side, which then gives up its place.

Both sides prefer the same sessions.  They are sure to agree in the end exactly
if one session is preferred to all others.  Otherwise each side can keep one
that the other turns down, and both lose what they have.
-/

namespace Cled.Core

inductive Side where
  | lower
  | higher
  deriving DecidableEq

namespace Side

def other : Side → Side
  | lower => higher
  | higher => lower

theorem other_ne (side : Side) : side.other ≠ side := by
  cases side <;> nofun

end Side

/-- How far a session is on one side. -/
inductive Stage where
  | checking
  | inserting
  | reading
  | ended
  | done
  deriving DecidableEq

inductive StageAction (Session : Type*) where
  | check (session : Session)
  | insert (session : Session)
  | readEnds (session : Session)
  | unregister (session : Session)

/-- One of the two sides. -/
structure Half (Session : Type*) where
  stage : Session → Stage
  /-- The session it keeps. -/
  table : Option Session

namespace Half

variable {Session : Type*} [DecidableEq Session]
variable (Preferred : Session → Prop) [DecidablePred Preferred]

/-- Every session is about to arrive. -/
def start : Half Session := { stage := fun _ => .checking, table := none }

def reach (half : Half Session) (session : Session) (stage : Stage) :
    Half Session :=
  { half with stage := Function.update half.stage session stage }

/-- The session arrives.  Only a preferred one takes the place of another, and
only of one that is not. -/
def insert (half : Half Session) (session : Session) : Half Session :=
  let inserted : Half Session := { half with table := some session }
  match half.table with
  | some existing =>
      if Preferred existing ∨ ¬ Preferred session then
        half.reach session .done
      else inserted.reach session .reading
  | none => inserted.reach session .reading

/-- The session gives up its place, if it has it. -/
def release (half : Half Session) (session : Session) : Half Session :=
  if half.table = some session then { half with table := none } else half

def step (half : Half Session) : StageAction Session → Option (Half Session)
  | .check session =>
      if half.stage session = .checking then
        some (half.reach session .inserting)
      else none
  | .insert session =>
      if half.stage session = .inserting then
        some (half.insert Preferred session)
      else none
  | .readEnds session =>
      if half.stage session = .reading then some (half.reach session .ended)
      else none
  | .unregister session =>
      if half.stage session = .ended then
        some ((half.release session).reach session .done)
      else none

def machine : Machine (Half Session) (StageAction Session) := ⟨step Preferred⟩

/-- This side has turned the session down, replaced it or ended it. -/
def Closed (half : Half Session) (session : Session) : Prop :=
  match half.stage session with
  | .reading => half.table ≠ some session
  | .ended | .done => True
  | _ => False

instance (half : Half Session) (session : Session) :
    Decidable (half.Closed session) := by
  unfold Closed
  split <;> infer_instance

end Half

/-! ## Both sides -/

abbrev Halves (Session : Type*) := Side → Half Session

namespace Halves

variable {Session : Type*} [DecidableEq Session]
variable (Preferred : Session → Prop) [DecidablePred Preferred]

def start : Halves Session := fun _ => Half.start

/-- A session ends on one side because the other has closed it. -/
def Enabled (halves : Halves Session) (side : Side) :
    StageAction Session → Prop
  | .readEnds session => (halves side.other).Closed session
  | _ => True

instance (halves : Halves Session) (side : Side) :
    DecidablePred (halves.Enabled side)
  | .readEnds session =>
      inferInstanceAs (Decidable ((halves side.other).Closed session))
  | .check _ => inferInstanceAs (Decidable True)
  | .insert _ => inferInstanceAs (Decidable True)
  | .unregister _ => inferInstanceAs (Decidable True)

def step (halves : Halves Session) (action : Side × StageAction Session) :
    Option (Halves Session) :=
  if halves.Enabled action.1 action.2 then
    ((halves action.1).step Preferred action.2).map
      (Function.update halves action.1)
  else none

def machine : Machine (Halves Session) (Side × StageAction Session) :=
  ⟨step Preferred⟩

/-- Both sides keep the same session, a preferred one if there is any. -/
def KeepSame (halves : Halves Session) : Prop :=
  ∃ session, (∀ side, (halves side).table = some session) ∧
    ((∃ other, Preferred other) → Preferred session)

/-- It is preferred to all others. -/
def Best (session : Session) : Prop :=
  ∀ other, other ≠ session → Preferred session ∧ ¬ Preferred other

end Halves

/-! ## The best session is kept -/

namespace Half

variable {Session : Type*} [DecidableEq Session]
variable {Preferred : Session → Prop} [DecidablePred Preferred]
variable {half next : Half Session} {session : Session}

@[simp]
theorem reach_table (half : Half Session) (session : Session) (stage : Stage) :
    (half.reach session stage).table = half.table := rfl

@[simp]
theorem reach_stage_self (half : Half Session) (session : Session)
    (stage : Stage) : (half.reach session stage).stage session = stage :=
  Function.update_self _ _ _

theorem reach_stage_of_ne (half : Half Session) {session other : Session}
    (hother : other ≠ session) (stage : Stage) :
    (half.reach session stage).stage other = half.stage other :=
  Function.update_of_ne hother _ _

/-- The session will be kept, and is kept as soon as it is in place. -/
structure Keeps (half : Half Session) (session : Session) : Prop where
  alive : half.stage session = .checking ∨ half.stage session = .inserting ∨
    half.stage session = .reading
  table : half.table = some session ↔ half.stage session = .reading

omit [DecidableEq Session] in
theorem keeps_start (session : Session) : (start : Half Session).Keeps session :=
  ⟨Or.inl rfl, iff_of_false nofun nofun⟩

omit [DecidableEq Session] in
theorem Keeps.not_closed (hkeeps : half.Keeps session) :
    ¬ half.Closed session := by
  intro hclosed
  unfold Closed at hclosed
  rcases hkeeps.alive with hstage | hstage | hstage
  · rw [hstage] at hclosed
    exact hclosed
  · rw [hstage] at hclosed
    exact hclosed
  · rw [hstage] at hclosed
    exact hclosed (hkeeps.table.mpr hstage)

/-- Another session moves on, and the place stays as it is, or was not the
session's and is not now. -/
theorem Keeps.of_other (hkeeps : half.Keeps session) {other : Session}
    (hother : other ≠ session) (stage : Stage) {table : Option Session}
    (htable : table = some session ↔ half.table = some session) :
    ({ half with table }.reach other stage).Keeps session := by
  have hstage : ({ half with table }.reach other stage).stage session =
      half.stage session := reach_stage_of_ne _ hother.symm stage
  refine ⟨?_, ?_⟩
  · rw [hstage]
    exact hkeeps.alive
  · rw [hstage]
    exact htable.trans hkeeps.table

theorem Keeps.insert (hkeeps : half.Keeps session)
    (hbest : Halves.Best Preferred session) {other : Session}
    (hinserting : half.stage other = .inserting) :
    (half.insert Preferred other).Keeps session := by
  unfold Half.insert
  by_cases hother : other = session
  · subst hother
    have hreplaced : ({ half with table := some other }.reach other
        .reading).Keeps other := by
      refine ⟨Or.inr (Or.inr (reach_stage_self _ _ _)), ?_⟩
      exact iff_of_true rfl (reach_stage_self _ _ _)
    split
    · next existing htable =>
      have hdifferent : existing ≠ other := by
        rintro rfl
        exact absurd (hinserting.symm.trans (hkeeps.table.mp htable)) nofun
      obtain ⟨hpreferred, hnot⟩ := hbest existing hdifferent
      rw [if_neg (not_or.mpr ⟨hnot, not_not.mpr hpreferred⟩)]
      exact hreplaced
    · exact hreplaced
  · obtain ⟨_, hnotOther⟩ := hbest other hother
    split
    · rw [if_pos (Or.inr hnotOther)]
      exact hkeeps.of_other hother .done Iff.rfl
    · next htable =>
      refine hkeeps.of_other hother .reading ?_
      rw [htable]
      exact iff_of_false (fun heq => hother (Option.some.inj heq)) nofun

theorem Keeps.release (hkeeps : half.Keeps session) {other : Session}
    (hother : other ≠ session) :
    ((half.release other).reach other .done).Keeps session := by
  unfold Half.release
  split
  · next htable =>
    refine hkeeps.of_other hother .done (iff_of_false nofun ?_)
    rw [htable]
    exact fun heq => hother (Option.some.inj heq)
  · exact hkeeps.of_other hother .done Iff.rfl

theorem Keeps.step (hkeeps : half.Keeps session)
    (hbest : Halves.Best Preferred session) {action : StageAction Session}
    (hends : action ≠ .readEnds session)
    (hstep : half.step Preferred action = some next) : next.Keeps session := by
  cases action with
  | check other =>
      obtain ⟨hchecking, hnext⟩ := Option.ite_none_right_eq_some.mp hstep
      obtain rfl := Option.some.inj hnext
      by_cases hother : other = session
      · subst hother
        refine ⟨Or.inr (Or.inl (reach_stage_self _ _ _)), ?_⟩
        rw [reach_stage_self, reach_table, hkeeps.table, hchecking]
        exact iff_of_false nofun nofun
      · exact hkeeps.of_other hother .inserting Iff.rfl
  | insert other =>
      obtain ⟨hinserting, hnext⟩ := Option.ite_none_right_eq_some.mp hstep
      obtain rfl := Option.some.inj hnext
      exact hkeeps.insert hbest hinserting
  | readEnds other =>
      obtain ⟨_, hnext⟩ := Option.ite_none_right_eq_some.mp hstep
      obtain rfl := Option.some.inj hnext
      have hother : other ≠ session := fun heq => hends (heq ▸ rfl)
      exact hkeeps.of_other hother .ended Iff.rfl
  | unregister other =>
      obtain ⟨hended, hnext⟩ := Option.ite_none_right_eq_some.mp hstep
      obtain rfl := Option.some.inj hnext
      have hother : other ≠ session := by
        rintro rfl
        have halive := hkeeps.alive
        rw [hended] at halive
        exact absurd halive (by decide)
      exact hkeeps.release hother

/-- Where nothing is left to do, it is in place. -/
theorem Keeps.table_of_stuck (hkeeps : half.Keeps session)
    (hcheck : half.step Preferred (.check session) = none)
    (hinsert : half.step Preferred (.insert session) = none) :
    half.table = some session := by
  rcases hkeeps.alive with hstage | hstage | hstage
  · exact absurd hstage (by simpa [Half.step] using hcheck)
  · exact absurd hstage (by simpa [Half.step] using hinsert)
  · exact hkeeps.table.mpr hstage

end Half

namespace Halves

variable {Session : Type*} [DecidableEq Session]
variable {Preferred : Session → Prop} [DecidablePred Preferred]

theorem keeps_step {halves next : Halves Session} {session : Session}
    (hbest : Best Preferred session)
    (hkeeps : ∀ side, (halves side).Keeps session)
    {action : Side × StageAction Session}
    (hstep : halves.step Preferred action = some next) (side : Side) :
    (next side).Keeps session := by
  obtain ⟨henabled, hmap⟩ := Option.ite_none_right_eq_some.mp hstep
  obtain ⟨after, hafter, rfl⟩ := Option.map_eq_some_iff.mp hmap
  have hends : action.2 ≠ .readEnds session := by
    intro heq
    rw [heq] at henabled
    exact (hkeeps action.1.other).not_closed henabled
  by_cases hside : side = action.1
  · subst hside
    rw [Function.update_self]
    exact (hkeeps action.1).step hbest hends hafter
  · rw [Function.update_of_ne hside]
    exact hkeeps side

theorem keepSame_of_best {session : Session} (hbest : Best Preferred session)
    {actions : List (Side × StageAction Session)} {final : Halves Session}
    (hrun : (machine Preferred).run start actions = some final)
    (hstuck : (machine Preferred).Stuck final) : KeepSame Preferred final := by
  let Inv : Halves Session → Prop := fun halves =>
    ∀ side, (halves side).Keeps session
  have hstep : ∀ halves action next, Inv halves →
      (machine Preferred).step halves action = some next → Inv next :=
    fun _ _ _ hkeeps hnext => keeps_step hbest hkeeps hnext
  have hfinal : Inv final :=
    Machine.run_of_step_invariant hstep (fun _ => Half.keeps_start session) hrun
  refine ⟨session, fun side => ?_, ?_⟩
  · have hcheck : (final side).step Preferred (.check session) = none :=
      Option.map_eq_none_iff.mp (hstuck (side, .check session))
    have hinsert : (final side).step Preferred (.insert session) = none :=
      Option.map_eq_none_iff.mp (hstuck (side, .insert session))
    exact (hfinal side).table_of_stuck hcheck hinsert
  · rintro ⟨other, hother⟩
    by_cases hsame : other = session
    · exact hsame ▸ hother
    · exact (hbest other hsame).1

end Halves

/-! ## Otherwise the sides can lose everything -/

/-- No session takes the place of this one. -/
def Unbeaten {Session : Type*} (Preferred : Session → Prop)
    (session : Session) : Prop :=
  ∀ other, Preferred session ∨ ¬ Preferred other

namespace Half

variable {Session : Type*} [DecidableEq Session]
variable {Preferred : Session → Prop} [DecidablePred Preferred]

/-- The sessions arrive one after another. -/
def arrivals (sessions : List Session) : List (StageAction Session) :=
  sessions.flatMap fun session => [.check session, .insert session]

theorem run_checkInsert {half : Half Session} {session : Session}
    (hchecking : half.stage session = .checking) :
    (machine Preferred).run half [.check session, .insert session] =
      some ((half.reach session .inserting).insert Preferred session) := by
  have hcheck : (machine Preferred).step half (.check session) =
      some (half.reach session .inserting) := if_pos hchecking
  have hinsert : (machine Preferred).step (half.reach session .inserting)
      (.insert session) =
        some ((half.reach session .inserting).insert Preferred session) :=
    if_pos (reach_stage_self _ _ _)
  rw [Machine.run, hcheck, Option.bind_some, Machine.run, hinsert]
  rfl

/-- While an unbeaten session is in place, every other is turned down. -/
theorem run_arrivals {kept : Session} (hunbeaten : Unbeaten Preferred kept)
    {sessions : List Session} (honce : sessions.Nodup) {half : Half Session}
    (htable : half.table = some kept)
    (hchecking : ∀ session ∈ sessions, half.stage session = .checking) :
    (machine Preferred).run half (arrivals sessions) =
      some
        { half with
          stage := fun session =>
            if session ∈ sessions then .done else half.stage session } := by
  induction sessions generalizing half with
  | nil => simp [arrivals]
  | cons first sessions ih =>
      obtain ⟨hfirst, honce⟩ := List.nodup_cons.mp honce
      obtain ⟨hfirstChecking, hchecking⟩ := List.forall_mem_cons.mp hchecking
      let after := (half.reach first .inserting).reach first .done
      have hdown : (half.reach first .inserting).insert Preferred first =
          after := by
        simp only [Half.insert, reach_table, htable, if_pos (hunbeaten first)]
        rfl
      have hstage : ∀ session, session ≠ first →
          after.stage session = half.stage session := by
        intro session hother
        rw [reach_stage_of_ne _ hother, reach_stage_of_ne _ hother]
      have hafter : after.table = some kept := htable
      have hrest : ∀ session ∈ sessions, after.stage session = .checking := by
        intro session hmem
        have hother : session ≠ first := fun heq => hfirst (heq ▸ hmem)
        rw [hstage session hother]
        exact hchecking session hmem
      change (machine Preferred).run half
        ([.check first, .insert first] ++ arrivals sessions) = _
      rw [Machine.run_append, run_checkInsert hfirstChecking, hdown,
        Option.bind_some, ih honce hafter hrest]
      congr 2
      funext session
      by_cases hsame : session = first
      · subst hsame
        rw [if_neg hfirst, if_pos List.mem_cons_self, reach_stage_self]
      · rw [hstage session hsame]
        simp only [List.mem_cons, hsame, false_or]

/-- The session arrives before all others. -/
noncomputable def arrivesFirst [Fintype Session] (kept : Session) :
    List (StageAction Session) :=
  [.check kept, .insert kept] ++ arrivals (Finset.univ.erase kept).toList

theorem arrivesFirst_arrive [Fintype Session] {kept : Session}
    {action : StageAction Session} (hmem : action ∈ arrivesFirst kept) :
    ∃ session, action = .check session ∨ action = .insert session := by
  rcases List.mem_append.mp hmem with hfirst | hrest
  · exact ⟨kept, by simpa using hfirst⟩
  · obtain ⟨session, _, haction⟩ := List.mem_flatMap.mp hrest
    exact ⟨session, by simpa using haction⟩

/-- It keeps nothing, and nothing will arrive. -/
def empty : Half Session := { stage := fun _ => .done, table := none }

/-- The session is in place and all others were turned down. -/
def only (kept : Session) : Half Session :=
  { stage := fun session => if session = kept then .reading else .done
    table := some kept }

theorem only_closed {kept session : Session} (hother : session ≠ kept) :
    (only kept).Closed session := by
  simp [Closed, only, hother]

/-- A kept session that ends leaves nothing. -/
theorem run_ends (kept : Session) :
    (machine Preferred).run (only kept) [.readEnds kept, .unregister kept] =
      some empty := by
  let ended := (only kept).reach kept .ended
  have hreadEnds : (machine Preferred).step (only kept) (.readEnds kept) =
      some ended := if_pos (if_pos rfl)
  have hunregister : (machine Preferred).step ended (.unregister kept) =
      some ((ended.release kept).reach kept .done) :=
    if_pos (reach_stage_self _ _ _)
  have hempty : (ended.release kept).reach kept .done = empty := by
    have htable : ended.table = some kept := rfl
    rw [release, if_pos htable, empty, Half.mk.injEq]
    refine ⟨funext fun session => ?_, rfl⟩
    by_cases hsame : session = kept
    · subst hsame
      exact reach_stage_self _ _ _
    · calc
        _ = ended.stage session := reach_stage_of_ne _ hsame _
        _ = (only kept).stage session := reach_stage_of_ne _ hsame _
        _ = .done := if_neg hsame
  rw [Machine.run, hreadEnds, Option.bind_some, Machine.run, hunregister, hempty]
  rfl

theorem run_arrivesFirst [Fintype Session] {kept : Session}
    (hunbeaten : Unbeaten Preferred kept) :
    (machine Preferred).run start (arrivesFirst kept) = some (only kept) := by
  let placed : Half Session :=
    { (start.reach kept .inserting).reach kept .reading with table := some kept }
  have hplaced : (start.reach kept .inserting).insert Preferred kept = placed :=
    rfl
  have hchecking : ∀ session ∈ (Finset.univ.erase kept).toList,
      placed.stage session = .checking := by
    intro session hmem
    have hother := Finset.ne_of_mem_erase (Finset.mem_toList.mp hmem)
    exact (reach_stage_of_ne _ hother _).trans (reach_stage_of_ne _ hother _)
  rw [arrivesFirst, Machine.run_append, run_checkInsert rfl, hplaced,
    Option.bind_some, run_arrivals hunbeaten (Finset.nodup_toList _) rfl hchecking]
  refine congrArg some ?_
  rw [only, Half.mk.injEq]
  refine ⟨funext fun session => ?_, rfl⟩
  by_cases hsame : session = kept
  · subst hsame
    rw [if_neg (by simp), if_pos rfl]
    exact reach_stage_self _ _ _
  · rw [if_pos (by simpa using hsame), if_neg hsame]

end Half

namespace Halves

variable {Session : Type*} [DecidableEq Session]
variable {Preferred : Session → Prop} [DecidablePred Preferred]

/-- What one side does while the other has closed every session that ends. -/
theorem run_side {side : Side} {actions : List (StageAction Session)}
    {halves : Halves Session}
    (henabled : ∀ action ∈ actions, halves.Enabled side action)
    {after : Half Session}
    (hrun : (Half.machine Preferred).run (halves side) actions = some after) :
    (machine Preferred).run halves (actions.map fun action => (side, action)) =
      some (Function.update halves side after) := by
  induction actions generalizing halves with
  | nil =>
      obtain rfl := Option.some.inj hrun
      rw [Function.update_eq_self]
      rfl
  | cons action actions ih =>
      obtain ⟨next, hnext, hrest⟩ := Option.bind_eq_some_iff.mp hrun
      obtain ⟨hhead, htail⟩ := List.forall_mem_cons.mp henabled
      let stepped : Halves Session := Function.update halves side next
      have hstep : (machine Preferred).step halves (side, action) =
          some stepped := (if_pos hhead).trans (congrArg _ hnext)
      -- The other side is as it was.
      have hother : stepped side.other = halves side.other :=
        Function.update_of_ne side.other_ne _ _
      have hstill : ∀ action ∈ actions, stepped.Enabled side action := by
        intro action hmem
        have hbefore := htail action hmem
        cases action with
        | readEnds session =>
            dsimp only [Enabled]
            rw [hother]
            exact hbefore
        | _ => trivial
      have hsame : stepped side = next := Function.update_self _ _ _
      have hrun : (Half.machine Preferred).run (stepped side) actions =
          some after := hsame ▸ hrest
      rw [List.map_cons, Machine.run, hstep, Option.bind_some, ih hstill hrun,
        Function.update_idem]

def onSide (side : Side) (actions : List (StageAction Session)) :
    List (Side × StageAction Session) :=
  actions.map fun action => (side, action)

/-- On each side another session arrives first; then each side loses the one it
has. -/
noncomputable def losing [Fintype Session] (left right : Session) :
    List (Side × StageAction Session) :=
  onSide .lower (Half.arrivesFirst left) ++
    (onSide .higher (Half.arrivesFirst right) ++
      (onSide .lower [.readEnds left, .unregister left] ++
        onSide .higher [.readEnds right, .unregister right]))

theorem run_arriving [Fintype Session] {kept : Session}
    (hunbeaten : Unbeaten Preferred kept) {side : Side} {halves : Halves Session}
    (hstart : halves side = Half.start) :
    (machine Preferred).run halves (onSide side (Half.arrivesFirst kept)) =
      some (Function.update halves side (Half.only kept)) := by
  refine run_side (fun action hmem => ?_) ?_
  · obtain ⟨session, rfl | rfl⟩ := Half.arrivesFirst_arrive hmem
    · trivial
    · trivial
  · rw [hstart]
    exact Half.run_arrivesFirst hunbeaten

theorem run_ending {kept : Session} {side : Side} {halves : Halves Session}
    (honly : halves side = Half.only kept)
    (hclosed : (halves side.other).Closed kept) :
    (machine Preferred).run halves
        (onSide side [.readEnds kept, .unregister kept]) =
      some (Function.update halves side Half.empty) := by
  refine run_side (fun action hmem => ?_) ?_
  · rcases List.mem_pair.mp hmem with rfl | rfl
    · exact hclosed
    · trivial
  · rw [honly]
    exact Half.run_ends kept

/-- Each side keeps an unbeaten session that the other turns down, and both end
up with nothing. -/
theorem run_losing [Fintype Session] {left right : Session}
    (hdifferent : left ≠ right) (hleft : Unbeaten Preferred left)
    (hright : Unbeaten Preferred right) :
    (machine Preferred).run start (losing left right) =
      some fun _ => Half.empty := by
  let first : Halves Session := Function.update start .lower (Half.only left)
  let second : Halves Session := Function.update first .higher (Half.only right)
  let third : Halves Session := Function.update second .lower Half.empty
  have hfirst : (machine Preferred).run start
      (onSide .lower (Half.arrivesFirst left)) = some first :=
    run_arriving hleft rfl
  have hsecond : (machine Preferred).run first
      (onSide .higher (Half.arrivesFirst right)) = some second :=
    run_arriving hright rfl
  have hthird : (machine Preferred).run second
      (onSide .lower [.readEnds left, .unregister left]) = some third :=
    run_ending rfl (Half.only_closed hdifferent)
  have hlast : (machine Preferred).run third
      (onSide .higher [.readEnds right, .unregister right]) =
        some (Function.update third .higher Half.empty) :=
    run_ending rfl trivial
  rw [losing, Machine.run_append, hfirst, Option.bind_some, Machine.run_append,
    hsecond, Option.bind_some, Machine.run_append, hthird, Option.bind_some,
    hlast]
  refine congrArg some (funext fun side => ?_)
  cases side with
  | lower => rfl
  | higher => rfl

theorem stuck_empty :
    (machine Preferred).Stuck (fun _ => Half.empty : Halves Session) := by
  rintro ⟨side, action⟩
  have hstuck : (Half.empty : Half Session).step Preferred action = none := by
    cases action <;> rfl
  change (if _ then _ else _) = _
  rw [hstuck, Option.map_none, ite_self]

variable (Preferred) in
omit [DecidableEq Session] [DecidablePred Preferred] in
theorem best_or_two_unbeaten [Nonempty Session] :
    (∃ session, Best Preferred session) ∨
      ∃ left right, left ≠ right ∧ Unbeaten Preferred left ∧
        Unbeaten Preferred right := by
  by_contra! hneither
  obtain ⟨hnoBest, hnoTwo⟩ := hneither
  by_cases hany : ∃ session, Preferred session
  · obtain ⟨session, hsession⟩ := hany
    refine hnoBest session fun other hother => ⟨hsession, fun hpreferred => ?_⟩
    exact hnoTwo other session hother (fun _ => Or.inl hpreferred)
      fun _ => Or.inl hsession
  · have hunbeaten : ∀ session, Unbeaten Preferred session :=
      fun _ other => Or.inr fun hother => hany ⟨other, hother⟩
    obtain ⟨session⟩ := ‹Nonempty Session›
    refine hnoBest session fun other hother => ?_
    exact absurd (hunbeaten session) (hnoTwo other session hother (hunbeaten other))

/-- Both sides keep the same session in every run until nothing is left to do,
if and only if one session is preferred to all others. -/
theorem alwaysKeepSame_iff [Fintype Session] :
    (∀ actions final, (machine Preferred).run start actions = some final →
        (machine Preferred).Stuck final → KeepSame Preferred final) ↔
      ∃ session, Best Preferred session := by
  constructor
  · intro hkeep
    rcases isEmpty_or_nonempty Session with hempty | hnonempty
    · have hstuck : (machine Preferred).Stuck (start : Halves Session) := by
        rintro ⟨side, action⟩
        cases action <;> exact isEmptyElim ‹Session›
      obtain ⟨session, _⟩ := hkeep [] start rfl hstuck
      exact isEmptyElim session
    rcases best_or_two_unbeaten Preferred with
      hbest | ⟨left, right, hdifferent, hleft, hright⟩
    · exact hbest
    · obtain ⟨session, htable, _⟩ :=
        hkeep _ _ (run_losing hdifferent hleft hright) stuck_empty
      exact absurd (htable .lower) nofun
  · rintro ⟨session, hbest⟩ actions final hrun hstuck
    exact keepSame_of_best hbest hrun hstuck

end Halves

end Cled.Core
