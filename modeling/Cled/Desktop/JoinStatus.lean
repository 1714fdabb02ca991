import Cled.Core.Machine
import Cled.Sync.Ids
import Mathlib.Data.List.Basic
import Mathlib.Logic.Function.Basic

/-!
# Who shows a code and who enters it

Devices of one account that are not paired yet find each other at the relay.  Each
of them decides by itself whether it shows a code, asks for one, or both.  It asks
the relay for the other devices again and again; the answers arrive late, and
devices come, go and pair meanwhile.  A device whose node has not started cannot
pair.
-/

namespace Cled.Desktop

open Cled.Core Cled.Sync

structure JoinStatus where
  showCode : Bool
  enterCode : Bool
  deriving DecidableEq

namespace JoinStatus

def default : JoinStatus := ⟨false, false⟩

/-- What one unpaired device changes. -/
def about (me : DeviceId) (status : JoinStatus) (id : DeviceId) : JoinStatus :=
  if me < id then { status with showCode := true }
  else { status with enterCode := true }

def new (me : DeviceId) (online paired : List DeviceId) : JoinStatus :=
  let unpaired := online.filter fun id => id ≠ me ∧ id ∉ paired
  unpaired.foldl (about me) default

theorem showCode_foldl (me : DeviceId) (unpaired : List DeviceId)
    (status : JoinStatus) :
    (unpaired.foldl (about me) status).showCode = true ↔
      status.showCode = true ∨ ∃ id ∈ unpaired, me < id := by
  induction unpaired generalizing status with
  | nil => simp
  | cons id unpaired ih =>
      rw [List.foldl_cons, ih, about]
      by_cases hless : me < id
      · simp [hless]
      · simp [hless]

theorem enterCode_foldl (me : DeviceId) (unpaired : List DeviceId)
    (status : JoinStatus) :
    (unpaired.foldl (about me) status).enterCode = true ↔
      status.enterCode = true ∨ ∃ id ∈ unpaired, id ≤ me := by
  induction unpaired generalizing status with
  | nil => simp
  | cons id unpaired ih =>
      rw [List.foldl_cons, ih, about]
      by_cases hless : me < id
      · simp [hless, hless.not_ge]
      · simp [hless, not_lt.mp hless]

variable {me : DeviceId} {online paired : List DeviceId}

theorem exists_unpaired_iff (P : DeviceId → Prop) :
    (∃ id ∈ online.filter fun id => id ≠ me ∧ id ∉ paired, P id) ↔
      ∃ id ∈ online, (id ≠ me ∧ P id) ∧ id ∉ paired := by
  refine exists_congr fun id => ?_
  rw [List.mem_filter, decide_eq_true_eq]
  tauto

theorem showCode_new_iff :
    (new me online paired).showCode = true ↔
      ∃ id ∈ online, me < id ∧ id ∉ paired := by
  have hother (id : DeviceId) : id ≠ me ∧ me < id ↔ me < id :=
    and_iff_right_of_imp fun hless => hless.ne'
  rw [new, showCode_foldl, exists_unpaired_iff]
  simp only [hother, default, Bool.false_eq_true, false_or]

theorem enterCode_new_iff :
    (new me online paired).enterCode = true ↔
      ∃ id ∈ online, id < me ∧ id ∉ paired := by
  have hother (id : DeviceId) : id ≠ me ∧ id ≤ me ↔ id < me :=
    and_comm.trans lt_iff_le_and_ne.symm
  rw [new, enterCode_foldl, exists_unpaired_iff]
  simp only [hother, default, Bool.false_eq_true, false_or]

theorem eq_default_iff {status : JoinStatus} :
    status = default ↔ ¬ status.showCode = true ∧ ¬ status.enterCode = true := by
  rcases status with ⟨_ | _, _ | _⟩ <;> simp [default]

end JoinStatus

/-! ## The devices of an account and their relay -/

structure Joiners where
  /-- The devices that the relay has registered. -/
  registered : List DeviceId
  /-- The `online` of each connected device. -/
  online : DeviceId → Option (List DeviceId)
  /-- The relay's answers on their way to each device. -/
  answers : DeviceId → List (List DeviceId)
  /-- The paired devices of each node, where one has started. -/
  nodes : DeviceId → Option (List DeviceId)
  join : DeviceId → JoinStatus

inductive JoinAction where
  /-- The relay registers a device, or removes it. -/
  | register (device : DeviceId)
  | unregister (device : DeviceId)
  /-- A device learns that it is registered, or its session ends. -/
  | connect (device : DeviceId)
  | drop (device : DeviceId)
  /-- A device has paired others, or has removed some. -/
  | pair (device : DeviceId) (paired : List DeviceId)
  /-- The relay answers a `devices` request. -/
  | answer (device : DeviceId)
  | receive (device : DeviceId)
  /-- The interval of `dial`.  It asks for the devices, too. -/
  | tick (device : DeviceId)
  deriving DecidableEq

namespace Joiners

/-- Those that the relay tells a device. -/
def others (joiners : Joiners) (device : DeviceId) : List DeviceId :=
  joiners.registered.filter (· ≠ device)

def updateJoin (joiners : Joiners) (device : DeviceId) (online : List DeviceId) :
    Joiners :=
  match joiners.nodes device with
  | none => joiners
  | some paired =>
      { joiners with
        join := Function.update joiners.join device
          (JoinStatus.new device online paired) }

def step (joiners : Joiners) : JoinAction → Option Joiners
  | .register device =>
      some { joiners with registered := device :: joiners.others device }
  | .unregister device =>
      some { joiners with registered := joiners.others device }
  | .connect device =>
      match joiners.online device with
      | none =>
          some { joiners with
            online := Function.update joiners.online device (some []) }
      | some _ => none
  | .drop device =>
      some { joiners with
        online := Function.update joiners.online device none
        answers := Function.update joiners.answers device []
        join := Function.update joiners.join device JoinStatus.default }
  | .pair device paired =>
      match joiners.nodes device with
      | none => none
      | some _ =>
          some { joiners with
            nodes := Function.update joiners.nodes device (some paired) }
  | .answer device =>
      match joiners.online device with
      | none => none
      | some _ =>
          some { joiners with
            answers := Function.update joiners.answers device
              (joiners.answers device ++ [joiners.others device]) }
  | .receive device =>
      match joiners.answers device with
      | [] => none
      | online :: answers =>
          some (updateJoin
            { joiners with
              online := Function.update joiners.online device (some online)
              answers := Function.update joiners.answers device answers }
            device online)
  -- Without a node the tick is skipped.
  | .tick device => (joiners.online device).map (joiners.updateJoin device)

def start (nodes : DeviceId → Option (List DeviceId)) : Joiners where
  registered := []
  online _ := none
  answers _ := []
  nodes
  join _ := JoinStatus.default

def machine : Machine Joiners JoinAction := ⟨step⟩

/-- Nobody comes, goes, pairs or removes a device. -/
def Calm : JoinAction → Prop
  | .answer _ => True
  | .receive _ => True
  | .tick _ => True
  | _ => False

/-- The device knows the others and shows what they mean to it, or the last
answer on its way to it will tell. -/
def Fresh (joiners : Joiners) (device : DeviceId) : Prop :=
  (∃ before, joiners.answers device = before ++ [joiners.others device]) ∨
    joiners.answers device = [] ∧
      joiners.online device = some (joiners.others device) ∧
      ∀ paired, joiners.nodes device = some paired →
        joiners.join device = JoinStatus.new device (joiners.others device) paired

/-- A device without a node shows nothing. -/
def Idle (joiners : Joiners) : Prop :=
  ∀ device, joiners.nodes device = none →
    joiners.join device = JoinStatus.default

variable {joiners next : Joiners} {action : JoinAction}
  {device other : DeviceId} {online : List DeviceId}

section UpdateJoin

@[simp]
theorem registered_updateJoin :
    (joiners.updateJoin device online).registered = joiners.registered := by
  rw [updateJoin]
  split <;> rfl

@[simp]
theorem others_updateJoin :
    (joiners.updateJoin device online).others other = joiners.others other := by
  rw [others, registered_updateJoin, others]

@[simp]
theorem online_updateJoin :
    (joiners.updateJoin device online).online = joiners.online := by
  rw [updateJoin]
  split <;> rfl

@[simp]
theorem answers_updateJoin :
    (joiners.updateJoin device online).answers = joiners.answers := by
  rw [updateJoin]
  split <;> rfl

@[simp]
theorem nodes_updateJoin :
    (joiners.updateJoin device online).nodes = joiners.nodes := by
  rw [updateJoin]
  split <;> rfl

theorem join_updateJoin {paired : List DeviceId}
    (hnode : joiners.nodes device = some paired) :
    (joiners.updateJoin device online).join device =
      JoinStatus.new device online paired := by
  rw [updateJoin, hnode]
  exact Function.update_self ..

theorem join_updateJoin_of_ne (hne : other ≠ device) :
    (joiners.updateJoin device online).join other = joiners.join other := by
  rw [updateJoin]
  split
  · rfl
  · exact Function.update_of_ne hne ..

theorem Idle.updateJoin (hidle : joiners.Idle) :
    (joiners.updateJoin device online).Idle := by
  intro other hnode
  rw [nodes_updateJoin] at hnode
  by_cases hsame : other = device
  · subst hsame
    rw [Joiners.updateJoin, hnode]
    exact hidle other hnode
  · rw [join_updateJoin_of_ne hsame]
    exact hidle other hnode

end UpdateJoin

theorem Idle.step (hidle : joiners.Idle)
    (hstep : joiners.step action = some next) : next.Idle := by
  cases action with
  | register device | unregister device =>
      obtain rfl := Option.some.inj hstep
      exact hidle
  | connect device | answer device =>
      rw [Joiners.step] at hstep
      split at hstep <;> cases hstep
      exact hidle
  | drop device =>
      obtain rfl := Option.some.inj hstep
      intro other hnode
      by_cases hsame : other = device
      · subst hsame
        exact Function.update_self ..
      · exact (Function.update_of_ne hsame ..).trans (hidle other hnode)
  | pair device paired =>
      rw [Joiners.step] at hstep
      split at hstep <;> cases hstep
      intro other hnode
      by_cases hsame : other = device
      · subst hsame
        cases (Function.update_self ..).symm.trans hnode
      · exact hidle other ((Function.update_of_ne hsame ..).symm.trans hnode)
  | receive device =>
      rw [Joiners.step] at hstep
      split at hstep <;> cases hstep
      exact Idle.updateJoin hidle
  | tick device =>
      obtain ⟨online, -, rfl⟩ := Option.map_eq_some_iff.mp hstep
      exact hidle.updateJoin

theorem idle_of_run {nodes : DeviceId → Option (List DeviceId)}
    {actions : List JoinAction}
    (hrun : machine.run (start nodes) actions = some joiners) : joiners.Idle := by
  have hkept : ∀ (joiners : Joiners) action next, joiners.Idle → True →
      machine.step joiners action = some next → next.Idle :=
    fun _ _ _ hidle _ hstep => hidle.step hstep
  have hstart : (start nodes).Idle := fun _ _ => rfl
  exact Machine.run_of_invariant hkept hstart
    (Machine.along_of_forall _ (fun _ _ => trivial) _) hrun

/-- What a calm step can do. -/
inductive Stepped (joiners : Joiners) : JoinAction → Joiners → Prop
  | answered (device : DeviceId) :
      Stepped joiners (.answer device)
        { joiners with
          answers := Function.update joiners.answers device
            (joiners.answers device ++ [joiners.others device]) }
  | received {device : DeviceId} {online : List DeviceId}
      {answers : List (List DeviceId)}
      (hanswers : joiners.answers device = online :: answers) :
      Stepped joiners (.receive device)
        (updateJoin
          { joiners with
            online := Function.update joiners.online device (some online)
            answers := Function.update joiners.answers device answers }
          device online)
  | ticked {device : DeviceId} {online : List DeviceId}
      (honline : joiners.online device = some online) :
      Stepped joiners (.tick device) (joiners.updateJoin device online)

theorem stepped_of_step (hcalm : Calm action)
    (hstep : joiners.step action = some next) : Stepped joiners action next := by
  cases action with
  | answer device =>
      rw [step] at hstep
      split at hstep
      · cases hstep
      · obtain rfl := Option.some.inj hstep
        exact .answered device
  | receive device =>
      rw [step] at hstep
      split at hstep
      · cases hstep
      · next hanswers =>
        obtain rfl := Option.some.inj hstep
        exact .received hanswers
  | tick device =>
      obtain ⟨online, honline, rfl⟩ := Option.map_eq_some_iff.mp hstep
      exact .ticked honline
  | _ => exact hcalm.elim

theorem Stepped.registered (hstepped : Stepped joiners action next) :
    next.registered = joiners.registered := by
  cases hstepped
  · rfl
  · exact registered_updateJoin
  · exact registered_updateJoin

theorem Stepped.nodes (hstepped : Stepped joiners action next) :
    next.nodes = joiners.nodes := by
  cases hstepped
  · rfl
  · exact nodes_updateJoin
  · exact nodes_updateJoin

theorem fresh_of_answered (device : DeviceId)
    (hstepped : Stepped joiners (.answer device) next) : next.Fresh device := by
  cases hstepped
  exact .inl ⟨_, Function.update_self ..⟩

/-- What a device knows and shows does not depend on the others' answers. -/
theorem Fresh.congr (hfresh : joiners.Fresh device)
    (hregistered : next.registered = joiners.registered)
    (honline : next.online device = joiners.online device)
    (hanswers : next.answers device = joiners.answers device)
    (hnodes : next.nodes = joiners.nodes)
    (hjoin : next.join device = joiners.join device) : next.Fresh device := by
  rw [Fresh, others, hregistered, honline, hanswers, hnodes, hjoin]
  exact hfresh

theorem Fresh.step (hfresh : joiners.Fresh device)
    (hstepped : Stepped joiners action next) : next.Fresh device := by
  cases hstepped with
  | answered other =>
      by_cases hsame : device = other
      · subst hsame
        exact .inl ⟨_, Function.update_self ..⟩
      · exact hfresh.congr rfl rfl (Function.update_of_ne hsame ..) rfl rfl
  | @received other online answers hanswers =>
      by_cases hsame : device = other
      · subst hsame
        rw [Fresh, others_updateJoin, answers_updateJoin, online_updateJoin,
          nodes_updateJoin]
        obtain ⟨before, hbefore⟩ | ⟨hnone, -⟩ := hfresh
        · rw [hanswers] at hbefore
          cases before with
          | nil =>
              obtain ⟨rfl, rfl⟩ := List.cons.inj hbefore
              right
              exact ⟨Function.update_self .., Function.update_self ..,
                fun _ hnode => join_updateJoin hnode⟩
          | cons first before =>
              obtain ⟨-, rfl⟩ := List.cons.inj hbefore
              exact .inl ⟨before, Function.update_self ..⟩
        · cases hanswers.symm.trans hnone
      · refine hfresh.congr registered_updateJoin ?_ ?_ nodes_updateJoin
          (join_updateJoin_of_ne hsame)
        · rw [online_updateJoin]
          exact Function.update_of_ne hsame ..
        · rw [answers_updateJoin]
          exact Function.update_of_ne hsame ..
  | @ticked other online honline =>
      by_cases hsame : device = other
      · subst hsame
        rw [Fresh, others_updateJoin, answers_updateJoin, online_updateJoin,
          nodes_updateJoin]
        refine hfresh.imp_right fun hknows => ⟨hknows.1, hknows.2.1, ?_⟩
        intro paired hnode
        obtain rfl := Option.some.inj (honline.symm.trans hknows.2.1)
        exact join_updateJoin hnode
      · exact hfresh.congr registered_updateJoin (congrFun online_updateJoin _)
          (congrFun answers_updateJoin _) nodes_updateJoin
          (join_updateJoin_of_ne hsame)

variable {first final : Joiners} {front back actions : List JoinAction}

theorem kept_of_run (hcalm : ∀ action ∈ actions, Calm action)
    (hrun : machine.run first actions = some final) :
    final.registered = first.registered ∧ final.nodes = first.nodes := by
  have hkept : ∀ joiners action next,
      joiners.registered = first.registered ∧ joiners.nodes = first.nodes →
        Calm action → machine.step joiners action = some next →
          next.registered = first.registered ∧ next.nodes = first.nodes := by
    rintro joiners action next ⟨hregistered, hnodes⟩ hcalm hstep
    have hstepped := stepped_of_step hcalm hstep
    exact ⟨hstepped.registered.trans hregistered, hstepped.nodes.trans hnodes⟩
  exact Machine.run_of_invariant hkept ⟨rfl, rfl⟩
    (Machine.along_of_forall _ hcalm first) hrun

theorem Fresh.run (hfresh : first.Fresh device)
    (hcalm : ∀ action ∈ actions, Calm action)
    (hrun : machine.run first actions = some final) : final.Fresh device := by
  have hkept : ∀ (joiners : Joiners) action next, joiners.Fresh device →
      Calm action → machine.step joiners action = some next → next.Fresh device :=
    fun _ _ _ hfresh hcalm hstep => hfresh.step (stepped_of_step hcalm hstep)
  exact Machine.run_of_invariant hkept hfresh
    (Machine.along_of_forall _ hcalm first) hrun

/-- Whoever was told the devices once knows them then, or soon. -/
theorem fresh_of_run (hcalm : ∀ action ∈ actions, Calm action)
    (htold : .answer device ∈ actions)
    (hrun : machine.run first actions = some final) : final.Fresh device := by
  obtain ⟨front, back, rfl⟩ := List.append_of_mem htold
  rw [Machine.run_append] at hrun
  obtain ⟨middle, -, hrest⟩ := Option.bind_eq_some_iff.mp hrun
  obtain ⟨next, hstep, hback⟩ := Option.bind_eq_some_iff.mp hrest
  obtain ⟨-, htail⟩ := List.forall_mem_append.mp hcalm
  obtain ⟨hanswer, hlater⟩ := List.forall_mem_cons.mp htail
  exact (fresh_of_answered device (stepped_of_step hanswer hstep)).run hlater hback

/-! ## What the devices show together -/

theorem mem_others_iff :
    other ∈ joiners.others device ↔ other ∈ joiners.registered ∧ other ≠ device := by
  simp [others]

theorem join_of_fresh {paired : List DeviceId} (hfresh : joiners.Fresh device)
    (harrived : joiners.answers device = [])
    (hnode : joiners.nodes device = some paired) :
    joiners.join device =
      JoinStatus.new device (joiners.others device) paired := by
  obtain ⟨before, hbefore⟩ | ⟨-, -, hjoin⟩ := hfresh
  · exact absurd (hbefore.symm.trans harrived) (List.append_ne_nil_of_right_ne_nil _
      (List.cons_ne_nil _ _))
  · exact hjoin paired hnode

/-- A device is none of those that it has something to do with. -/
theorem exists_others_iff {P : DeviceId → Prop}
    (hne : ∀ other, P other → other ≠ device) :
    (∃ other ∈ joiners.others device, P other) ↔
      ∃ other ∈ joiners.registered, P other := by
  refine exists_congr fun other => ?_
  rw [mem_others_iff, and_assoc]
  exact and_congr_right fun _ => and_iff_right_of_imp (hne other)

/-- Whoever has paired a device is paired by it, if both have a node. -/
def Mutual (joiners : Joiners) : Prop :=
  ∀ device ∈ joiners.registered, ∀ paired ∈ joiners.nodes device,
    ∀ other ∈ joiners.registered, ∀ theirs ∈ joiners.nodes other,
      other ∈ paired → device ∈ theirs

instance (joiners : Joiners) : Decidable joiners.Mutual :=
  inferInstanceAs (Decidable (∀ device ∈ joiners.registered,
    ∀ paired ∈ joiners.nodes device, ∀ other ∈ joiners.registered,
      ∀ theirs ∈ joiners.nodes other, other ∈ paired → device ∈ theirs))

/-- Each device with a node was told of the others, and has heard it. -/
def Told (joiners final : Joiners) (actions : List JoinAction) : Prop :=
  ∀ device ∈ joiners.registered, (joiners.nodes device).isSome →
    .answer device ∈ actions ∧ final.answers device = []

instance (joiners final : Joiners) (actions : List JoinAction) :
    Decidable (joiners.Told final actions) :=
  inferInstanceAs (Decidable (∀ device ∈ joiners.registered,
    (joiners.nodes device).isSome →
      .answer device ∈ actions ∧ final.answers device = []))

theorem join_of_run {paired : List DeviceId}
    (hcalm : ∀ action ∈ actions, Calm action)
    (hrun : machine.run first actions = some final)
    (htold : first.Told final actions) (hdevice : device ∈ first.registered)
    (hnode : first.nodes device = some paired) :
    final.join device =
      JoinStatus.new device (first.others device) paired := by
  obtain ⟨hregistered, hnodes⟩ := kept_of_run hcalm hrun
  obtain ⟨htold, harrived⟩ := htold device hdevice (hnode ▸ Option.isSome_some)
  have hfresh := fresh_of_run hcalm htold hrun
  rw [join_of_fresh hfresh harrived (hnodes ▸ hnode), others, others, hregistered]

theorem showCode_iff_of_run {paired : List DeviceId}
    (hcalm : ∀ action ∈ actions, Calm action)
    (hrun : machine.run first actions = some final)
    (htold : first.Told final actions) (hdevice : device ∈ first.registered)
    (hnode : first.nodes device = some paired) :
    (final.join device).showCode = true ↔ ∃ other ∈ first.registered,
      device < other ∧ other ∉ paired := by
  rw [join_of_run hcalm hrun htold hdevice hnode, JoinStatus.showCode_new_iff]
  exact exists_others_iff fun other hother => hother.1.ne'

theorem enterCode_iff_of_run {paired : List DeviceId}
    (hcalm : ∀ action ∈ actions, Calm action)
    (hrun : machine.run first actions = some final)
    (htold : first.Told final actions) (hdevice : device ∈ first.registered)
    (hnode : first.nodes device = some paired) :
    (final.join device).enterCode = true ↔ ∃ other ∈ first.registered,
      other < device ∧ other ∉ paired := by
  rw [join_of_run hcalm hrun htold hdevice hnode, JoinStatus.enterCode_new_iff]
  exact exists_others_iff fun other hother => hother.1.ne

/-- Once nobody comes, goes or pairs and every device was told of the others since,
each device with a node shows a code just if there is an unpaired device with a
greater ID, which is asked for one if it has a node itself, and the other way round.
It shows nothing just if it has paired all the others.  A device without a node
shows nothing. -/
theorem codes_meet {nodes : DeviceId → Option (List DeviceId)}
    (hfirst : machine.run (start nodes) front = some first)
    (hcalm : ∀ action ∈ actions, Calm action)
    (hrun : machine.run first actions = some final)
    (htold : first.Told final actions) (hmutual : first.Mutual)
    (hdevice : device ∈ first.registered) :
    (first.nodes device = none → final.join device = JoinStatus.default) ∧
    ∀ paired, first.nodes device = some paired →
      ((final.join device).showCode = true ↔ ∃ other ∈ first.registered,
        device < other ∧ other ∉ paired ∧
          ((first.nodes other).isSome → (final.join other).enterCode = true)) ∧
      ((final.join device).enterCode = true ↔ ∃ other ∈ first.registered,
        other < device ∧ other ∉ paired ∧
          ((first.nodes other).isSome → (final.join other).showCode = true)) ∧
      (final.join device = JoinStatus.default ↔ ∀ other ∈ first.registered,
        other ≠ device → other ∈ paired) := by
  refine ⟨fun hnode => ?_, fun paired hnode => ?_⟩
  · obtain ⟨-, hnodes⟩ := kept_of_run hcalm hrun
    have hwhole : machine.run (start nodes) (front ++ actions) = some final := by
      rw [Machine.run_append, hfirst]
      exact hrun
    exact idle_of_run hwhole device (hnodes ▸ hnode)
  have hshow := showCode_iff_of_run hcalm hrun htold hdevice hnode
  have henter := enterCode_iff_of_run hcalm hrun htold hdevice hnode
  refine ⟨?_, ?_, ?_⟩
  · rw [hshow]
    refine exists_congr fun other => and_congr_right fun hother =>
      and_congr_right fun hless => (and_iff_left_of_imp fun hunpaired hsome => ?_).symm
    obtain ⟨theirs, htheirs⟩ := Option.isSome_iff_exists.mp hsome
    exact (enterCode_iff_of_run hcalm hrun htold hother htheirs).mpr
      ⟨device, hdevice, hless, fun hpair => hunpaired
        (hmutual other hother theirs htheirs device hdevice paired hnode hpair)⟩
  · rw [henter]
    refine exists_congr fun other => and_congr_right fun hother =>
      and_congr_right fun hless => (and_iff_left_of_imp fun hunpaired hsome => ?_).symm
    obtain ⟨theirs, htheirs⟩ := Option.isSome_iff_exists.mp hsome
    exact (showCode_iff_of_run hcalm hrun htold hother htheirs).mpr
      ⟨device, hdevice, hless, fun hpair => hunpaired
        (hmutual other hother theirs htheirs device hdevice paired hnode hpair)⟩
  · constructor
    · intro hnothing other hother hne
      by_contra hunpaired
      rcases lt_or_gt_of_ne hne with hless | hless
      · have hcode := henter.mpr ⟨other, hother, hless, hunpaired⟩
        rw [hnothing] at hcode
        cases hcode
      · have hcode := hshow.mpr ⟨other, hother, hless, hunpaired⟩
        rw [hnothing] at hcode
        cases hcode
    · intro hall
      refine JoinStatus.eq_default_iff.mpr ⟨fun hcode => ?_, fun hcode => ?_⟩
      · obtain ⟨other, hother, hless, hunpaired⟩ := hshow.mp hcode
        exact hunpaired (hall other hother hless.ne')
      · obtain ⟨other, hother, hless, hunpaired⟩ := henter.mp hcode
        exact hunpaired (hall other hother hless.ne)

/-- The fourth device has no node. -/
def fourNodes (device : DeviceId) : Option (List DeviceId) :=
  if device = ⟨4⟩ then none else some []

/-- Four devices come together, of which the first two have paired. -/
def fourJoin : List JoinAction :=
  [.register ⟨1⟩, .connect ⟨1⟩, .register ⟨2⟩, .connect ⟨2⟩, .pair ⟨1⟩ [⟨2⟩],
    .pair ⟨2⟩ [⟨1⟩], .register ⟨4⟩, .connect ⟨4⟩, .answer ⟨1⟩, .register ⟨3⟩,
    .connect ⟨3⟩]

def fourAsk : List JoinAction :=
  [.answer ⟨3⟩, .receive ⟨1⟩, .answer ⟨1⟩, .tick ⟨2⟩, .answer ⟨2⟩, .receive ⟨2⟩,
    .tick ⟨4⟩, .receive ⟨1⟩, .receive ⟨3⟩]

/-- The first two show a code, which the third one is asked for. -/
theorem codes_meet_fourAsk :
    ∃ first final,
      machine.run (start fourNodes) fourJoin = some first ∧
      machine.run first fourAsk = some final ∧
      (final.join ⟨1⟩ = ⟨true, false⟩ ∧ final.join ⟨2⟩ = ⟨true, false⟩ ∧
        final.join ⟨3⟩ = ⟨true, true⟩ ∧ final.join ⟨4⟩ = ⟨false, false⟩) ∧
      ((first.nodes ⟨3⟩ = none → final.join ⟨3⟩ = JoinStatus.default) ∧
      ∀ paired, first.nodes ⟨3⟩ = some paired →
        ((final.join ⟨3⟩).showCode = true ↔ ∃ other ∈ first.registered,
          ⟨3⟩ < other ∧ other ∉ paired ∧
            ((first.nodes other).isSome → (final.join other).enterCode = true)) ∧
        ((final.join ⟨3⟩).enterCode = true ↔ ∃ other ∈ first.registered,
          other < ⟨3⟩ ∧ other ∉ paired ∧
            ((first.nodes other).isSome → (final.join other).showCode = true)) ∧
        (final.join ⟨3⟩ = JoinStatus.default ↔ ∀ other ∈ first.registered,
          other ≠ ⟨3⟩ → other ∈ paired)) := by
  obtain ⟨first, hfirst, final, hfinal, htold, hmutual, hdevice, hjoin⟩ :
      ∃ first ∈ machine.run (start fourNodes) fourJoin,
        ∃ final ∈ machine.run first fourAsk,
          first.Told final fourAsk ∧ first.Mutual ∧ ⟨3⟩ ∈ first.registered ∧
          final.join ⟨1⟩ = ⟨true, false⟩ ∧ final.join ⟨2⟩ = ⟨true, false⟩ ∧
            final.join ⟨3⟩ = ⟨true, true⟩ ∧ final.join ⟨4⟩ = ⟨false, false⟩ := by
    decide +kernel
  have hcalm : ∀ action ∈ fourAsk, Calm action := by simp [fourAsk, Calm]
  exact ⟨first, final, hfirst, hfinal, hjoin,
    codes_meet hfirst hcalm hfinal htold hmutual hdevice⟩

end Joiners

end Cled.Desktop
