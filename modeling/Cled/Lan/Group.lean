import Mathlib.Data.List.Basic
import Cled.Lan.Node

/-!
# A group of devices

Every device runs a node.  Nodes send each other rosters and goodbyes; a message
is in flight until it is taken in or lost, and messages overtake each other.
All clocks agree.  Beside the nodes there is a history of the pairings and the
removals with their times, which no node knows.

A roster carries the times of the removals in it, a goodbye carries none.  So a
device that is told it was removed leaves the group, even if the one that tells
it only remembers a removal from before the device was paired again.
-/

namespace Cled.Lan

open Cled.Core Cled.Sync

/-- The messages that are about the group. -/
inductive Message where
  | roster (roster : Roster)
  | bye
  deriving DecidableEq

/-- A message with its two ends. -/
structure Letter where
  sender : DeviceId
  receiver : DeviceId
  message : Message
  deriving DecidableEq

/-! ## What a step of one node needs and sends -/

namespace Node

/-- The time that the action reads from the clock. -/
def readsClock : NodeAction → Option ℕ
  | .removeFromStore _ nowMs _ => some nowMs
  | .storePeer peer _ => some peer.pairedAtMs
  | _ => none

/-- The message that `read_loop` of `device` takes in. -/
def takesIn (node : Node) (device : DeviceId) : NodeAction → Option Letter
  | .receiveRoster index roster _ =>
      match node.tasks[index]? with
      | some (.reading session _) =>
          some ⟨session.device, device, .roster roster⟩
      | _ => none
  | .receiveBye index _ =>
      match node.tasks[index]? with
      | some (.reading session _) => some ⟨session.device, device, .bye⟩
      | _ => none
  | _ => none

/-- `device`, if `disconnect_removed` finds a connection to tell it over. -/
def disconnectRemoved (node : Node) (device : DeviceId) : Option DeviceId :=
  (node.conns device).map fun _ => device

/-- The device that is told it was removed. -/
def tells (node : Node) : NodeAction → Option DeviceId
  | .told index _ =>
      match node.tasks[index]? with
      | some (.telling device) => some device
      | _ => none
  | .removePeer device => node.disconnectRemoved device
  | .disconnectNext index =>
      match node.tasks[index]? with
      | some (.applying _ _ (device :: _) _) => node.disconnectRemoved device
      | _ => none
  | _ => none

/-- The devices that the action pairs. -/
def pairs (device : DeviceId) : NodeAction → List DeviceId
  | .storePeer peer _ => [device, peer.deviceId]
  | _ => []

/-- The device that the user removes: it is told so at once if it is connected,
and the removal is remembered if it is listed. -/
def unpairs (node : Node) : NodeAction → Option DeviceId
  | .removePeer device => node.disconnectRemoved device
  | .removeFromStore index _ _ =>
      match node.tasks[index]? with
      | some (.removing device) => (node.store.get device).map fun _ => device
      | _ => none
  | _ => none

end Node

/-! ## The group -/

structure Group where
  now : ℕ
  nodes : DeviceId → Node
  inFlight : List Letter
  /-- Which device was paired when. -/
  pairings : List (DeviceId × ℕ)
  /-- Which device was removed when. -/
  removals : List (DeviceId × ℕ)

inductive GroupAction where
  | wait (ms : ℕ)
  /-- A step of one node. -/
  | act (device : DeviceId) (action : NodeAction)
  /-- A node sends its roster, as it does when a session begins and after every
  change. -/
  | sendRoster (sender receiver : DeviceId)
  | lose (letter : Letter)

namespace Group

/-- No device was ever paired. -/
def start : Group :=
  { now := 0
    nodes := fun _ => Node.start PeerStore.empty
    inFlight := []
    pairings := []
    removals := [] }

/-- The messages that a step of `device` sends. -/
def sends (group : Group) (device : DeviceId) (action : NodeAction) :
    List Letter :=
  ((group.nodes device).tells action).toList.map fun told =>
    ⟨device, told, .bye⟩

/-- The group after a step of `device` that leads to `next`. -/
def after (group : Group) (device : DeviceId) (action : NodeAction)
    (next : Node) : Group :=
  { now := group.now
    nodes := Function.update group.nodes device next
    inFlight :=
      group.inFlight.diff
          ((group.nodes device).takesIn device action).toList ++
        group.sends device action
    pairings :=
      group.pairings ++ (Node.pairs device action).map (·, group.now)
    removals :=
      group.removals ++
        ((group.nodes device).unpairs action).toList.map (·, group.now) }

/-- The action reads this time, and takes in a message that is in flight. -/
def Possible (group : Group) (device : DeviceId) (action : NodeAction) : Prop :=
  (∀ ms ∈ Node.readsClock action, ms = group.now) ∧
    ∀ letter ∈ (group.nodes device).takesIn device action,
      letter ∈ group.inFlight

instance (group : Group) (device : DeviceId) (action : NodeAction) :
    Decidable (group.Possible device action) :=
  inferInstanceAs (Decidable (_ ∧ _))

def step (group : Group) : GroupAction → Option Group
  | .wait ms => some { group with now := group.now + ms }
  | .act device action =>
      if group.Possible device action then
        ((group.nodes device).step device action).map
          (group.after device action)
      else none
  | .sendRoster sender receiver =>
      some
        { group with
          inFlight := group.inFlight ++
            [⟨sender, receiver, .roster (group.nodes sender).store.roster⟩] }
  | .lose letter => some { group with inFlight := group.inFlight.erase letter }

def machine : Machine Group GroupAction := ⟨step⟩

/-! ## Old removals and newer pairings -/

/-- The device was paired later than every removal of it. -/
def PairedSince (group : Group) (device : DeviceId) : Prop :=
  ∃ pairing ∈ group.pairings, pairing.1 = device ∧
    ∀ removal ∈ group.removals, removal.1 = device → removal.2 < pairing.2

/-- The device was not paired after the time. -/
def NotPairedAfter (group : Group) (device : DeviceId) (ms : ℕ) : Prop :=
  ∀ pairing ∈ group.pairings, pairing.1 = device → pairing.2 ≤ ms

instance (group : Group) (device : DeviceId) (ms : ℕ) :
    Decidable (group.NotPairedAfter device ms) :=
  inferInstanceAs (Decidable (∀ pairing ∈ group.pairings, _))

/-- A goodbye is on its way to the device. -/
def Parting (group : Group) (device : DeviceId) : Prop :=
  ∃ letter ∈ group.inFlight, letter.receiver = device ∧ letter.message = .bye

instance (group : Group) (device : DeviceId) :
    Decidable (group.Parting device) :=
  inferInstanceAs (Decidable (∃ letter ∈ group.inFlight, _))

/-- `device` executes `leave_group`: it takes in a goodbye from a listed peer. -/
def Leaves (group : Group) (device : DeviceId) : GroupAction → Prop
  | .act other (.receiveBye index saved) =>
      other = device ∧
        ∃ letter ∈ (group.nodes other).takesIn other (.receiveBye index saved),
          letter ∈ group.inFlight ∧
            (group.nodes other).store.get letter.sender ≠ none
  | _ => False

/-- No device leaves the group that was paired since it was removed. -/
def KeepsPaired (group : Group) (action : GroupAction) : Prop :=
  ∀ device, group.Leaves device action → ¬ group.PairedSince device

/-- A member tells a device that it was removed only while it remembers a removal
that the device was not paired after, unless its user is removing the device;
and no device is paired while a goodbye is on its way to it. -/
def TellsNews (group : Group) : GroupAction → Prop
  | .act _ (.removePeer _) => True
  | .act device (.storePeer peer _) =>
      ¬ group.Parting device ∧ ¬ group.Parting peer.deviceId
  | .act device action =>
      ∀ told ∈ (group.nodes device).tells action,
        ∃ removed ∈ (group.nodes device).store.removal told,
          group.NotPairedAfter told removed.removedAtMs
  | _ => True

instance (group : Group) (action : GroupAction) :
    Decidable (group.TellsNews action) := by
  apply GroupAction.casesOn (motive := fun action => Decidable
    (group.TellsNews action)) action
  case act =>
    intro device action
    apply NodeAction.casesOn (motive := fun action => Decidable
      (group.TellsNews (.act device action))) action
    all_goals intros; dsimp only [TellsNews]; infer_instance
  all_goals intros; dsimp only [TellsNews]; infer_instance

/-- Some removal of the device is not before any pairing of it. -/
def RemovedSince (group : Group) (device : DeviceId) : Prop :=
  ∃ ms, (device, ms) ∈ group.removals ∧ group.NotPairedAfter device ms

theorem RemovedSince.not_pairedSince {group : Group} {device : DeviceId}
    (hremoved : group.RemovedSince device) : ¬ group.PairedSince device := by
  rintro ⟨pairing, hpairing, hdevice, hlater⟩
  obtain ⟨ms, hremoval, hnot⟩ := hremoved
  have hle := hnot pairing hpairing hdevice
  have hlt := hlater _ hremoval rfl
  exact absurd hle (Nat.not_le.mpr hlt)

/-! ## Where a remembered removal comes from -/

/-- After a step, a node remembers removals that it remembered before, that its
user made in the step, or that the roster it took in reports. -/
theorem removals_step {device : DeviceId} {node next : Node}
    {action : NodeAction} (hwell : node.store.WellFormed)
    (hstep : node.step device action = some next)
    {now : ℕ} (hnow : ∀ ms ∈ Node.readsClock action, ms = now)
    {known : List (DeviceId × ℕ)} (hold : node.store.removals ⊆ known)
    (hunpairs : ∀ other ∈ node.unpairs action, (other, now) ∈ known)
    (hreported : ∀ letter ∈ node.takesIn device action, ∀ roster,
      letter.message = .roster roster → PeerStore.reported roster ⊆ known) :
    next.store.WellFormed ∧ next.store.removals ⊆ known := by
  have hmerge : ∀ index session connId roster saved,
      action = .receiveRoster index roster saved →
      node.tasks[index]? = some (.reading session connId) →
        (node.store.mergeEntries device session.device
            roster).store.WellFormed ∧
          (node.store.mergeEntries device session.device
            roster).store.removals ⊆ known := by
    rintro index session connId roster saved rfl htask
    refine ⟨PeerStore.wellFormed_mergeEntries hwell _ _ _, ?_⟩
    have hroster : PeerStore.reported roster ⊆ known :=
      hreported _ (by simp only [Node.takesIn, htask]; rfl) roster rfl
    exact List.Subset.trans (PeerStore.removals_mergeEntries hwell _ _ _)
      (List.append_subset.mpr ⟨hold, hroster⟩)
  cases Node.step_outcome device hstep with
  | begun _ _ _ _ => exact ⟨hwell, hold⟩
  | answered _ _ => exact ⟨hwell, hold⟩
  | moved _ _ _ _ _ _ => exact ⟨hwell, hold⟩
  | touched _ _ _ _ _ _ store _ hstore _ hremovals =>
      refine ⟨hstore hwell, ?_⟩
      change store.removals ⊆ known
      rwa [hremovals]
  | inserted _ _ _ _ _ => exact ⟨hwell, hold⟩
  | merged index session connId roster saved htask =>
      exact hmerge index session connId roster saved rfl htask
  | mergedOnly index session connId roster saved htask _ =>
      exact hmerge index session connId roster saved rfl htask
  | disconnectedNext _ _ _ _ _ _ _ _ _ => exact ⟨hwell, hold⟩
  | left _ _ _ _ _ => exact ⟨hwell.clearPeers, hold⟩
  | drained _ _ _ _ => exact ⟨hwell, hold⟩
  | unregistered _ _ _ _ => exact ⟨hwell, hold⟩
  | disconnected _ => exact ⟨hwell, hold⟩
  | removed index gone nowMs saved htask =>
      obtain rfl := hnow nowMs rfl
      refine ⟨PeerStore.wellFormed_remove hwell _ _ _, ?_⟩
      refine List.Subset.trans (PeerStore.removals_remove _ gone nowMs saved) ?_
      split
      · exact hold
      · next hlisted =>
        obtain ⟨peer, hpeer⟩ := Option.ne_none_iff_exists'.mp hlisted
        refine List.cons_subset.mpr ⟨hunpairs gone ?_, hold⟩
        simp only [Node.unpairs, htask, hpeer]
        rfl
  | stored peer _ =>
      exact ⟨hwell.put peer,
        List.Subset.trans (PeerStore.removals_put _ peer) hold⟩

/-! ## The invariant -/

/-- Whatever is remembered or reported as a removal was one, and whoever is told
so was not paired since. -/
structure GroupInv (group : Group) : Prop where
  stores : ∀ device, (group.nodes device).store.WellFormed
  remembered : ∀ device,
    (group.nodes device).store.removals ⊆ group.removals
  reported : ∀ letter ∈ group.inFlight, ∀ roster,
    letter.message = .roster roster →
      PeerStore.reported roster ⊆ group.removals
  clock : ∀ pairing ∈ group.pairings, pairing.2 ≤ group.now
  parting : ∀ device, group.Parting device → group.RemovedSince device

theorem groupInv_start : start.GroupInv where
  stores _ := PeerStore.wellFormed_empty
  remembered _ := List.Subset.refl _
  reported := nofun
  clock := nofun
  parting _ := nofun

/-- A goodbye after a step of `device` was in flight before, or is from
`device`. -/
theorem parting_after {group : Group} {device other : DeviceId}
    {action : NodeAction} {next : Node}
    (hparting : (group.after device action next).Parting other) :
    group.Parting other ∨ other ∈ (group.nodes device).tells action := by
  obtain ⟨letter, hmem, hreceiver, hbye⟩ := hparting
  rcases List.mem_append.mp hmem with hold | hnew
  · exact Or.inl ⟨letter, List.diff_subset _ _ hold, hreceiver, hbye⟩
  · obtain ⟨told, htold, rfl⟩ := List.mem_map.mp hnew
    rw [Option.mem_toList] at htold
    exact Or.inr (hreceiver ▸ htold)

/-- A removal stays newer than every pairing as long as nobody pairs the
device. -/
theorem RemovedSince.after {group : Group} {device other : DeviceId}
    {action : NodeAction} (hremoved : group.RemovedSince other)
    (hpairs : other ∉ Node.pairs device action) (next : Node) :
    (group.after device action next).RemovedSince other := by
  obtain ⟨ms, hremoval, hnot⟩ := hremoved
  refine ⟨ms, List.mem_append_left _ hremoval, fun pairing hmem hdevice => ?_⟩
  rcases List.mem_append.mp hmem with hold | hnew
  · exact hnot pairing hold hdevice
  · obtain ⟨paired, hpaired, rfl⟩ := List.mem_map.mp hnew
    exact absurd (hdevice ▸ hpaired) hpairs

/-- Nobody that is paired in an allowed step has a goodbye on the way. -/
theorem not_parting_of_pairs {group : Group} {device other : DeviceId}
    {action : NodeAction} (htells : group.TellsNews (.act device action))
    (hpairs : other ∈ Node.pairs device action) : ¬ group.Parting other := by
  cases action with
  | storePeer peer saved =>
      rcases List.mem_cons.mp hpairs with rfl | hpeer
      · exact htells.1
      · obtain rfl := List.mem_singleton.mp hpeer
        exact htells.2
  | _ => contradiction

/-- Whoever is told in an allowed step was not paired since it was removed. -/
theorem removedSince_of_tells {group : Group} (hinv : group.GroupInv)
    {device told : DeviceId} {action : NodeAction}
    (htells : group.TellsNews (.act device action))
    (htold : told ∈ (group.nodes device).tells action) (next : Node) :
    (group.after device action next).RemovedSince told := by
  have hremembered : (∃ removed ∈ (group.nodes device).store.removal told,
      group.NotPairedAfter told removed.removedAtMs) →
        group.RemovedSince told := by
    rintro ⟨removed, hremoval, hnot⟩
    obtain ⟨hmem, rfl⟩ := Table.mem_of_lookup hremoval
    exact ⟨removed.removedAtMs,
      hinv.remembered device (List.mem_map_of_mem hmem), hnot⟩
  cases action with
  | removePeer gone =>
      -- The user removes the device now, which is later than every pairing.
      refine ⟨group.now, List.mem_append_right _ ?_, fun pairing hmem _ => ?_⟩
      · exact List.mem_map_of_mem (Option.mem_toList.mpr htold)
      · rcases List.mem_append.mp hmem with hold | hnew
        · exact hinv.clock pairing hold
        · contradiction
  | told _ _ =>
      exact (hremembered (htells told htold)).after List.not_mem_nil next
  | disconnectNext _ =>
      exact (hremembered (htells told htold)).after List.not_mem_nil next
  | _ => contradiction

theorem groupInv_after {group : Group} (hinv : group.GroupInv)
    {device : DeviceId} {action : NodeAction}
    (hpossible : group.Possible device action)
    (htells : group.TellsNews (.act device action)) {next : Node}
    (hstep : (group.nodes device).step device action = some next) :
    (group.after device action next).GroupInv := by
  have hgrows : group.removals ⊆ (group.after device action next).removals :=
    List.subset_append_left _ _
  obtain ⟨hwell, hremovals⟩ := removals_step (hinv.stores device) hstep
    hpossible.1 (List.Subset.trans (hinv.remembered device) hgrows)
    (fun other hother => List.mem_append_right _
      (List.mem_map_of_mem (Option.mem_toList.mpr hother)))
    (fun letter hletter roster hroster => List.Subset.trans
      (hinv.reported letter (hpossible.2 letter hletter) roster hroster) hgrows)
  constructor
  case stores =>
    intro other
    by_cases hother : other = device
    · subst hother
      simpa [after] using hwell
    · simpa [after, hother] using hinv.stores other
  case remembered =>
    intro other
    by_cases hother : other = device
    · subst hother
      simpa [after] using hremovals
    · have hsame : (group.after device action next).nodes other =
          group.nodes other := Function.update_of_ne hother _ _
      rw [hsame]
      exact List.Subset.trans (hinv.remembered other) hgrows
  case reported =>
    intro letter hmem roster hroster
    rcases List.mem_append.mp hmem with hold | hnew
    · exact List.Subset.trans
        (hinv.reported letter (List.diff_subset _ _ hold) roster hroster) hgrows
    · obtain ⟨told, _, rfl⟩ := List.mem_map.mp hnew
      contradiction
  case clock =>
    intro pairing hmem
    rcases List.mem_append.mp hmem with hold | hnew
    · exact hinv.clock pairing hold
    · obtain ⟨paired, _, rfl⟩ := List.mem_map.mp hnew
      exact Nat.le_refl _
  case parting =>
    intro other hparting
    rcases parting_after hparting with hold | htold
    · refine (hinv.parting other hold).after (fun hpairs => ?_) next
      exact not_parting_of_pairs htells hpairs hold
    · exact removedSince_of_tells hinv htells htold next

theorem groupInv_step (group : Group) (action : GroupAction) (next : Group)
    (hinv : group.GroupInv) (htells : group.TellsNews action)
    (hstep : machine.step group action = some next) : next.GroupInv := by
  cases action with
  | wait ms =>
      obtain rfl := Option.some.inj hstep
      exact { hinv with
        clock := fun pairing hmem =>
          (hinv.clock pairing hmem).trans (Nat.le_add_right _ _) }
  | act device action =>
      dsimp only [machine, step] at hstep
      split at hstep
      · next hpossible =>
        obtain ⟨node, hnode, rfl⟩ := Option.map_eq_some_iff.mp hstep
        exact groupInv_after hinv hpossible htells hnode
      · contradiction
  | sendRoster sender receiver =>
      obtain rfl := Option.some.inj hstep
      refine { hinv with reported := ?_, parting := ?_ }
      · intro letter hmem roster hroster
        rcases List.mem_append.mp hmem with hold | hnew
        · exact hinv.reported letter hold roster hroster
        · obtain rfl := List.mem_singleton.mp hnew
          obtain rfl := Message.roster.inj hroster
          rw [PeerStore.reported_roster]
          exact hinv.remembered sender
      · rintro device ⟨letter, hmem, hreceiver, hbye⟩
        rcases List.mem_append.mp hmem with hold | hnew
        · exact hinv.parting device ⟨letter, hold, hreceiver, hbye⟩
        · obtain rfl := List.mem_singleton.mp hnew
          contradiction
  | lose letter =>
      obtain rfl := Option.some.inj hstep
      refine { hinv with reported := ?_, parting := ?_ }
      · intro other hmem
        exact hinv.reported other (List.mem_of_mem_erase hmem)
      · rintro device ⟨other, hmem, hother⟩
        exact hinv.parting device ⟨other, List.mem_of_mem_erase hmem, hother⟩

theorem keepsPaired_of_groupInv (group : Group) (action : GroupAction)
    (hinv : group.GroupInv) : group.KeepsPaired action := by
  intro device hleaves
  unfold Leaves at hleaves
  split at hleaves
  · next other index saved =>
    obtain ⟨rfl, letter, hletter, hflight, _⟩ := hleaves
    refine (hinv.parting _ ⟨letter, hflight, ?_⟩).not_pairedSince
    dsimp only [Node.takesIn] at hletter
    split at hletter
    · obtain rfl := Option.some.inj hletter
      exact ⟨rfl, rfl⟩
    · contradiction
  · contradiction

/-- In every run in which devices are told only of removals they were not paired
after, no device leaves the group that was paired since it was removed. -/
theorem keepsPaired_along (actions : List GroupAction)
    (htells : machine.Along TellsNews start actions) :
    machine.Along KeepsPaired start actions :=
  Machine.along_of_invariant
    (fun group action hinv _ => keepsPaired_of_groupInv group action hinv)
    groupInv_step groupInv_start htells

/-! ## A member that missed the pairing -/

section LaggingMember

/-- Both sides of a pairing. -/
def pair (left right : Peer) : List GroupAction :=
  [.act left.deviceId (.storePeer right (.ok ())),
    .act right.deviceId (.storePeer left (.ok ()))]

def tablet (pairedAtMs : ℕ) : Peer :=
  { deviceId := ⟨2⟩, name := "tablet", publicKey := 3, pairedAtMs,
    lastAddress := none }

def desktop (pairedAtMs : ℕ) : Peer :=
  { deviceId := ⟨9⟩, name := "desktop", publicKey := 4, pairedAtMs,
    lastAddress := none }

/-- The tablet is paired with the desktop and the laptop, and its user removes
the laptop, which is offline. -/
def removedOffline : List GroupAction :=
  [.wait 10] ++ pair (tablet 10) (desktop 10) ++
    pair (tablet 10) (PeerStore.laptop 10) ++
    [.wait 10, .act ⟨2⟩ (.removePeer ⟨5⟩),
      .act ⟨2⟩ (.removeFromStore 0 20 (.ok ()))]

/-- The laptop opens a session with the tablet, which tells it. -/
def toldByTablet : List GroupAction :=
  [.act ⟨5⟩ (.connect ⟨2⟩), .act ⟨2⟩ (.accept ⟨5⟩), .act ⟨2⟩ (.told 1 (.ok ())),
    .act ⟨5⟩ (.authenticated 0 "tablet" none (.ok ())), .act ⟨5⟩ (.check 0),
    .act ⟨5⟩ (.insert 0)]

/-- The laptop is paired with the desktop again, and the tablet misses it. -/
def pairedAgain : List GroupAction :=
  removedOffline ++ [.wait 10] ++ pair (desktop 30) (PeerStore.laptop 30) ++
    toldByTablet

/-- The laptop forgets the group all the same. -/
theorem not_keepsPaired_pairedAgain :
    ¬ machine.Along KeepsPaired start
      (pairedAgain ++ [.act ⟨5⟩ (.receiveBye 0 (.ok ()))]) := by
  intro halong
  obtain ⟨group, hrun, htask, hflight, hlisted, hpaired, hremovals⟩ :
      ∃ group ∈ machine.run start pairedAgain,
        (group.nodes ⟨5⟩).tasks[0]? = some (.reading ⟨⟨2⟩, 3⟩ 0) ∧
          ⟨⟨2⟩, ⟨5⟩, .bye⟩ ∈ group.inFlight ∧
          (group.nodes ⟨5⟩).store.get ⟨2⟩ ≠ none ∧
          (⟨5⟩, 30) ∈ group.pairings ∧ group.removals = [(⟨5⟩, 20)] := by
    decide
  have hkeeps : group.KeepsPaired (.act ⟨5⟩ (.receiveBye 0 (.ok ()))) :=
    halong.of_run hrun
  refine hkeeps ⟨5⟩ ⟨rfl, ⟨⟨2⟩, ⟨5⟩, .bye⟩, ?_, hflight, hlisted⟩
    ⟨(⟨5⟩, 30), hpaired, rfl, ?_⟩
  · simp only [Node.takesIn, htask]
    rfl
  · rw [hremovals]
    decide

/-- Nobody pairs the laptop again, and it leaves when the tablet tells it. -/
theorem keepsPaired_removedOffline :
    (machine.run start (removedOffline ++ toldByTablet ++
      [.act ⟨5⟩ (.receiveBye 0 (.ok ()))])).isSome = true ∧
    machine.Along KeepsPaired start (removedOffline ++ toldByTablet ++
      [.act ⟨5⟩ (.receiveBye 0 (.ok ()))]) :=
  ⟨by decide, keepsPaired_along _ (by decide)⟩

end LaggingMember

end Group

end Cled.Lan
