import Mathlib.Logic.Function.Basic
import Cled.Lan.AnyOrder

/-!
# Where keys come from

A pairing stores the key of a device together with the time of the pairing.
Both then travel together: from store to roster, from roster to store, and from
the peers of a store to its removals.  Whatever rosters are sent, delayed or
delivered twice, each key in a store is one that a pairing stored, with the time
of that pairing.
-/

namespace Cled.Lan

open Cled.Core Cled.Sync

/-- A device, its key and the time it was paired. -/
abbrev Credential := DeviceId × PublicKey × ℕ

def Peer.credential (peer : Peer) : Credential :=
  (peer.deviceId, peer.publicKey, peer.pairedAtMs)

def RosterPeer.credential (entry : RosterPeer) : Credential :=
  (DeviceId.fromBytes entry.deviceId, entry.publicKey, entry.pairedAtMs)

/-- Every entry of the roster has its key and time from this list. -/
structure Roster.DrawnFrom (roster : Roster) (known : List Credential) :
    Prop where
  members : ∀ entry ∈ roster.members, entry.credential ∈ known
  removed : ∀ removal ∈ roster.removed, removal.peer.credential ∈ known

theorem credential_fromRoster {entry : RosterPeer} {peer : Peer}
    (hfrom : fromRoster entry = some peer) :
    peer.credential = entry.credential := by
  unfold fromRoster at hfrom
  split at hfrom
  · contradiction
  · obtain rfl := Option.some.inj hfrom
    rfl

namespace PeerStore

/-- Every entry of the store has its key and time from this list. -/
structure DrawnFrom (store : PeerStore) (known : List Credential) : Prop where
  peers : ∀ peer ∈ store.peers, peer.credential ∈ known
  removed : ∀ removed ∈ store.removed, removed.peer.credential ∈ known

theorem credential_aboutOthers {me sender : DeviceId} {entry : RosterPeer}
    {peer : Peer} (habout : aboutOthers me sender entry = some peer) :
    peer.credential = entry.credential :=
  credential_fromRoster (Option.filter_eq_some_iff.mp habout).1

/-- An entry either leaves key and time alone or replaces both. -/
theorem credential_updatedBy (known peer : Peer)
    (hid : known.deviceId = peer.deviceId) :
    (updatedBy known peer).credential = known.credential ∨
      (updatedBy known peer).credential = peer.credential := by
  unfold updatedBy Peer.credential
  by_cases hrekeys : Rekeys known peer
  · exact Or.inr (by simp [hrekeys, hid])
  · exact Or.inl (by simp [hrekeys])

/-! ## One store -/

section Store

variable {known : List Credential} {store : PeerStore}

theorem drawnFrom_empty : empty.DrawnFrom known := ⟨nofun, nofun⟩

theorem DrawnFrom.roster (hdrawn : store.DrawnFrom known) :
    store.roster.DrawnFrom known where
  members := List.forall_mem_map.mpr hdrawn.peers
  removed := List.forall_mem_map.mpr hdrawn.removed

theorem DrawnFrom.put (hdrawn : store.DrawnFrom known) {peer : Peer}
    (hpeer : peer.credential ∈ known) : (store.put peer).DrawnFrom known where
  peers other hother := by
    rcases List.mem_append.mp hother with hold | hnew
    · exact hdrawn.peers other (List.mem_of_mem_filter hold)
    · rwa [List.mem_singleton.mp hnew]
  removed removed hremoved :=
    hdrawn.removed removed (List.mem_of_mem_filter hremoved)

theorem DrawnFrom.rememberRemoval (hdrawn : store.DrawnFrom known)
    {removed : Removed} (hremoved : removed.peer.credential ∈ known) :
    (store.rememberRemoval removed).DrawnFrom known where
  peers := hdrawn.peers
  removed other hother := by
    rcases mem_rememberRemoval hother with rfl | hold
    · exact hremoved
    · exact hdrawn.removed other hold

theorem DrawnFrom.drop (hdrawn : store.DrawnFrom known) {peer : Peer}
    (hpeer : peer ∈ store.peers) (removedAtMs : ℕ) :
    (store.drop peer removedAtMs).DrawnFrom known := by
  have hpeers : PeerStore.DrawnFrom
      { store with
        peers := Table.removeFirst Peer.deviceId store.peers peer.deviceId }
      known :=
    ⟨fun other hother => hdrawn.peers other (List.mem_of_mem_eraseP hother),
      hdrawn.removed⟩
  exact hpeers.rememberRemoval (hdrawn.peers peer hpeer)

theorem DrawnFrom.modifyFirst (hdrawn : store.DrawnFrom known) (id : DeviceId)
    {change : Peer → Peer}
    (hchange : ∀ peer ∈ store.peers, peer.deviceId = id →
      (change peer).credential ∈ known) :
    PeerStore.DrawnFrom
      { store with
        peers := Table.modifyFirst Peer.deviceId store.peers id change }
      known where
  peers peer hpeer := by
    rcases Table.mem_modifyFirst hpeer with hold | ⟨row, hrow, hid, rfl⟩
    · exact hdrawn.peers peer hold
    · exact hchange row hrow hid
  removed := hdrawn.removed

theorem DrawnFrom.mergeMember (me sender : DeviceId) {merging : Merging}
    (hwell : merging.store.WellFormed)
    (hdrawn : merging.store.DrawnFrom known) {entry : RosterPeer}
    (hentry : entry.credential ∈ known) :
    (mergeMember me sender merging entry).store.DrawnFrom known := by
  have houtcome := mergeMember_outcome me sender hwell entry
  generalize PeerStore.mergeMember me sender merging entry = after
    at houtcome ⊢
  cases houtcome with
  | skipped _ => exact hdrawn
  | outdated _ _ _ _ _ => exact hdrawn
  | known peer known habout hget =>
      rw [← credential_aboutOthers habout] at hentry
      refine hdrawn.modifyFirst peer.deviceId fun row hrow hid => ?_
      rcases credential_updatedBy row peer hid with hsame | htaken
      · rw [hsame]
        exact hdrawn.peers row hrow
      · rwa [htaken]
  | joined peer habout _ _ =>
      exact hdrawn.put (credential_aboutOthers habout ▸ hentry)

theorem DrawnFrom.mergeRemoval (me sender : DeviceId) {merging : Merging}
    (hwell : merging.store.WellFormed)
    (hdrawn : merging.store.DrawnFrom known) {removal : RosterRemoval}
    (hremoval : removal.peer.credential ∈ known) :
    (mergeRemoval me sender merging removal).store.DrawnFrom known := by
  have houtcome := mergeRemoval_outcome me sender hwell removal
  generalize PeerStore.mergeRemoval me sender merging removal = after
    at houtcome ⊢
  cases houtcome with
  | skipped _ => exact hdrawn
  | oldNews _ _ _ _ _ => exact hdrawn
  | dropped peer known _ hget _ =>
      exact hdrawn.drop (Table.mem_of_lookup hget).1 _
  | alreadyHeard _ _ _ _ _ _ => exact hdrawn
  | learned peer habout _ _ =>
      exact hdrawn.rememberRemoval (credential_aboutOthers habout ▸ hremoval)

theorem DrawnFrom.mergeMembers (me sender : DeviceId)
    (members : List RosterPeer) {merging : Merging}
    (hwell : merging.store.WellFormed)
    (hdrawn : merging.store.DrawnFrom known)
    (hmembers : ∀ entry ∈ members, entry.credential ∈ known) :
    (members.foldl (PeerStore.mergeMember me sender)
      merging).store.DrawnFrom known := by
  apply mergeMembers_keeps me sender
    (motive := fun store => store.DrawnFrom known) hwell hdrawn
  intro merging entry hentry hwell hdrawn
  exact hdrawn.mergeMember me sender hwell (hmembers entry hentry)

theorem DrawnFrom.mergeRemovals (me sender : DeviceId)
    (removals : List RosterRemoval) {merging : Merging}
    (hwell : merging.store.WellFormed)
    (hdrawn : merging.store.DrawnFrom known)
    (hremovals : ∀ removal ∈ removals, removal.peer.credential ∈ known) :
    (removals.foldl (PeerStore.mergeRemoval me sender)
      merging).store.DrawnFrom known := by
  apply mergeRemovals_keeps me sender
    (motive := fun store => store.DrawnFrom known) hwell hdrawn
  intro merging removal hremoval hwell hdrawn
  exact hdrawn.mergeRemoval me sender hwell (hremovals removal hremoval)

/-- A merge takes keys and times only from the store and the roster. -/
theorem DrawnFrom.mergeEntries (hwell : store.WellFormed)
    (hdrawn : store.DrawnFrom known) (me sender : DeviceId) {roster : Roster}
    (hroster : roster.DrawnFrom known) :
    (store.mergeEntries me sender roster).store.DrawnFrom known := by
  let merging : Merging :=
    { store, change := RosterChange.none, dirty := false }
  have hmerging : merging.store.WellFormed := hwell
  have hmembers := DrawnFrom.mergeMembers me sender
    (roster.members.take maxRosterEntries) hmerging hdrawn
    fun entry hentry => hroster.members entry (List.mem_of_mem_take hentry)
  exact hmembers.mergeRemovals me sender _
    (wellFormed_mergeMembers me sender _ hmerging)
    fun removal hremoval =>
      hroster.removed removal (List.mem_of_mem_take hremoval)

theorem DrawnFrom.seen (hdrawn : store.DrawnFrom known) (id : DeviceId)
    (name : String) (address : Option SocketAddr)
    (saved : Except LanError Unit) :
    (store.seen id name address saved).2.DrawnFrom known := by
  unfold PeerStore.seen
  split
  · exact hdrawn
  dsimp only
  split
  · exact hdrawn
  · exact hdrawn.modifyFirst id fun row hrow _ => hdrawn.peers row hrow

theorem DrawnFrom.markNotified (hdrawn : store.DrawnFrom known)
    (id : DeviceId) (saved : Except LanError Unit) :
    (store.markNotified id saved).2.DrawnFrom known := by
  unfold PeerStore.markNotified
  split
  · exact hdrawn
  · refine ⟨hdrawn.peers, ?_⟩
    dsimp only
    have hpeers : ∀ removed : Removed,
        ∀ other ∈ (if removed.deviceId = id ∧ removed.notified = false then
          some { removed with notified := true } else none),
        other.peer = removed.peer := by
      intro removed other hother
      obtain ⟨_, ⟨⟩⟩ := Option.ite_none_right_eq_some.mp hother
      rfl
    have hsame := Table.map_replaceF hpeers store.removed
    rw [← List.forall_mem_map (P := fun peer => Peer.credential peer ∈ known),
      hsame, List.forall_mem_map]
    exact hdrawn.removed

/-- The keys and times that the change brings with it are from this list. -/
def Brings (known : List Credential) : Change → Prop
  | .upsert peer _ => peer.credential ∈ known
  | .merge _ _ roster _ => roster.DrawnFrom known
  | _ => True

theorem DrawnFrom.apply (hwell : store.WellFormed)
    (hdrawn : store.DrawnFrom known) {change : Change}
    (hbrings : Brings known change) : (store.apply change).DrawnFrom known := by
  cases change with
  | upsert peer saved => exact hdrawn.put hbrings
  | seen id name address saved => exact hdrawn.seen id name address saved
  | remove id removedAtMs saved =>
      unfold PeerStore.apply PeerStore.remove
      dsimp only
      split
      · exact hdrawn
      · next peer hget => exact hdrawn.drop (Table.mem_of_lookup hget).1 _
  | clear saved => exact ⟨nofun, hdrawn.removed⟩
  | markNotified id saved => exact hdrawn.markNotified id saved
  | merge me sender roster saved =>
      rw [PeerStore.apply, merge_store]
      exact hdrawn.mergeEntries hwell me sender hbrings

end Store

end PeerStore

/-! ## A group that sends rosters -/

/-- The stores of all devices, and every roster sent so far with its sender: one
that was sent may arrive at any time, at anyone, and as often as it likes. -/
structure Mailing where
  stores : DeviceId → PeerStore
  sent : List (DeviceId × Roster)

namespace Mailing

inductive Action where
  /-- A change of one store that is not a merge. -/
  | change (device : DeviceId) (change : PeerStore.Change)
  | send (device : DeviceId)
  | deliver (receiver sender : DeviceId) (roster : Roster)
      (saved : Except LanError Unit)

/-- Rosters are merged when they are delivered, and not otherwise. -/
def IsMerge : PeerStore.Change → Prop
  | .merge _ _ _ _ => True
  | _ => False

instance (change : PeerStore.Change) : Decidable (IsMerge change) := by
  apply change.casesOn (motive := fun change => Decidable (IsMerge change))
  all_goals
    intros
    dsimp only [IsMerge]
    infer_instance

/-- No device was ever paired. -/
def start : Mailing := ⟨fun _ => PeerStore.empty, []⟩

/-- The group after a change of one store. -/
def changeStore (group : Mailing) (device : DeviceId)
    (change : PeerStore.Change) : Mailing :=
  { group with
    stores := Function.update group.stores device
      ((group.stores device).apply change) }

def step (group : Mailing) : Action → Option Mailing
  | .change device change =>
      if IsMerge change then none else some (group.changeStore device change)
  | .send device =>
      some
        { group with sent := (device, (group.stores device).roster) :: group.sent }
  | .deliver receiver sender roster saved =>
      if (sender, roster) ∈ group.sent then
        some (group.changeStore receiver (.merge receiver sender roster saved))
      else none

def machine : Machine Mailing Action := ⟨step⟩

/-- What the action pairs: a device stores the key of another and the time. -/
def paired : Action → List Credential
  | .change _ (.upsert peer _) => [peer.credential]
  | _ => []

/-- Every key and time, in the stores and in what was sent, is from this list. -/
structure DrawnFrom (group : Mailing) (known : List Credential) : Prop where
  wellFormed : ∀ device, (group.stores device).WellFormed
  stores : ∀ device, (group.stores device).DrawnFrom known
  sent : ∀ letter ∈ group.sent, letter.2.DrawnFrom known

variable {known : List Credential} {group : Mailing}

theorem drawnFrom_start : start.DrawnFrom known where
  wellFormed _ := PeerStore.wellFormed_empty
  stores _ := PeerStore.drawnFrom_empty
  sent := nofun

theorem DrawnFrom.changeStore (hdrawn : group.DrawnFrom known)
    (device : DeviceId) {change : PeerStore.Change}
    (hbrings : PeerStore.Brings known change) :
    (group.changeStore device change).DrawnFrom known where
  wellFormed := (Function.forall_update_iff group.stores
      fun _ store => store.WellFormed).mpr
    ⟨PeerStore.wellFormed_apply (hdrawn.wellFormed device) change,
      fun other _ => hdrawn.wellFormed other⟩
  stores := (Function.forall_update_iff group.stores
      fun _ store => store.DrawnFrom known).mpr
    ⟨(hdrawn.stores device).apply (hdrawn.wellFormed device) hbrings,
      fun other _ => hdrawn.stores other⟩
  sent := hdrawn.sent

theorem drawnFrom_step {action : Action} {next : Mailing}
    (hdrawn : group.DrawnFrom known)
    (hpaired : paired action ⊆ known)
    (hstep : group.step action = some next) : next.DrawnFrom known := by
  cases action with
  | change device change =>
      obtain ⟨hlocal, hnext⟩ := Option.ite_none_left_eq_some.mp hstep
      obtain rfl := Option.some.inj hnext
      refine hdrawn.changeStore device ?_
      cases change with
      | upsert peer saved => exact hpaired List.mem_cons_self
      | merge me sender roster saved => exact absurd trivial hlocal
      | _ => trivial
  | send device =>
      obtain rfl := Option.some.inj hstep
      refine ⟨hdrawn.wellFormed, hdrawn.stores, ?_⟩
      exact List.forall_mem_cons.mpr
        ⟨(hdrawn.stores device).roster, hdrawn.sent⟩
  | deliver receiver sender roster saved =>
      obtain ⟨hsent, hnext⟩ := Option.ite_none_right_eq_some.mp hstep
      obtain rfl := Option.some.inj hnext
      exact hdrawn.changeStore receiver (hdrawn.sent _ hsent)

/-- Every key in a store, of a peer or of a removed device, was stored in a
pairing of the run, with the time it has in the store. -/
theorem paired_of_run {actions : List Action}
    (hrun : machine.run start actions = some group) {device : DeviceId}
    {entry : Peer}
    (hentry : entry ∈ (group.stores device).peers ∨
      ∃ removed ∈ (group.stores device).removed, removed.peer = entry) :
    ∃ pairer peer saved, .change pairer (.upsert peer saved) ∈ actions ∧
      peer.deviceId = entry.deviceId ∧ peer.publicKey = entry.publicKey ∧
      peer.pairedAtMs = entry.pairedAtMs := by
  let Inv : Mailing → Prop := fun group =>
    group.DrawnFrom (actions.flatMap paired)
  have hinv : ∀ group action next, Inv group → action ∈ actions →
      machine.step group action = some next → Inv next := by
    intro group action next hdrawn hmem hstep
    refine drawnFrom_step hdrawn (fun credential hpaired => ?_) hstep
    exact List.mem_flatMap.mpr ⟨action, hmem, hpaired⟩
  have hdrawn : Inv group := Machine.run_of_invariant hinv drawnFrom_start
    (machine.along_mem start actions) hrun
  have hcredential : entry.credential ∈ actions.flatMap paired := by
    rcases hentry with hpeer | ⟨removed, hremoved, rfl⟩
    · exact (hdrawn.stores device).peers entry hpeer
    · exact (hdrawn.stores device).removed removed hremoved
  obtain ⟨action, hmem, hpaired⟩ := List.mem_flatMap.mp hcredential
  unfold paired at hpaired
  split at hpaired
  · next pairer peer saved =>
    have hsame := List.mem_singleton.mp hpaired
    simp only [Peer.credential, Prod.mk.injEq] at hsame
    obtain ⟨hid, hkey, htime⟩ := hsame
    exact ⟨pairer, peer, saved, hmem, hid.symm, hkey.symm, htime.symm⟩
  · contradiction

/-- The laptop, paired again with a new key. -/
def newLaptop : Peer := { PeerStore.laptop 20 with publicKey := 8 }

/-- The desktop pairs the laptop and sends its roster, which reaches the tablet
after that has paired the laptop with its new key, and again after the laptop
was removed. -/
def delayed : List Action :=
  let roster := (PeerStore.paired 10).roster
  [.change ⟨1⟩ (.upsert (PeerStore.laptop 10) (.ok ())), .send ⟨1⟩,
    .change ⟨2⟩ (.upsert newLaptop (.ok ())),
    .deliver ⟨2⟩ ⟨1⟩ roster (.ok ()), .change ⟨2⟩ (.remove ⟨5⟩ 25 (.ok ())),
    .deliver ⟨2⟩ ⟨1⟩ roster (.ok ())]

theorem paired_delayed :
    ∃ pairer peer saved, .change pairer (.upsert peer saved) ∈ delayed ∧
      peer.deviceId = ⟨5⟩ ∧ peer.publicKey = 8 ∧ peer.pairedAtMs = 20 := by
  have hstored : (machine.run start delayed).map
      (fun group => (group.stores ⟨2⟩).removed) =
        some [⟨newLaptop, 25, false⟩] := by decide
  obtain ⟨group, hrun, hremoved⟩ := Option.map_eq_some_iff.mp hstored
  have hmem : ⟨newLaptop, 25, false⟩ ∈ (group.stores ⟨2⟩).removed :=
    hremoved ▸ List.mem_cons_self
  exact paired_of_run hrun (Or.inr ⟨_, hmem, rfl⟩)

end Mailing

end Cled.Lan
