import Mathlib.Algebra.BigOperators.Group.Finset.Basic
import Mathlib.Algebra.Order.BigOperators.Group.Finset
import Mathlib.Algebra.Order.Ring.Nat
import Mathlib.Order.Lattice.Nat
import Cled.Lan.Credentials
import Cled.Lan.Saving

/-!
# Rosters passed on

A device that learns something from a roster sends its own roster to the devices
it is connected to.  Each such roster has moved a store forward, which can
happen only so often, unless stores forget removals: two devices that remember
different removals out of more than `maxRemoved` teach each other what the other
has just forgotten, and never stop.
-/

namespace Cled.Lan

open Cled.Core Cled.Sync

/-- The stores and connections of the devices, and the rosters on their way. -/
structure Gossip where
  stores : DeviceId → PeerStore
  conns : DeviceId → List DeviceId
  /-- In the order they were sent. -/
  inFlight : List (DeviceId × DeviceId × Roster)

namespace Gossip

/-- The next roster of a link is delivered; `saved` is what saving answers. -/
structure Delivery where
  sender : DeviceId
  receiver : DeviceId
  saved : Except LanError Unit
  /-- What `roster_message` answers, if the receiver has news to pass on. -/
  encoded : Except LanError Unit

/-- The roster is on this link. -/
def onLink (delivery : Delivery) (letter : DeviceId × DeviceId × Roster) :
    Bool :=
  letter.1 = delivery.sender ∧ letter.2.1 = delivery.receiver

/-- The connections that a merge leaves: removed devices and those with a new
key are disconnected. -/
def keptBy (change : RosterChange) (conns : List DeviceId) : List DeviceId :=
  conns.filter fun device => device ∉ PeerStore.changedIds change

/-- Merges a roster and passes any news on to the rest of the group, unless the
roster that has become of it cannot be encoded. -/
def applyRoster (gossip : Gossip) (me sender : DeviceId) (roster : Roster)
    (saved encoded : Except LanError Unit) : Gossip :=
  let (result, store) := (gossip.stores me).merge me sender roster saved
  let merged :=
    { gossip with stores := Function.update gossip.stores me store }
  match result with
  | .error _ => merged
  | .ok change =>
      if change.isEmpty then merged
      else
        let kept := keptBy change (gossip.conns me)
        let told := if encoded.isOk then kept else []
        { merged with
          conns := Function.update gossip.conns me kept
          inFlight :=
            gossip.inFlight ++ told.map fun device => (me, device, store.roster) }

def step (gossip : Gossip) (delivery : Delivery) : Option Gossip :=
  (gossip.inFlight.find? (onLink delivery)).map fun letter =>
    applyRoster
      { gossip with
        inFlight := gossip.inFlight.eraseP (onLink delivery) }
      delivery.receiver delivery.sender letter.2.2 delivery.saved
        delivery.encoded

def machine : Machine Gossip Delivery := ⟨step⟩

/-- The receiver can remember all removals that it has or hears of together. -/
def Remembers (gossip : Gossip) (delivery : Delivery) : Prop :=
  ∀ letter ∈ gossip.inFlight.find? (onLink delivery),
    (gossip.stores delivery.receiver).Fits letter.2.2

instance (gossip : Gossip) (delivery : Delivery) :
    Decidable (gossip.Remembers delivery) :=
  inferInstanceAs
    (Decidable (∀ letter ∈ gossip.inFlight.find? (onLink delivery), _))

/-! ## One delivery -/

/-- What a delivery does: the receiver merges the roster, and if that is news it
may send its own roster to devices it is connected to. -/
structure Delivers (gossip : Gossip) (delivery : Delivery)
    (letter : DeviceId × DeviceId × Roster) (told : List DeviceId)
    (next : Gossip) : Prop where
  found : gossip.inFlight.find? (onLink delivery) = some letter
  stores : next.stores = Function.update gossip.stores delivery.receiver
    ((gossip.stores delivery.receiver).mergeEntries delivery.receiver
      delivery.sender letter.2.2).store
  conns : ∀ device, (next.conns device).Sublist (gossip.conns device)
  connected : told.Sublist (gossip.conns delivery.receiver)
  inFlight : next.inFlight = gossip.inFlight.eraseP (onLink delivery) ++
    told.map fun device =>
      (delivery.receiver, device, (next.stores delivery.receiver).roster)
  quiet : PeerStore.NoNews delivery.receiver delivery.sender
    (gossip.stores delivery.receiver) letter.2.2 → told = []

theorem step_delivers {gossip next : Gossip} {delivery : Delivery}
    (hwell : (gossip.stores delivery.receiver).WellFormed)
    (hstep : gossip.step delivery = some next) :
    ∃ letter told, Delivers gossip delivery letter told next := by
  obtain ⟨letter, hfound, rfl⟩ := Option.map_eq_some_iff.mp hstep
  let store := gossip.stores delivery.receiver
  have hstore := store.merge_store delivery.receiver delivery.sender
    letter.2.2 delivery.saved
  unfold applyRoster
  dsimp only
  cases hmerge : store.merge delivery.receiver delivery.sender letter.2.2
    delivery.saved with
  | mk result after =>
      rw [hmerge] at hstore
      obtain rfl : after = _ := hstore
      cases result with
      | error message =>
          refine ⟨letter, [], hfound, rfl, fun _ => List.Sublist.refl _,
            List.nil_sublist _, ?_, fun _ => rfl⟩
          exact (List.append_nil _).symm
      | ok change =>
          dsimp only
          split
          · refine ⟨letter, [], hfound, rfl, fun _ => List.Sublist.refl _,
              List.nil_sublist _, ?_, fun _ => rfl⟩
            exact (List.append_nil _).symm
          · next hchange =>
            refine ⟨letter, if delivery.encoded.isOk then
              keptBy change (gossip.conns delivery.receiver) else [],
              hfound, rfl, ?_, ?_, ?_, ?_⟩
            · exact (Function.forall_update_iff gossip.conns fun device conns =>
                  conns.Sublist (gossip.conns device)).mpr
                ⟨List.filter_sublist, fun _ _ => List.Sublist.refl _⟩
            · split
              · exact List.filter_sublist
              · exact List.nil_sublist _
            · simp only [Function.update_self]
            · intro hnone
              have hquiet : store.merge delivery.receiver delivery.sender
                  letter.2.2 delivery.saved =
                    (.ok RosterChange.none, store) := by
                unfold PeerStore.merge
                rw [PeerStore.mergeEntries_of_noNews _ _ hwell hnone]
                rfl
              rw [hmerge] at hquiet
              obtain ⟨hresult, _⟩ := Prod.mk.inj hquiet
              obtain rfl := Except.ok.inj hresult
              exact absurd rfl hchange

/-! ## What can be told at all -/

/-- Everything that the devices can ever tell each other. -/
structure Horizon where
  devices : Finset DeviceId
  known : List Credential
  gone : List (DeviceId × ℕ)
  /-- No device is connected to more devices than this. -/
  width : ℕ

namespace Horizon

variable (horizon : Horizon)

/-- The devices that are told about. -/
def ids : Finset DeviceId :=
  (horizon.known.map Prod.fst ++ horizon.gone.map Prod.fst).toFinset

/-- No join or removal is later than this. -/
def latest : ℕ :=
  (horizon.known.map fun credential => credential.2.2).sum +
    (horizon.gone.map Prod.snd).sum

/-- No store gets further than this with a device. -/
def utmost : ℕ := 2 * (2 * horizon.latest + 2) + 1

variable {horizon}

theorem latest_of_known {credential : Credential}
    (hmem : credential ∈ horizon.known) :
    credential.2.2 ≤ horizon.latest := by
  have hle : credential.2.2 ≤
      (horizon.known.map fun credential => credential.2.2).sum :=
    List.le_sum_of_mem
      (List.mem_map_of_mem (f := fun credential => credential.2.2) hmem)
  exact hle.trans (Nat.le_add_right _ _)

theorem latest_of_gone {removal : DeviceId × ℕ}
    (hmem : removal ∈ horizon.gone) : removal.2 ≤ horizon.latest :=
  (List.le_sum_of_mem (List.mem_map_of_mem hmem)).trans (Nat.le_add_left _ _)

end Horizon

/-- A store that knows only what is inside the horizon. -/
structure StoreWithin (horizon : Horizon) (store : PeerStore) : Prop where
  wellFormed : store.WellFormed
  drawn : store.DrawnFrom horizon.known
  removals : store.removals ⊆ horizon.gone

/-- A roster that tells only what is inside the horizon. -/
structure RosterWithin (horizon : Horizon) (roster : Roster) : Prop where
  drawn : roster.DrawnFrom horizon.known
  removals : PeerStore.reported roster ⊆ horizon.gone

structure Within (horizon : Horizon) (gossip : Gossip) : Prop where
  stores : ∀ device ∈ horizon.devices,
    StoreWithin horizon (gossip.stores device)
  conns : ∀ device ∈ horizon.devices,
    (gossip.conns device).length ≤ horizon.width ∧
      ∀ other ∈ gossip.conns device, other ∈ horizon.devices
  inFlight : ∀ letter ∈ gossip.inFlight,
    letter.2.1 ∈ horizon.devices ∧ RosterWithin horizon letter.2.2

section Within

variable {horizon : Horizon}

theorem StoreWithin.roster {store : PeerStore}
    (hwithin : StoreWithin horizon store) :
    RosterWithin horizon store.roster where
  drawn := hwithin.drawn.roster
  removals := by
    rw [PeerStore.reported_roster]
    exact hwithin.removals

theorem StoreWithin.mergeEntries {store : PeerStore}
    (hwithin : StoreWithin horizon store) (me sender : DeviceId)
    {roster : Roster} (hroster : RosterWithin horizon roster) :
    StoreWithin horizon (store.mergeEntries me sender roster).store where
  wellFormed :=
    PeerStore.wellFormed_mergeEntries hwithin.wellFormed me sender roster
  drawn :=
    hwithin.drawn.mergeEntries hwithin.wellFormed me sender hroster.drawn
  removals := List.Subset.trans
    (PeerStore.removals_mergeEntries hwithin.wellFormed me sender roster)
    (List.append_subset.mpr ⟨hwithin.removals, hroster.removals⟩)

theorem rank_standing_le {store : PeerStore}
    (hwithin : StoreWithin horizon store) (id : DeviceId) :
    (store.standing id).rank ≤ 2 * horizon.latest + 2 := by
  cases hget : store.get id with
  | some peer =>
      have hpeer := hwithin.drawn.peers peer (Table.mem_of_lookup hget).1
      have hlatest : peer.pairedAtMs ≤ horizon.latest :=
        Horizon.latest_of_known hpeer
      rw [PeerStore.standing_of_get hget, PeerStore.rank_memberOf]
      omega
  | none =>
      cases hremoval : store.removal id with
      | some removed =>
          have hmem := (Table.mem_of_lookup hremoval).1
          have hlatest : removed.removedAtMs ≤ horizon.latest :=
            Horizon.latest_of_gone
              (hwithin.removals (List.mem_map_of_mem hmem))
          rw [PeerStore.standing_of_removal hget hremoval,
            Standing.rank_removed]
          omega
      | none =>
          rw [PeerStore.standing_of_none hget hremoval]
          exact Nat.zero_le _

theorem progress_le {store : PeerStore} (hwithin : StoreWithin horizon store)
    (id : DeviceId) : store.progress id ≤ horizon.utmost := by
  have hrank := rank_standing_le hwithin id
  have hflag := Bool.toNat_le ((store.get id).bind Peer.lastAddress).isSome
  unfold PeerStore.progress Horizon.utmost
  omega

/-- A store gets nowhere with a device that nobody tells of. -/
theorem mem_ids_of_progress {store : PeerStore}
    (hwithin : StoreWithin horizon store) {id : DeviceId}
    (hprogress : 0 < store.progress id) : id ∈ horizon.ids := by
  unfold Horizon.ids
  rw [List.mem_toFinset, List.mem_append]
  cases hget : store.get id with
  | some peer =>
      obtain ⟨hmem, rfl⟩ := Table.mem_of_lookup hget
      exact Or.inl (List.mem_map_of_mem (hwithin.drawn.peers peer hmem))
  | none =>
      cases hremoval : store.removal id with
      | some removed =>
          obtain ⟨hmem, rfl⟩ := Table.mem_of_lookup hremoval
          have hgone := hwithin.removals (List.mem_map_of_mem hmem)
          exact Or.inr (List.mem_map_of_mem hgone)
      | none =>
          rw [PeerStore.progress, PeerStore.standing_of_none hget hremoval,
            hget] at hprogress
          contradiction

theorem Within.found {gossip : Gossip} {delivery : Delivery}
    (hwithin : gossip.Within horizon) {letter : DeviceId × DeviceId × Roster}
    (hfound : gossip.inFlight.find? (onLink delivery) = some letter) :
    delivery.receiver ∈ horizon.devices ∧ RosterWithin horizon letter.2.2 := by
  have hlink := List.find?_some hfound
  have hreceiver : letter.2.1 = delivery.receiver :=
    (of_decide_eq_true hlink).2
  rw [← hreceiver]
  exact hwithin.inFlight letter (List.mem_of_find?_eq_some hfound)

theorem Within.delivers {gossip next : Gossip} {delivery : Delivery}
    (hwithin : gossip.Within horizon) {letter : DeviceId × DeviceId × Roster}
    {told : List DeviceId}
    (hdelivers : Delivers gossip delivery letter told next) :
    next.Within horizon := by
  obtain ⟨hdevice, hroster⟩ := hwithin.found hdelivers.found
  have hstores : ∀ device ∈ horizon.devices,
      StoreWithin horizon (next.stores device) := by
    rw [hdelivers.stores]
    exact (Function.forall_update_iff gossip.stores fun device store =>
        device ∈ horizon.devices → StoreWithin horizon store).mpr
      ⟨fun hmem => (hwithin.stores _ hmem).mergeEntries _ _ hroster,
        fun device _ => hwithin.stores device⟩
  refine ⟨hstores, fun device hmem => ?_, ?_⟩
  · obtain ⟨hwidth, hothers⟩ := hwithin.conns device hmem
    have hsublist := hdelivers.conns device
    exact ⟨hsublist.length_le.trans hwidth,
      fun other hother => hothers other (hsublist.subset hother)⟩
  · rw [hdelivers.inFlight]
    intro other hother
    rcases List.mem_append.mp hother with hold | hnew
    · exact hwithin.inFlight other (List.mem_of_mem_eraseP hold)
    · obtain ⟨device, htold, rfl⟩ := List.mem_map.mp hnew
      exact ⟨(hwithin.conns _ hdevice).2 device
          (hdelivers.connected.subset htold), (hstores _ hdevice).roster⟩

end Within

/-! ## A measure -/

/-- How far the store of a device still is from the horizon. -/
def ahead (horizon : Horizon) (store : PeerStore) : ℕ :=
  ∑ id ∈ horizon.ids, (horizon.utmost - store.progress id)

def left (horizon : Horizon) (gossip : Gossip) : ℕ :=
  ∑ device ∈ horizon.devices, ahead horizon (gossip.stores device)

/-- Moving one store forward pays for the rosters that are sent then. -/
def measure (horizon : Horizon) (gossip : Gossip) : ℕ :=
  gossip.left horizon * (horizon.width + 1) + gossip.inFlight.length

section Measure

variable {horizon : Horizon}

theorem ahead_lt_of_advances {before after : PeerStore}
    (hafter : StoreWithin horizon after) (hadvances : before.Advances after) :
    ahead horizon after < ahead horizon before := by
  obtain ⟨hforward, id, hlt⟩ := hadvances
  refine Finset.sum_lt_sum (fun other _ => ?_) ⟨id, ?_, ?_⟩
  · exact Nat.sub_le_sub_left (hforward other) _
  · exact mem_ids_of_progress hafter (Nat.zero_lt_of_lt hlt)
  · have hle := progress_le hafter id
    omega

theorem left_update {gossip : Gossip} {device : DeviceId}
    (hdevice : device ∈ horizon.devices) (store : PeerStore)
    (hle : ahead horizon store < ahead horizon (gossip.stores device)) :
    left horizon
        { gossip with
          stores := Function.update gossip.stores device store } <
      left horizon gossip := by
  refine Finset.sum_lt_sum (fun other _ => ?_) ⟨device, hdevice, ?_⟩
  · dsimp only
    by_cases hother : other = device
    · subst hother
      rw [Function.update_self]
      exact hle.le
    · rw [Function.update_of_ne hother]
  · dsimp only
    rwa [Function.update_self]

/-- Every delivery to a device that can remember all removals makes the measure
smaller. -/
theorem Within.measure_lt {gossip next : Gossip} {delivery : Delivery}
    (hwithin : gossip.Within horizon) (hremembers : gossip.Remembers delivery)
    {letter : DeviceId × DeviceId × Roster} {told : List DeviceId}
    (hdelivers : Delivers gossip delivery letter told next) :
    next.measure horizon < gossip.measure horizon := by
  have hletter := List.mem_of_find?_eq_some hdelivers.found
  obtain ⟨hdevice, hroster⟩ := hwithin.found hdelivers.found
  have herased :=
    List.length_eraseP_of_mem hletter (List.find?_some hdelivers.found)
  have hpositive : 0 < gossip.inFlight.length := List.length_pos_of_mem hletter
  have hstore := hwithin.stores delivery.receiver hdevice
  have htold : told.length ≤ horizon.width :=
    hdelivers.connected.length_le.trans (hwithin.conns _ hdevice).1
  unfold measure
  rw [hdelivers.inFlight, List.length_append, List.length_map, herased]
  have hleft : ∀ other : Gossip, other.stores = next.stores →
      other.left horizon = next.left horizon := by
    intro other hsame
    unfold left
    rw [hsame]
  by_cases hnews : PeerStore.NoNews delivery.receiver delivery.sender
    (gossip.stores delivery.receiver) letter.2.2
  · -- Nothing is learned, and nothing is sent.
    have hsame : gossip.stores = next.stores := by
      rw [hdelivers.stores, PeerStore.mergeEntries_of_noNews _ _
        hstore.wellFormed hnews, Function.update_eq_self]
    rw [hdelivers.quiet hnews, ← hleft gossip hsame, List.length_nil]
    omega
  · have hadvances := PeerStore.mergeEntries_advances delivery.receiver
      delivery.sender hstore.wellFormed
      (hremembers letter hdelivers.found) hnews
    have hafter :=
      hstore.mergeEntries delivery.receiver delivery.sender hroster
    have hlt := left_update hdevice _ (ahead_lt_of_advances hafter hadvances)
    rw [hleft _ hdelivers.stores.symm] at hlt
    have hpaid := Nat.mul_le_mul_right (horizon.width + 1)
      (Nat.succ_le_of_lt hlt)
    rw [Nat.succ_mul] at hpaid
    omega

end Measure

/-! ## Runs -/

/-- The keys and times in a store. -/
def storeCredentials (store : PeerStore) : List Credential :=
  store.peers.map Peer.credential ++
    store.removed.map fun removed => removed.peer.credential

/-- The keys and times in a roster. -/
def rosterCredentials (roster : Roster) : List Credential :=
  roster.members.map RosterPeer.credential ++
    roster.removed.map fun removal => removal.peer.credential

/-- What the devices know and what is on its way, and nothing else. -/
noncomputable def horizonOf (gossip : Gossip) (devices : Finset DeviceId) :
    Horizon where
  devices := devices
  known :=
    devices.toList.flatMap (fun device =>
        storeCredentials (gossip.stores device)) ++
      gossip.inFlight.flatMap fun letter => rosterCredentials letter.2.2
  gone :=
    devices.toList.flatMap (fun device =>
        (gossip.stores device).removals) ++
      gossip.inFlight.flatMap fun letter => PeerStore.reported letter.2.2
  width := devices.sup fun device => (gossip.conns device).length

theorem within_horizonOf {gossip : Gossip} {devices : Finset DeviceId}
    (hstores : ∀ device ∈ devices, (gossip.stores device).WellFormed)
    (hconns : ∀ device ∈ devices, ∀ other ∈ gossip.conns device,
      other ∈ devices)
    (hletters : ∀ letter ∈ gossip.inFlight, letter.2.1 ∈ devices) :
    gossip.Within (gossip.horizonOf devices) where
  stores device hdevice := by
    have hknown : storeCredentials (gossip.stores device) ⊆
        (gossip.horizonOf devices).known := fun credential hmem =>
      List.mem_append_left _
        (List.mem_flatMap.mpr ⟨device, Finset.mem_toList.mpr hdevice, hmem⟩)
    refine ⟨hstores device hdevice, ⟨fun peer hpeer => ?_,
      fun removed hremoved => ?_⟩, fun removal hmem => ?_⟩
    · exact hknown (List.mem_append_left _ (List.mem_map_of_mem hpeer))
    · exact hknown (List.mem_append_right _
        (List.mem_map_of_mem (f := fun removed => removed.peer.credential)
          hremoved))
    · exact List.mem_append_left _
        (List.mem_flatMap.mpr ⟨device, Finset.mem_toList.mpr hdevice, hmem⟩)
  conns device hdevice :=
    ⟨Finset.le_sup (f := fun device => (gossip.conns device).length) hdevice,
      hconns device hdevice⟩
  inFlight letter hletter := by
    have hknown : rosterCredentials letter.2.2 ⊆
        (gossip.horizonOf devices).known := fun credential hmem =>
      List.mem_append_right _ (List.mem_flatMap.mpr ⟨letter, hletter, hmem⟩)
    refine ⟨hletters letter hletter, ⟨fun entry hentry => ?_,
      fun removal hremoval => ?_⟩, fun removal hmem => ?_⟩
    · exact hknown (List.mem_append_left _ (List.mem_map_of_mem hentry))
    · exact hknown (List.mem_append_right _
        (List.mem_map_of_mem (f := fun removal => removal.peer.credential)
          hremoval))
    · exact List.mem_append_right _
        (List.mem_flatMap.mpr ⟨letter, hletter, hmem⟩)

theorem Within.step_delivers {horizon : Horizon} {gossip next : Gossip}
    {delivery : Delivery} (hwithin : gossip.Within horizon)
    (hstep : machine.step gossip delivery = some next) :
    ∃ letter told, Delivers gossip delivery letter told next := by
  obtain ⟨letter, hfound, _⟩ := Option.map_eq_some_iff.mp hstep
  have hdevice := (hwithin.found hfound).1
  exact Gossip.step_delivers (hwithin.stores _ hdevice).wellFormed hstep

theorem exists_step {gossip : Gossip} (hsome : gossip.inFlight ≠ []) :
    ∃ delivery next, machine.step gossip delivery = some next := by
  obtain ⟨letter, rest, hletters⟩ := List.exists_cons_of_ne_nil hsome
  let delivery : Delivery := ⟨letter.1, letter.2.1, .ok (), .ok ()⟩
  have hfound : gossip.inFlight.find? (onLink delivery) = some letter := by
    rw [hletters]
    exact List.find?_cons_of_pos (decide_eq_true ⟨rfl, rfl⟩)
  refine ⟨delivery, Option.isSome_iff_exists.mp ?_⟩
  change (Option.map _ _).isSome = true
  rw [hfound]
  rfl

/-- As long as every device can remember the removals that it has and hears of,
only so many rosters are delivered, in whatever order, and then none is left. -/
theorem stops {gossip : Gossip} {devices : Finset DeviceId}
    (hstores : ∀ device ∈ devices, (gossip.stores device).Reachable)
    (hconns : ∀ device ∈ devices, ∀ other ∈ gossip.conns device,
      other ∈ devices)
    (hletters : ∀ letter ∈ gossip.inFlight, letter.2.1 ∈ devices) :
    ∃ bound, ∀ deliveries final,
      machine.Along Remembers gossip deliveries →
      machine.run gossip deliveries = some final →
        deliveries.length ≤ bound ∧
          (final.inFlight ≠ [] →
            ∃ delivery next, machine.step final delivery = some next) := by
  let horizon := gossip.horizonOf devices
  have hwithin : gossip.Within horizon := within_horizonOf
    (fun device hdevice => (hstores device hdevice).wellFormed) hconns hletters
  refine ⟨gossip.measure horizon, fun deliveries final hremembers hrun => ?_⟩
  refine ⟨?_, exists_step⟩
  refine Machine.length_le_of_measure (fun state delivery next hstate hfits
    hstep => ?_) hwithin hremembers hrun
  obtain ⟨letter, told, hdelivers⟩ := hstate.step_delivers hstep
  exact ⟨hstate.delivers hdelivers, hstate.measure_lt hfits hdelivers⟩

/-! ## More removals than can be remembered -/

section Endless

open PeerStore

/-- Devices that were removed long ago. -/
def stranger (index : ℕ) : Peer :=
  { deviceId := ⟨BitVec.ofNat 128 index⟩
    name := ""
    publicKey := 1
    pairedAtMs := 0
    lastAddress := none }

def goneStranger (index : ℕ) : Removed := ⟨stranger index, 1, false⟩

/-- A store that remembers these removals, the oldest first. -/
def remembering (indices : List ℕ) : PeerStore :=
  ⟨[], indices.map goneStranger⟩

/-- Indices of devices other than the two that gossip. -/
def Strange (indices : List ℕ) : Prop :=
  ∀ index ∈ indices, 2 < index ∧ index < 1000

theorem stranger_inj {left right : ℕ} (hleft : left < 1000)
    (hright : right < 1000)
    (heq : (stranger left).deviceId = (stranger right).deviceId) :
    left = right := by
  have hnat := congrArg (fun id : DeviceId => id.uuid.toNat) heq
  simp only [stranger, BitVec.toNat_ofNat] at hnat
  omega

variable {me sender : DeviceId} (hme : me.uuid.toNat ≤ 2)
  (hsender : sender.uuid.toNat ≤ 2)

include hme hsender in
theorem aboutOthers_stranger {index : ℕ} (hstrange : 2 < index ∧ index < 1000) :
    aboutOthers me sender (toRoster (stranger index)) =
      some (stranger index) := by
  have hnat : (stranger index).deviceId.uuid.toNat = index := by
    simp only [stranger, BitVec.toNat_ofNat]
    omega
  have hne : ∀ other : DeviceId, other.uuid.toNat ≤ 2 →
      (stranger index).deviceId ≠ other := by
    rintro other hother rfl
    omega
  have hfrom : fromRoster (toRoster (stranger index)) =
      some (stranger index) := rfl
  rw [aboutOthers, hfrom, Option.filter_some, if_pos]
  simp [hne me hme, hne sender hsender]

/-- The entry of a roster about a removed stranger. -/
def strangerRemoval (index : ℕ) : RosterRemoval :=
  ⟨toRoster (stranger index), 1⟩

theorem roster_remembering (indices : List ℕ) :
    (remembering indices).roster = ⟨[], indices.map strangerRemoval⟩ := by
  unfold PeerStore.roster remembering
  rw [List.map_map]
  rfl

theorem mem_ids_iff {indices : List ℕ} (hstrange : Strange indices)
    {index : ℕ} (hindex : index < 1000) :
    (∃ removed ∈ indices.map goneStranger,
      removed.deviceId = (stranger index).deviceId) ↔ index ∈ indices := by
  constructor
  · rintro ⟨removed, hmem, hid⟩
    obtain ⟨other, hother, rfl⟩ := List.mem_map.mp hmem
    rwa [← stranger_inj (hstrange other hother).2 hindex hid]
  · exact fun hmem => ⟨_, List.mem_map_of_mem hmem, rfl⟩

theorem without_stranger {indices : List ℕ} (hstrange : Strange indices)
    {index : ℕ} (hindex : index < 1000) (hnew : index ∉ indices) :
    Table.without Removed.deviceId (indices.map goneStranger)
      (stranger index).deviceId = indices.map goneStranger := by
  refine Table.without_of_lookup_eq_none (Table.lookup_eq_none_iff.mpr ?_)
  exact fun removed hmem hid =>
    hnew ((mem_ids_iff hstrange hindex).mp ⟨removed, hmem, hid⟩)

section Learning

variable {indices : List ℕ} {change : RosterChange} {dirty : Bool}

include hme hsender in
theorem mergeRemoval_stranger (hstrange : Strange indices) {index : ℕ}
    (hindex : 2 < index ∧ index < 1000) :
    mergeRemoval me sender ⟨remembering indices, change, dirty⟩
        (strangerRemoval index) =
      if index ∈ indices then ⟨remembering indices, change, dirty⟩
      else
        ⟨(remembering indices).rememberRemoval (goneStranger index),
          { change with removalsLearned := true }, dirty⟩ := by
  have habout := aboutOthers_stranger hme hsender hindex
  have hany : ((remembering indices).removed.any fun removed =>
      removed.deviceId = (stranger index).deviceId &&
        (strangerRemoval index).removedAtMs ≤ removed.removedAtMs) =
      decide (index ∈ indices) := by
    rw [Bool.eq_iff_iff, decide_eq_true_iff, ← mem_ids_iff hstrange hindex.2,
      List.any_eq_true]
    refine exists_congr fun removed => and_congr_right fun hmem => ?_
    obtain ⟨other, _, rfl⟩ := List.mem_map.mp hmem
    rw [Bool.and_eq_true, decide_eq_true_iff, decide_eq_true_iff]
    exact and_iff_left le_rfl
  unfold mergeRemoval
  rw [show (strangerRemoval index).peer = toRoster (stranger index) from rfl,
    habout]
  dsimp only
  rw [show (remembering indices).get (stranger index).deviceId = none from rfl]
  dsimp only
  rw [hany]
  simp only [decide_eq_true_iff]
  rfl

theorem rememberRemoval_stranger (hstrange : Strange indices) {index : ℕ}
    (hindex : index < 1000) (hnew : index ∉ indices) :
    (remembering indices).rememberRemoval (goneStranger index) =
      remembering
        (if maxRemoved < indices.length + 1 then (indices ++ [index]).tail
        else indices ++ [index]) := by
  have hkept : Table.without Removed.deviceId (remembering indices).removed
      (goneStranger index).deviceId ++ [goneStranger index] =
        (indices ++ [index]).map goneStranger := by
    rw [List.map_append]
    exact congrArg (· ++ _) (without_stranger hstrange hindex hnew)
  unfold rememberRemoval
  dsimp only
  rw [hkept, List.length_map, List.length_append, List.length_singleton]
  split
  · rw [← List.map_tail]
    rfl
  · rfl

include hme hsender in
theorem mergeRemoval_full {first : ℕ} (hstrange : Strange (first :: indices))
    {index : ℕ} (hindex : 2 < index ∧ index < 1000)
    (hnew : index ∉ first :: indices)
    (hfull : (first :: indices).length = maxRemoved) :
    mergeRemoval me sender ⟨remembering (first :: indices), change, dirty⟩
        (strangerRemoval index) =
      ⟨remembering (indices ++ [index]),
        { change with removalsLearned := true }, dirty⟩ := by
  rw [mergeRemoval_stranger hme hsender hstrange hindex, if_neg hnew,
    rememberRemoval_stranger hstrange hindex.2 hnew, hfull,
    if_pos (Nat.lt_succ_self _)]
  rfl

include hme hsender in
/-- Removals that are remembered already change nothing. -/
theorem mergeRemovals_known (hstrange : Strange indices) {heard : List ℕ}
    (hknown : heard ⊆ indices) :
    (heard.map strangerRemoval).foldl (mergeRemoval me sender)
        ⟨remembering indices, change, dirty⟩ =
      ⟨remembering indices, change, dirty⟩ := by
  induction heard with
  | nil => rfl
  | cons index heard ih =>
      obtain ⟨hhead, hrest⟩ := List.cons_subset.mp hknown
      rw [List.map_cons, List.foldl_cons, mergeRemoval_stranger hme hsender
        hstrange (hstrange index hhead), if_pos hhead]
      exact ih hrest

include hme hsender in
/-- A full store that hears of the removal it forgot last learns it again and
forgets the next one, over and over. -/
theorem mergeRemovals_forgotten {last first : ℕ} {todo done : List ℕ}
    (hstrange : Strange (first :: todo ++ last :: done))
    (hdistinct : (first :: todo ++ last :: done).Nodup)
    (hfull : (todo ++ last :: done).length = maxRemoved) :
    ((first :: todo).map strangerRemoval).foldl (mergeRemoval me sender)
        ⟨remembering (todo ++ last :: done), change, dirty⟩ =
      ⟨remembering (done ++ first :: todo),
        { change with removalsLearned := true }, dirty⟩ := by
  have hfirst := hstrange first List.mem_cons_self
  induction todo generalizing first done change with
  | nil =>
      obtain ⟨hnew, _⟩ := List.nodup_cons.mp hdistinct
      exact mergeRemoval_full hme hsender
        (fun index hmem => hstrange index (List.mem_cons_of_mem _ hmem)) hfirst
        hnew hfull
  | cons next todo ih =>
      obtain ⟨hnew, _⟩ := List.nodup_cons.mp hdistinct
      have hperm : (next :: todo ++ last :: (done ++ [first])).Perm
          (first :: (next :: todo) ++ last :: done) := by
        have hrotated := List.perm_append_singleton first
          (next :: todo ++ last :: done)
        simpa using hrotated
      let learned : RosterChange := { change with removalsLearned := true }
      have hhead : mergeRemoval me sender
          ⟨remembering (next :: todo ++ last :: done), change, dirty⟩
            (strangerRemoval first) =
          ⟨remembering (todo ++ last :: (done ++ [first])), learned, dirty⟩ := by
        have hstep : mergeRemoval me sender
            ⟨remembering (next :: (todo ++ last :: done)), change, dirty⟩
              (strangerRemoval first) =
            ⟨remembering ((todo ++ last :: done) ++ [first]), learned, dirty⟩ :=
          mergeRemoval_full hme hsender
            (fun index hmem => hstrange index (List.mem_cons_of_mem _ hmem))
            hfirst hnew hfull
        rwa [List.append_assoc, List.cons_append] at hstep
      have hrest : ((next :: todo).map strangerRemoval).foldl
          (mergeRemoval me sender)
            ⟨remembering (todo ++ last :: (done ++ [first])), learned, dirty⟩ =
          ⟨remembering (done ++ [first] ++ next :: todo), learned, dirty⟩ := by
        refine ih (fun index hmem => hstrange index (hperm.subset hmem))
          (hperm.nodup_iff.mpr hdistinct) ?_
          (hstrange next (List.mem_cons_of_mem _ List.mem_cons_self))
        rw [← hfull]
        simp only [List.length_append, List.length_cons, List.length_nil]
        omega
      rw [List.map_cons, List.foldl_cons, hhead, hrest, List.append_assoc,
        List.singleton_append]

end Learning

/-- The store learns a removal from the roster of the other, and ends up
remembering what that remembers. -/
def Teaches (me sender : DeviceId) (teacher pupil : List ℕ) : Prop :=
  (remembering pupil).mergeEntries me sender (remembering teacher).roster =
    { store := remembering teacher
      change := { RosterChange.none with removalsLearned := true }
      dirty := false }

theorem mergeEntries_remembering (me sender : DeviceId)
    (teacher pupil : List ℕ) (hfits : teacher.length ≤ maxRosterEntries) :
    (remembering pupil).mergeEntries me sender (remembering teacher).roster =
      (teacher.map strangerRemoval).foldl (mergeRemoval me sender)
        ⟨remembering pupil, RosterChange.none, false⟩ := by
  have htake : (teacher.map strangerRemoval).take maxRosterEntries =
      teacher.map strangerRemoval :=
    List.take_of_length_le (by rwa [List.length_map])
  rw [roster_remembering, mergeEntries, htake]
  rfl

/-- The strangers that both devices remember. -/
def common : List ℕ := List.range' 11 99

def earlier : List ℕ := 10 :: common

def later : List ℕ := common ++ [110]

theorem strange_all : Strange (10 :: common ++ 110 :: []) := by
  unfold Strange
  decide

theorem distinct_all : (10 :: common ++ 110 :: []).Nodup := by
  have hall : 10 :: common ++ 110 :: [] = List.range' 10 101 := rfl
  rw [hall]
  exact List.nodup_range'

include hme hsender in
theorem earlier_teaches : Teaches me sender earlier later :=
  (mergeEntries_remembering me sender earlier later (by decide)).trans
    (mergeRemovals_forgotten hme hsender strange_all distinct_all (by decide))

include hme hsender in
theorem later_teaches : Teaches me sender later earlier := by
  have hstrange : Strange earlier := fun index hmem =>
    strange_all index (List.mem_append_left _ hmem)
  unfold Teaches
  rw [mergeEntries_remembering me sender later earlier (by decide)]
  unfold later
  rw [List.map_append, List.foldl_append,
    mergeRemovals_known hme hsender hstrange (List.subset_cons_self _ _)]
  exact mergeRemoval_full hme hsender hstrange (by decide) (by decide)
    (by decide)

/-- The stores of the two devices, and of no others. -/
def storesOf (left right : List ℕ) (device : DeviceId) : PeerStore :=
  if device = ⟨1⟩ then remembering left
  else if device = ⟨2⟩ then remembering right
  else PeerStore.empty

theorem update_storesOf_left (left right learned : List ℕ) :
    Function.update (storesOf left right) ⟨1⟩ (remembering learned) =
      storesOf learned right := by
  funext device
  by_cases hdevice : device = ⟨1⟩
  · rw [hdevice, Function.update_self]
    rfl
  · rw [Function.update_of_ne hdevice, storesOf, storesOf, if_neg hdevice,
      if_neg hdevice]

theorem update_storesOf_right (left right learned : List ℕ) :
    Function.update (storesOf left right) ⟨2⟩ (remembering learned) =
      storesOf left learned := by
  funext device
  by_cases hdevice : device = ⟨2⟩
  · rw [hdevice, Function.update_self]
    rfl
  · rw [Function.update_of_ne hdevice, storesOf, storesOf, if_neg hdevice,
      if_neg hdevice]

/-- The two devices are connected, and each has sent its roster. -/
def between (left right : List ℕ) : Gossip where
  stores := storesOf left right
  conns device :=
    if device = ⟨1⟩ then [⟨2⟩] else if device = ⟨2⟩ then [⟨1⟩] else []
  inFlight :=
    [(⟨1⟩, ⟨2⟩, (remembering left).roster),
      (⟨2⟩, ⟨1⟩, (remembering right).roster)]

/-- One roster each way. -/
def bothWays : List Delivery :=
  [⟨⟨2⟩, ⟨1⟩, .ok (), .ok ()⟩, ⟨⟨1⟩, ⟨2⟩, .ok (), .ok ()⟩]

theorem applyRoster_of_teaches {gossip : Gossip} {teacher pupil : List ℕ}
    (hstore : gossip.stores me = remembering pupil)
    (hteaches : Teaches me sender teacher pupil) :
    gossip.applyRoster me sender (remembering teacher).roster (.ok ()) (.ok ()) =
      { stores := Function.update gossip.stores me (remembering teacher)
        conns := gossip.conns
        inFlight :=
          gossip.inFlight ++ (gossip.conns me).map fun device =>
            (me, device, (remembering teacher).roster) } := by
  let learned : RosterChange :=
    { RosterChange.none with removalsLearned := true }
  have hmerge : (gossip.stores me).merge me sender
      (remembering teacher).roster (.ok ()) =
        (.ok learned, remembering teacher) := by
    unfold merge
    rw [hstore, hteaches]
    rfl
  have hkept : keptBy learned (gossip.conns me) = gossip.conns me :=
    List.filter_eq_self.mpr fun device _ => decide_eq_true List.not_mem_nil
  unfold applyRoster
  rw [hmerge]
  dsimp only
  rw [hkept, Function.update_eq_self]
  rfl

theorem run_bothWays {left right : List ℕ}
    (hleft : Teaches ⟨1⟩ ⟨2⟩ right left) (hright : Teaches ⟨2⟩ ⟨1⟩ left right) :
    machine.run (between left right) bothWays = some (between right left) := by
  let middle : Gossip :=
    { between right right with
      inFlight :=
        [(⟨1⟩, ⟨2⟩, (remembering left).roster),
          (⟨1⟩, ⟨2⟩, (remembering right).roster)] }
  have hfirst : machine.step (between left right) ⟨⟨2⟩, ⟨1⟩, .ok (), .ok ()⟩ =
      some middle := by
    have hstep : machine.step (between left right) ⟨⟨2⟩, ⟨1⟩, .ok (), .ok ()⟩ =
        some (applyRoster
          { between left right with
            inFlight := [(⟨1⟩, ⟨2⟩, (remembering left).roster)] }
          ⟨1⟩ ⟨2⟩ (remembering right).roster (.ok ()) (.ok ())) := rfl
    rw [hstep, applyRoster_of_teaches rfl hleft]
    dsimp only [between]
    rw [update_storesOf_left]
    rfl
  have hsecond : machine.step middle ⟨⟨1⟩, ⟨2⟩, .ok (), .ok ()⟩ =
      some (between right left) := by
    have hstep : machine.step middle ⟨⟨1⟩, ⟨2⟩, .ok (), .ok ()⟩ =
        some (applyRoster
          { middle with
            inFlight := [(⟨1⟩, ⟨2⟩, (remembering right).roster)] }
          ⟨2⟩ ⟨1⟩ (remembering left).roster (.ok ()) (.ok ())) := rfl
    rw [hstep, applyRoster_of_teaches rfl hright]
    dsimp only [middle, between]
    rw [update_storesOf_right]
    rfl
  rw [bothWays, Machine.run, hfirst, Option.bind_some, Machine.run, hsecond]
  rfl

theorem run_rounds (rounds : ℕ) :
    machine.run (between earlier later)
        (List.replicate rounds (bothWays ++ bothWays)).flatten =
      some (between earlier later) := by
  have hone : (1 : BitVec 128).toNat ≤ 2 := by decide
  have htwo : (2 : BitVec 128).toNat ≤ 2 := by decide
  induction rounds with
  | zero => rfl
  | succ rounds ih =>
      have hthere : machine.run (between earlier later) bothWays =
          some (between later earlier) :=
        run_bothWays (later_teaches hone htwo) (earlier_teaches htwo hone)
      have hback : machine.run (between later earlier) bothWays =
          some (between earlier later) :=
        run_bothWays (earlier_teaches hone htwo) (later_teaches htwo hone)
      rw [List.replicate_succ, List.flatten_cons, List.append_assoc,
        Machine.run_append, hthere, Option.bind_some, Machine.run_append,
        hback, Option.bind_some, ih]

/-- A device that pairs strangers and removes them again remembers them. -/
theorem reachable_remembering {indices : List ℕ} (hstrange : Strange indices)
    (hdistinct : indices.Nodup) (hfits : indices.length ≤ maxRemoved) :
    (remembering indices).Reachable := by
  induction indices using List.reverseRecOn with
  | nil => exact ⟨[], rfl⟩
  | append_singleton front index ih =>
      have hfront : Strange front := fun other hother =>
        hstrange other (List.mem_append_left _ hother)
      have hindex := hstrange index (List.mem_append_right _ List.mem_cons_self)
      rw [List.nodup_append_comm] at hdistinct
      obtain ⟨hnew, hrest⟩ := List.nodup_cons.mp hdistinct
      rw [List.length_append, List.length_singleton] at hfits
      obtain ⟨changes, hrun⟩ := ih hfront hrest (by omega)
      have hwithout := without_stranger hfront hindex.2 hnew
      let paired : PeerStore := ⟨[stranger index], front.map goneStranger⟩
      have hput : (remembering front).apply
          (.upsert (stranger index) (.ok ())) = paired := by
        change PeerStore.mk [stranger index] (Table.without Removed.deviceId
          (front.map goneStranger) (stranger index).deviceId) = paired
        rw [hwithout]
      have hdrop : paired.apply
          (.remove (stranger index).deviceId 1 (.ok ())) =
            remembering (front ++ [index]) := by
        have hpeers : Table.removeFirst Peer.deviceId [stranger index]
            (stranger index).deviceId = [] :=
          List.eraseP_cons_of_pos (decide_eq_true rfl)
        have hget : paired.get (stranger index).deviceId =
            some (stranger index) := by
          simp [PeerStore.get, Table.lookup, paired]
        rw [apply, remove, hget]
        change PeerStore.rememberRemoval ⟨Table.removeFirst Peer.deviceId
          [stranger index] (stranger index).deviceId, _⟩
            (goneStranger index) = _
        rw [hpeers]
        refine (rememberRemoval_stranger hfront hindex.2 hnew).trans ?_
        rw [if_neg (Nat.not_lt.mpr hfits)]
      refine ⟨changes ++ [.upsert (stranger index) (.ok ()),
        .remove (stranger index).deviceId 1 (.ok ())], ?_⟩
      rw [Machine.run_append, hrun, Option.bind_some]
      change (some ((remembering front).apply _)).bind _ = _
      rw [hput]
      change (some (paired.apply _)).bind _ = _
      rw [hdrop]
      rfl

/-- Two devices that remember different removals pass rosters on forever. -/
theorem not_stops_between :
    (∀ device, ((between earlier later).stores device).Reachable) ∧
      ∀ rounds, ∃ deliveries final, deliveries.length = 4 * rounds ∧
        machine.run (between earlier later) deliveries = some final ∧
        final.inFlight ≠ [] := by
  refine ⟨fun device => ?_, fun rounds => ?_⟩
  · have hearlier : Strange earlier := fun index hmem =>
      strange_all index (List.mem_append_left _ hmem)
    have hlater : Strange later := fun index hmem =>
      strange_all index (List.mem_cons_of_mem _ hmem)
    have hdistinctEarlier : earlier.Nodup :=
      distinct_all.sublist (List.sublist_append_left _ _)
    have hdistinctLater : later.Nodup :=
      distinct_all.sublist (List.sublist_cons_self _ _)
    dsimp only [between, storesOf]
    split
    · exact reachable_remembering hearlier hdistinctEarlier (by decide)
    split
    · exact reachable_remembering hlater hdistinctLater (by decide)
    · exact ⟨[], rfl⟩
  · refine ⟨_, _, ?_, run_rounds rounds, List.cons_ne_nil _ _⟩
    have hround : (bothWays ++ bothWays).length = 4 := rfl
    simp [List.length_flatten, hround, Nat.mul_comm]

/-- With one removal each, the two devices soon have nothing to tell. -/
theorem stops_fewRemovals :
    ∃ bound final, machine.run (between [10] [11]) bothWays = some final ∧
      bothWays.length ≤ bound ∧
      (final.inFlight ≠ [] →
        ∃ delivery next, machine.step final delivery = some next) := by
  have hsome : (machine.run (between [10] [11]) bothWays).isSome := by decide
  obtain ⟨final, hrun⟩ := Option.isSome_iff_exists.mp hsome
  have hstores : ∀ device ∈ ({⟨1⟩, ⟨2⟩} : Finset DeviceId),
      ((between [10] [11]).stores device).Reachable := by
    simp only [Finset.forall_mem_insert, Finset.mem_singleton, forall_eq]
    exact ⟨reachable_remembering (by unfold Strange; decide) (by decide)
        (by decide),
      reachable_remembering (by unfold Strange; decide) (by decide)
        (by decide)⟩
  obtain ⟨bound, hbound⟩ := stops hstores (by decide) (by decide)
  exact ⟨bound, final, hrun, hbound bothWays final (by decide) hrun⟩

end Endless

end Gossip

end Cled.Lan
