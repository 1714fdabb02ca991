import Cled.Core.Table
import Cled.Lan.Wire

/-!
# The peer store

The paired devices and the remembered removals of one device, with the
operations that change them.  Every change is saved to a file; whether that
works is an argument of the operation, and the change in memory stays either
way.  In a well-formed store each device is listed once at most.
-/

namespace Cled.Lan

open Cled.Core Cled.Sync

structure Peer where
  deviceId : DeviceId
  name : String
  publicKey : PublicKey
  pairedAtMs : ℕ
  /-- Where the peer was last reachable. -/
  lastAddress : Option SocketAddr
  deriving DecidableEq

/-- A device removed from the group. -/
structure Removed where
  peer : Peer
  removedAtMs : ℕ
  /-- Whether this device has told it. -/
  notified : Bool
  deriving DecidableEq

def Removed.deviceId (removed : Removed) : DeviceId := removed.peer.deviceId

/-- What merging another device's roster changed here. -/
structure RosterChange where
  added : List DeviceId
  removed : List DeviceId
  removalsLearned : Bool
  deriving DecidableEq

def RosterChange.none : RosterChange :=
  { added := [], removed := [], removalsLearned := false }

def RosterChange.isEmpty (change : RosterChange) : Bool :=
  change.added.isEmpty && change.removed.isEmpty && !change.removalsLearned

/-- How many removed devices to remember. -/
def maxRemoved : ℕ := 100

/-- Entries past this in a received roster are ignored. -/
def maxRosterEntries : ℕ := 256

def maxNameChars : ℕ := 64

/-- An address as it goes into a roster: never a scoped one. -/
def unscoped : SocketAddr → Bool
  | .v6 _ _ _ scopeId => scopeId == 0
  | .v4 _ _ => true

def toRoster (peer : Peer) : RosterPeer :=
  { deviceId := peer.deviceId.toBytes
    name := peer.name
    publicKey := peer.publicKey
    pairedAtMs := peer.pairedAtMs
    address := peer.lastAddress.filter unscoped }

/-- `none` for an entry that can't be a device (an all-zero key). -/
def fromRoster (entry : RosterPeer) : Option Peer :=
  if entry.publicKey = 0 then none
  else
    some
      { deviceId := DeviceId.fromBytes entry.deviceId
        name := String.ofList (entry.name.toList.take maxNameChars)
        publicKey := entry.publicKey
        pairedAtMs := entry.pairedAtMs
        lastAddress := entry.address }

structure PeerStore where
  peers : List Peer
  removed : List Removed
  deriving DecidableEq

namespace PeerStore

/-- The store of a device that was never paired. -/
def empty : PeerStore := ⟨[], []⟩

def get (store : PeerStore) (id : DeviceId) : Option Peer :=
  Table.lookup Peer.deviceId store.peers id

/-- The remembered removal of a device. -/
def removal (store : PeerStore) (id : DeviceId) : Option Removed :=
  Table.lookup Removed.deviceId store.removed id

/-- A device removed from the group that this device hasn't told yet. -/
def getRemoved (store : PeerStore) (id : DeviceId) : Option Peer :=
  (store.removed.find? fun removed =>
    removed.deviceId = id ∧ removed.notified = false).map Removed.peer

/-! ## Changes in memory -/

/-- The store with `peer` in place of anything known about it. -/
def put (store : PeerStore) (peer : Peer) : PeerStore :=
  { peers := Table.without Peer.deviceId store.peers peer.deviceId ++ [peer]
    removed :=
      Table.without Removed.deviceId store.removed peer.deviceId }

def rememberRemoval (store : PeerStore) (removed : Removed) : PeerStore :=
  let kept :=
    Table.without Removed.deviceId store.removed removed.deviceId ++ [removed]
  { store with
    removed := if maxRemoved < kept.length then kept.tail else kept }

/-- Takes a peer out of the list and remembers its removal. -/
def drop (store : PeerStore) (peer : Peer) (removedAtMs : ℕ) : PeerStore :=
  rememberRemoval
    { store with
      peers := Table.removeFirst Peer.deviceId store.peers peer.deviceId }
    { peer, removedAtMs, notified := false }

/-! ## Operations -/

/-- Adds or replaces a peer. -/
def upsert (store : PeerStore) (peer : Peer) (saved : Except LanError Unit) :
    Except LanError Unit × PeerStore :=
  (saved, store.put peer)

/-- Updates name and address from a live connection. -/
def seen (store : PeerStore) (id : DeviceId) (name : String)
    (address : Option SocketAddr) (saved : Except LanError Unit) :
    Except LanError Unit × PeerStore :=
  match store.get id with
  | none => (.ok (), store)
  | some peer =>
      let address := address.or peer.lastAddress
      if peer.name = name ∧ peer.lastAddress = address then (.ok (), store)
      else
        (saved,
          { store with
            peers := Table.modifyFirst Peer.deviceId store.peers id
              fun peer => { peer with name, lastAddress := address } })

/-- Removes a peer from the group. -/
def remove (store : PeerStore) (id : DeviceId) (removedAtMs : ℕ)
    (saved : Except LanError Unit) :
    Except LanError (Option Peer) × PeerStore :=
  match store.get id with
  | none => (.ok none, store)
  | some peer => (saved.map fun _ => some peer, store.drop peer removedAtMs)

/-- This device was removed: forget every paired device. -/
def clear (store : PeerStore) (saved : Except LanError Unit) :
    Except LanError Unit × PeerStore :=
  (saved, { store with peers := [] })

/-- The removed device has been told. -/
def markNotified (store : PeerStore) (id : DeviceId)
    (saved : Except LanError Unit) : Except LanError Unit × PeerStore :=
  match store.getRemoved id with
  | none => (.ok (), store)
  | some _ =>
      (saved,
        { store with
          removed := store.removed.replaceF fun removed =>
            if removed.deviceId = id ∧ removed.notified = false then
              some { removed with notified := true }
            else none })

/-- This device's view of the group, to send to the others. -/
def roster (store : PeerStore) : Roster :=
  { members := store.peers.map toRoster
    removed := store.removed.map fun removed =>
      { peer := toRoster removed.peer, removedAtMs := removed.removedAtMs } }

/-! ## Merging a roster -/

/-- The store in the middle of a merge, and what has changed. -/
structure Merging where
  store : PeerStore
  change : RosterChange
  /-- Something changed that other devices need not hear of. -/
  dirty : Bool

/-- A roster entry about a device other than this one and the sender. -/
def aboutOthers (me sender : DeviceId) (entry : RosterPeer) : Option Peer :=
  (fromRoster entry).filter fun peer =>
    peer.deviceId ≠ me && peer.deviceId ≠ sender

/-- The entry is a later join with another key. -/
def Rekeys (known peer : Peer) : Prop :=
  known.publicKey ≠ peer.publicKey ∧ known.pairedAtMs < peer.pairedAtMs

instance (known peer : Peer) : Decidable (Rekeys known peer) :=
  inferInstanceAs (Decidable (_ ∧ _))

/-- The entry has an address where none is known. -/
def locates (known peer : Peer) : Bool :=
  known.lastAddress.isNone && peer.lastAddress.isSome

def updatedBy (known peer : Peer) : Peer :=
  { known with
    publicKey := if Rekeys known peer then peer.publicKey else known.publicKey
    pairedAtMs :=
      if Rekeys known peer then peer.pairedAtMs else known.pairedAtMs
    lastAddress :=
      if locates known peer then peer.lastAddress else known.lastAddress }

/-- A member of the roster that is a member here. -/
def mergeKnown (merging : Merging) (known peer : Peer) : Merging :=
  { store :=
      { merging.store with
        peers := Table.modifyFirst Peer.deviceId merging.store.peers
          peer.deviceId fun row => updatedBy row peer }
    change :=
      if Rekeys known peer then
        { merging.change with
          added := merging.change.added ++ [peer.deviceId] }
      else merging.change
    dirty := merging.dirty || locates known peer }

def mergeMember (me sender : DeviceId) (merging : Merging)
    (entry : RosterPeer) : Merging :=
  match aboutOthers me sender entry with
  | none => merging
  | some peer =>
      if merging.store.removed.any fun removed =>
          removed.deviceId = peer.deviceId &&
            peer.pairedAtMs ≤ removed.removedAtMs then merging
      else
        match merging.store.get peer.deviceId with
        | some known => mergeKnown merging known peer
        | none =>
            { merging with
              store :=
                { peers := merging.store.peers ++ [peer]
                  removed := Table.without Removed.deviceId
                    merging.store.removed peer.deviceId }
              change :=
                { merging.change with
                  added := merging.change.added ++ [peer.deviceId] } }

def mergeRemoval (me sender : DeviceId) (merging : Merging)
    (removal : RosterRemoval) : Merging :=
  match aboutOthers me sender removal.peer with
  | none => merging
  | some peer =>
      match merging.store.get peer.deviceId with
      | some known =>
          -- Paired again after that removal: the removal is old news.
          if known.pairedAtMs ≤ removal.removedAtMs then
            { merging with
              store := merging.store.drop known removal.removedAtMs
              change :=
                { merging.change with
                  removed := merging.change.removed ++ [peer.deviceId] } }
          else merging
      | none =>
          if merging.store.removed.any fun removed =>
              removed.deviceId = peer.deviceId &&
                removal.removedAtMs ≤ removed.removedAtMs then merging
          else
            { merging with
              store := merging.store.rememberRemoval
                { peer
                  removedAtMs := removal.removedAtMs
                  notified := false }
              change := { merging.change with removalsLearned := true } }

/-- Both loops of a merge. -/
def mergeEntries (store : PeerStore) (me sender : DeviceId) (roster : Roster) :
    Merging :=
  (roster.removed.take maxRosterEntries).foldl (mergeRemoval me sender)
    ((roster.members.take maxRosterEntries).foldl (mergeMember me sender)
      { store, change := RosterChange.none, dirty := false })

/-- Merges the roster of paired device `sender`.  `saved` is what saving
answers, if it is needed. -/
def merge (store : PeerStore) (me sender : DeviceId) (roster : Roster)
    (saved : Except LanError Unit) :
    Except LanError RosterChange × PeerStore :=
  let merging := store.mergeEntries me sender roster
  if merging.dirty || !merging.change.isEmpty then
    (saved.map fun _ => merging.change, merging.store)
  else (.ok merging.change, merging.store)

/-! ## What is known about a device afterwards -/

@[simp]
theorem get_put (store : PeerStore) (peer : Peer) (id : DeviceId) :
    (store.put peer).get id =
      if id = peer.deviceId then some peer else store.get id := by
  have hnew : Table.lookup Peer.deviceId
      (Table.without Peer.deviceId store.peers peer.deviceId) peer.deviceId =
        none := by
    rw [Table.lookup_without, if_pos rfl]
  rw [get, put, Table.lookup_concat hnew, Table.lookup_without]
  split
  · rfl
  · rfl

@[simp]
theorem removal_put (store : PeerStore) (peer : Peer) (id : DeviceId) :
    (store.put peer).removal id =
      if id = peer.deviceId then none else store.removal id :=
  Table.lookup_without _ _ _

@[simp]
theorem get_rememberRemoval (store : PeerStore) (removed : Removed)
    (id : DeviceId) : (store.rememberRemoval removed).get id = store.get id :=
  rfl

/-- The newest removal comes last and is never the one forgotten. -/
theorem removed_rememberRemoval (store : PeerStore) (removed : Removed) :
    ∃ kept, (store.rememberRemoval removed).removed = kept ++ [removed] ∧
      kept <:+
        Table.without Removed.deviceId store.removed removed.deviceId := by
  unfold rememberRemoval
  dsimp only
  split
  · next hfull =>
    cases hkept : Table.without Removed.deviceId store.removed
        removed.deviceId with
    | nil =>
        rw [hkept] at hfull
        exact absurd hfull (by simp [maxRemoved])
    | cons first rest => exact ⟨rest, rfl, List.suffix_cons _ _⟩
  · exact ⟨_, rfl, List.suffix_refl _⟩

theorem mem_rememberRemoval {store : PeerStore} {removed other : Removed}
    (hmem : other ∈ (store.rememberRemoval removed).removed) :
    other = removed ∨ other ∈ store.removed := by
  obtain ⟨kept, hremoved, hsuffix⟩ := store.removed_rememberRemoval removed
  rw [hremoved] at hmem
  rcases List.mem_append.mp hmem with hold | hnew
  · exact Or.inr (List.mem_of_mem_filter (hsuffix.subset hold))
  · exact Or.inl (List.mem_singleton.mp hnew)

theorem removal_rememberRemoval_eq_none {store : PeerStore} {removed : Removed}
    {id : DeviceId} (hne : removed.deviceId ≠ id)
    (hnone : store.removal id = none) :
    (store.rememberRemoval removed).removal id = none := by
  rw [removal, Table.lookup_eq_none_iff] at hnone ⊢
  intro other hother
  rcases mem_rememberRemoval hother with rfl | hold
  · exact hne
  · exact hnone other hold

theorem mem_rememberRemoval_self (store : PeerStore) (removed : Removed) :
    removed ∈ (store.rememberRemoval removed).removed := by
  obtain ⟨kept, hremoved, _⟩ := store.removed_rememberRemoval removed
  rw [hremoved]
  exact List.mem_concat_self

/-- What `rememberRemoval` keeps as long as nothing has to be forgotten. -/
theorem removal_rememberRemoval (store : PeerStore) (removed : Removed)
    (hfits : (Table.without Removed.deviceId store.removed
      removed.deviceId).length < maxRemoved) (id : DeviceId) :
    (store.rememberRemoval removed).removal id =
      if id = removed.deviceId then some removed else store.removal id := by
  have hnew : Table.lookup Removed.deviceId
      (Table.without Removed.deviceId store.removed removed.deviceId)
        removed.deviceId = none := by
    rw [Table.lookup_without, if_pos rfl]
  have hkept : ¬ maxRemoved < (Table.without Removed.deviceId store.removed
      removed.deviceId ++ [removed]).length := by
    rw [List.length_append, List.length_singleton]
    exact Nat.not_lt.mpr hfits
  rw [removal, rememberRemoval]
  simp only [if_neg hkept]
  rw [Table.lookup_concat hnew, Table.lookup_without]
  split
  · rfl
  · rfl

/-! ## Well-formed stores -/

/-- Each device is listed once at most, as a peer or as a removal, and there are
at most `maxRemoved` removals. -/
structure WellFormed (store : PeerStore) : Prop where
  peers : Table.UniqueKeys Peer.deviceId store.peers
  removed : Table.UniqueKeys Removed.deviceId store.removed
  apart : ∀ id, store.get id = none ∨ store.removal id = none
  bounded : store.removed.length ≤ maxRemoved

theorem wellFormed_empty : empty.WellFormed where
  peers := Table.uniqueKeys_nil
  removed := Table.uniqueKeys_nil
  apart _ := Or.inl rfl
  bounded := Nat.zero_le _

theorem get_drop {store : PeerStore} (hwell : store.WellFormed) (peer : Peer)
    (removedAtMs : ℕ) (id : DeviceId) :
    (store.drop peer removedAtMs).get id =
      if id = peer.deviceId then none else store.get id :=
  Table.lookup_removeFirst hwell.peers _ _

namespace WellFormed

variable {store : PeerStore}

theorem put (hwell : store.WellFormed) (peer : Peer) :
    (store.put peer).WellFormed where
  peers := by
    refine (hwell.peers.without _).concat ?_
    rw [Table.lookup_without, if_pos rfl]
  removed := hwell.removed.without _
  apart id := by
    by_cases hid : id = peer.deviceId
    · exact Or.inr (by simp [hid])
    · simpa [hid] using hwell.apart id
  bounded := (List.length_filter_le _ _).trans hwell.bounded

/-- A removal is remembered in place of the peer, which is no longer listed. -/
theorem rememberRemoval (hwell : store.WellFormed) {removed : Removed}
    (hget : store.get removed.deviceId = none) :
    (store.rememberRemoval removed).WellFormed where
  peers := hwell.peers
  removed := by
    have hkept : Table.UniqueKeys Removed.deviceId
        (Table.without Removed.deviceId store.removed removed.deviceId ++
          [removed]) := by
      refine (hwell.removed.without _).concat ?_
      rw [Table.lookup_without, if_pos rfl]
    unfold PeerStore.rememberRemoval
    dsimp only
    split
    · exact hkept.tail
    · exact hkept
  apart id := by
    by_cases hid : id = removed.deviceId
    · exact Or.inl (by rw [get_rememberRemoval, hid, hget])
    · exact (hwell.apart id).imp (fun hget => hget)
        (removal_rememberRemoval_eq_none (Ne.symm hid))
  bounded := by
    have hlength := (List.length_filter_le
      (fun other => decide (Removed.deviceId other ≠ removed.deviceId))
      store.removed).trans hwell.bounded
    unfold PeerStore.rememberRemoval
    dsimp only
    split
    · simpa [Table.without] using hlength
    · next hkept => exact Nat.not_lt.mp hkept

theorem drop (hwell : store.WellFormed) (peer : Peer) (removedAtMs : ℕ) :
    (store.drop peer removedAtMs).WellFormed := by
  have hpeers : PeerStore.WellFormed
      { store with
        peers :=
          Table.removeFirst Peer.deviceId store.peers peer.deviceId } :=
    { peers := hwell.peers.removeFirst _
      removed := hwell.removed
      apart := fun id => by
        refine (hwell.apart id).imp (fun hget => ?_) fun hremoval => hremoval
        rw [get, Table.lookup_removeFirst hwell.peers]
        split
        · rfl
        · exact hget
      bounded := hwell.bounded }
  refine hpeers.rememberRemoval ?_
  rw [get, Table.lookup_removeFirst hwell.peers]
  exact if_pos rfl

theorem modifyPeer (hwell : store.WellFormed) (id : DeviceId)
    {change : Peer → Peer}
    (hchange : ∀ peer, (change peer).deviceId = peer.deviceId) :
    PeerStore.WellFormed
      { store with
        peers := Table.modifyFirst Peer.deviceId store.peers id change } where
  peers := hwell.peers.modifyFirst hchange _
  removed := hwell.removed
  apart other := by
    refine (hwell.apart other).imp (fun hget => ?_) fun hremoval => hremoval
    have hnone : Table.lookup Peer.deviceId store.peers other = none := hget
    rw [get, Table.lookup_modifyFirst hchange, hnone]
    split
    · rfl
    · rfl
  bounded := hwell.bounded

theorem clearPeers (hwell : store.WellFormed) :
    PeerStore.WellFormed { store with peers := [] } where
  peers := Table.uniqueKeys_nil
  removed := hwell.removed
  apart _ := Or.inl rfl
  bounded := hwell.bounded

/-- Replacing removals by ones of the same devices. -/
theorem withRemoved (hwell : store.WellFormed) {removed : List Removed}
    (hids : removed.map Removed.deviceId =
      store.removed.map Removed.deviceId) :
    PeerStore.WellFormed { store with removed } where
  peers := hwell.peers
  removed := by
    rw [Table.UniqueKeys, hids]
    exact hwell.removed
  apart id := by
    refine (hwell.apart id).imp (fun hget => hget) fun hremoval => ?_
    rw [removal, Table.lookup_eq_none_iff_notMem] at hremoval ⊢
    rwa [hids]
  bounded := by
    rw [← List.length_map Removed.deviceId, hids, List.length_map]
    exact hwell.bounded

end WellFormed

theorem wellFormed_markNotified {store : PeerStore} (hwell : store.WellFormed)
    (id : DeviceId) (saved : Except LanError Unit) :
    (store.markNotified id saved).2.WellFormed := by
  unfold markNotified
  split
  · exact hwell
  · refine hwell.withRemoved (Table.map_replaceF ?_ _)
    intro removed other hother
    obtain ⟨_, ⟨⟩⟩ := Option.ite_none_right_eq_some.mp hother
    rfl

theorem wellFormed_seen {store : PeerStore} (hwell : store.WellFormed)
    (id : DeviceId) (name : String) (address : Option SocketAddr)
    (saved : Except LanError Unit) :
    (store.seen id name address saved).2.WellFormed := by
  unfold seen
  split
  · exact hwell
  · dsimp only
    split
    · exact hwell
    · exact hwell.modifyPeer id fun _ => rfl

theorem wellFormed_remove {store : PeerStore} (hwell : store.WellFormed)
    (id : DeviceId) (removedAtMs : ℕ) (saved : Except LanError Unit) :
    (store.remove id removedAtMs saved).2.WellFormed := by
  unfold remove
  split
  · exact hwell
  · exact hwell.drop _ _

end PeerStore

end Cled.Lan
