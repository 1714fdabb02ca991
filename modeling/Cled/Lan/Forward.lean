import Cled.Core.Lasting
import Cled.Lan.Gossip
import Cled.Lan.Removals

/-!
# Merges within a horizon

Among stores that know only the pairings and removals of a horizon, a merge
never moves back with a device, leaves the store no longer behind the roster,
and reports a change whenever it has moved.
-/

namespace Cled.Lan

open Cled.Core Cled.Sync

namespace Gossip

namespace Horizon

variable (horizon : Horizon)

/-- The pairings and removals of a device. -/
def history (id : DeviceId) : List (Standing PublicKey) :=
  .unknown ::
    (((horizon.known.filter fun credential => credential.1 = id).map
        fun credential => .member credential.2.1 credential.2.2) ++
      (horizon.gone.filter fun removal => removal.1 = id).map
        fun removal => .removed removal.2)

/-- Devices keep their keys between pairings, no key is all zero, and there are
few enough devices that no entry of a roster is ignored and no removal is
forgotten. -/
structure Orderly : Prop where
  lasting : ∀ id ∈ horizon.ids, Standing.Lasting (horizon.history id)
  keys : ∀ credential ∈ horizon.known, credential.2.1 ≠ 0
  members : (horizon.known.map Prod.fst).toFinset.card ≤ maxRosterEntries
  removals : (horizon.gone.map Prod.fst).toFinset.card ≤ maxRemoved

variable {horizon}

theorem mem_history_of_known {credential : Credential}
    (hmem : credential ∈ horizon.known) :
    .member credential.2.1 credential.2.2 ∈ horizon.history credential.1 :=
  List.mem_cons_of_mem _ (List.mem_append_left _
    (List.mem_map_of_mem (f := fun credential : Credential =>
      Standing.member credential.2.1 credential.2.2)
      (List.mem_filter.mpr ⟨hmem, decide_eq_true rfl⟩)))

theorem mem_history_of_gone {removal : DeviceId × ℕ}
    (hmem : removal ∈ horizon.gone) :
    .removed removal.2 ∈ horizon.history removal.1 :=
  List.mem_cons_of_mem _ (List.mem_append_right _
    (List.mem_map_of_mem (f := fun removal : DeviceId × ℕ =>
      Standing.removed removal.2)
      (List.mem_filter.mpr ⟨hmem, decide_eq_true rfl⟩)))

theorem Orderly.lasting_all (horderly : horizon.Orderly) (id : DeviceId) :
    Standing.Lasting (horizon.history id) := by
  by_cases hid : id ∈ horizon.ids
  · exact horderly.lasting id hid
  · have hnone : id ∉ horizon.known.map Prod.fst ++ horizon.gone.map Prod.fst :=
      fun hmem => hid (List.mem_toFinset.mpr hmem)
    obtain ⟨hknown, hgone⟩ := not_or.mp (mt List.mem_append.mpr hnone)
    have hempty : horizon.history id = [.unknown] := by
      unfold history
      rw [List.filter_eq_nil_iff.mpr fun credential hmem hid => hknown
          (List.mem_map.mpr ⟨credential, hmem, of_decide_eq_true hid⟩),
        List.filter_eq_nil_iff.mpr fun removal hmem hid => hgone
          (List.mem_map.mpr ⟨removal, hmem, of_decide_eq_true hid⟩)]
      rfl
    rw [hempty]
    exact Standing.lasting_singleton _

end Horizon

section Within

variable {horizon : Horizon} {store source : PeerStore}

theorem StoreWithin.standing_mem (hwithin : StoreWithin horizon store)
    (id : DeviceId) : store.standing id ∈ horizon.history id := by
  cases hget : store.get id with
  | some peer =>
      obtain ⟨hmem, rfl⟩ := Table.mem_of_lookup hget
      rw [PeerStore.standing_of_get hget]
      exact Horizon.mem_history_of_known (hwithin.drawn.peers peer hmem)
  | none =>
      cases hremoval : store.removal id with
      | some removed =>
          obtain ⟨hmem, rfl⟩ := Table.mem_of_lookup hremoval
          rw [PeerStore.standing_of_removal hget hremoval]
          exact Horizon.mem_history_of_gone
            (hwithin.removals (List.mem_map_of_mem hmem))
      | none =>
          rw [PeerStore.standing_of_none hget hremoval]
          exact List.mem_cons_self

theorem storeWithin_empty : StoreWithin horizon PeerStore.empty where
  wellFormed := PeerStore.wellFormed_empty
  drawn := PeerStore.drawnFrom_empty
  removals := List.nil_subset _

theorem StoreWithin.removalsIn (hwithin : StoreWithin horizon store) :
    store.RemovalsIn (horizon.gone.map Prod.fst).toFinset := by
  intro removed hmem
  have hgone := hwithin.removals (List.mem_map_of_mem hmem)
  exact List.mem_toFinset.mpr (List.mem_map_of_mem (f := Prod.fst) hgone)

theorem StoreWithin.length_peers (hwithin : StoreWithin horizon store)
    (horderly : horizon.Orderly) : store.peers.length ≤ maxRosterEntries := by
  have hsubset : (store.peers.map Peer.deviceId).toFinset ⊆
      (horizon.known.map Prod.fst).toFinset := by
    intro id hid
    obtain ⟨peer, hpeer, rfl⟩ := List.mem_map.mp (List.mem_toFinset.mp hid)
    exact List.mem_toFinset.mpr
      (List.mem_map_of_mem (f := Prod.fst) (hwithin.drawn.peers peer hpeer))
  have hle := (Finset.card_le_card hsubset).trans horderly.members
  rwa [List.toFinset_card_of_nodup hwithin.wellFormed.peers,
    List.length_map] at hle

theorem StoreWithin.fits (hwithin : StoreWithin horizon store)
    (horderly : horizon.Orderly) {roster : Roster}
    (hroster : RosterWithin horizon roster) : store.Fits roster := by
  refine (Finset.card_le_card fun id hid => ?_).trans horderly.removals
  rcases List.mem_append.mp (List.mem_toFinset.mp hid) with hold | hnew
  · obtain ⟨removed, hmem, rfl⟩ := List.mem_map.mp hold
    exact hwithin.removalsIn removed hmem
  · obtain ⟨removal, hmem, rfl⟩ := List.mem_map.mp hnew
    have hgone := hroster.removals (List.mem_map_of_mem
      (f := fun removal : RosterRemoval =>
        (DeviceId.fromBytes removal.peer.deviceId, removal.removedAtMs))
      (List.mem_of_mem_take hmem))
    exact List.mem_toFinset.mpr (List.mem_map_of_mem (f := Prod.fst) hgone)

/-- A store within the horizon reports all it knows. -/
theorem StoreWithin.tells_eq (hwithin : StoreWithin horizon store)
    (horderly : horizon.Orderly) (id : DeviceId) :
    store.tells id = store.standing id := by
  unfold PeerStore.tells
  cases hget : store.get id with
  | some peer =>
      have hkey := horderly.keys _
        (hwithin.drawn.peers peer (Table.mem_of_lookup hget).1)
      rw [PeerStore.standing_of_get hget]
      exact if_neg hkey
  | none =>
      cases hremoval : store.removal id with
      | some removed =>
          have hkey := horderly.keys _
            (hwithin.drawn.removed removed (Table.mem_of_lookup hremoval).1)
          rw [PeerStore.standing_of_removal hget hremoval]
          exact if_neg hkey
      | none => exact (PeerStore.standing_of_none hget hremoval).symm

theorem rank_le_of_progress_le {before after : PeerStore} {id : DeviceId}
    (hle : before.progress id ≤ after.progress id) :
    (before.standing id).rank ≤ (after.standing id).rank := by
  have hflag := Bool.toNat_le ((after.get id).bind Peer.lastAddress).isSome
  unfold PeerStore.progress at hle
  omega

/-- A merge moves no device back. -/
theorem StoreWithin.rank_le_merge (hwithin : StoreWithin horizon store)
    (horderly : horizon.Orderly) (me sender : DeviceId) {roster : Roster}
    (hroster : RosterWithin horizon roster) (id : DeviceId) :
    (store.standing id).rank ≤
      ((store.mergeEntries me sender roster).store.standing id).rank := by
  by_cases hnews : PeerStore.NoNews me sender store roster
  · rw [PeerStore.mergeEntries_of_noNews me sender hwithin.wellFormed hnews]
  · have hadvances := PeerStore.mergeEntries_advances me sender
      hwithin.wellFormed (hwithin.fits horderly hroster) hnews
    exact rank_le_of_progress_le (hadvances.1 id)

/-- After a merge the store is not behind the sender's. -/
theorem StoreWithin.not_behind (hwithin : StoreWithin horizon store)
    (horderly : horizon.Orderly) (hsource : StoreWithin horizon source)
    {me sender id : DeviceId} (hme : id ≠ me) (hsender : id ≠ sender) :
    ¬ (source.standing id).Replaces
      ((store.mergeEntries me sender source.roster).store.standing id) := by
  obtain ⟨_, hstanding⟩ := PeerStore.standing_mergeEntries horderly.removals
    hwithin.wellFormed hwithin.removalsIn hsource.wellFormed hsource.removalsIn
    (hsource.length_peers horderly) hme hsender
  rw [hstanding, hsource.tells_eq horderly]
  by_cases hreplaces : (source.standing id).Replaces (store.standing id)
  · rw [Standing.absorb_of_replaces hreplaces]
    exact Standing.not_replaces_of_le le_rfl
  · rwa [Standing.absorb_of_not_replaces hreplaces]

/-! ## Other changes -/

theorem StoreWithin.put (hwithin : StoreWithin horizon store) {peer : Peer}
    (hpeer : peer.credential ∈ horizon.known) :
    StoreWithin horizon (store.put peer) where
  wellFormed := hwithin.wellFormed.put peer
  drawn := hwithin.drawn.put hpeer
  removals := List.Subset.trans (PeerStore.removals_put store peer)
    hwithin.removals

/-- A pairing that is later than what is known of the device. -/
theorem rank_le_put {peer : Peer}
    (hlater : (store.standing peer.deviceId).rank ≤
      (PeerStore.memberOf peer).rank) (id : DeviceId) :
    (store.standing id).rank ≤ ((store.put peer).standing id).rank := by
  by_cases hid : id = peer.deviceId
  · have hput : (store.put peer).get peer.deviceId = some peer := by
      rw [PeerStore.get_put, if_pos rfl]
    rwa [hid, PeerStore.standing_of_get hput]
  · refine (congrArg Standing.rank (PeerStore.standing_congr ?_ ?_)).le
    · rw [PeerStore.get_put, if_neg hid]
    · rw [PeerStore.removal_put, if_neg hid]

theorem StoreWithin.remove (hwithin : StoreWithin horizon store)
    {id : DeviceId} {nowMs : ℕ} (saved : Except LanError Unit)
    (hgone : ∀ peer ∈ store.get id, (id, nowMs) ∈ horizon.gone) :
    StoreWithin horizon (store.remove id nowMs saved).2 where
  wellFormed := PeerStore.wellFormed_remove hwithin.wellFormed id nowMs saved
  drawn :=
    have hbrings : PeerStore.Brings horizon.known (.remove id nowMs saved) :=
      trivial
    hwithin.drawn.apply hwithin.wellFormed hbrings
  removals := by
    refine List.Subset.trans (PeerStore.removals_remove store id nowMs saved) ?_
    split
    · exact hwithin.removals
    · next hlisted =>
      obtain ⟨peer, hget⟩ := Option.ne_none_iff_exists'.mp hlisted
      exact List.cons_subset.mpr ⟨hgone peer hget, hwithin.removals⟩

/-- A removal that is no earlier than the pairing. -/
theorem StoreWithin.rank_le_remove (hwithin : StoreWithin horizon store)
    (horderly : horizon.Orderly) {id : DeviceId} {nowMs : ℕ}
    (saved : Except LanError Unit)
    (hgone : ∀ peer ∈ store.get id, (id, nowMs) ∈ horizon.gone)
    (hlater : ∀ peer ∈ store.get id, peer.pairedAtMs ≤ nowMs)
    (other : DeviceId) :
    (store.standing other).rank ≤
      ((store.remove id nowMs saved).2.standing other).rank := by
  unfold PeerStore.remove
  cases hget : store.get id with
  | none => exact le_rfl
  | some peer =>
      obtain ⟨_, rfl⟩ := Table.mem_of_lookup hget
      have hroom : store.HasRoom peer.deviceId :=
        hwithin.removalsIn.hasRoom hwithin.wellFormed horderly.removals
          (List.mem_toFinset.mpr
            (List.mem_map_of_mem (f := Prod.fst) (hgone peer hget)))
      dsimp only
      by_cases hother : other = peer.deviceId
      · have hle := hlater peer hget
        rw [hother, PeerStore.standing_drop hwithin.wellFormed,
          PeerStore.standing_of_get hget, PeerStore.rank_memberOf,
          Standing.rank_removed]
        omega
      · refine (congrArg Standing.rank (PeerStore.standing_congr ?_ ?_)).le
        · rw [PeerStore.get_drop hwithin.wellFormed, if_neg hother]
        · rw [PeerStore.removal_drop hroom, if_neg hother]

theorem StoreWithin.clear (hwithin : StoreWithin horizon store)
    (saved : Except LanError Unit) :
    StoreWithin horizon (store.clear saved).2 where
  wellFormed := hwithin.wellFormed.clearPeers
  drawn := ⟨nofun, hwithin.drawn.removed⟩
  removals := hwithin.removals

theorem StoreWithin.seen (hwithin : StoreWithin horizon store)
    (id : DeviceId) (name : String) (address : Option SocketAddr)
    (saved : Except LanError Unit) :
    StoreWithin horizon (store.seen id name address saved).2 where
  wellFormed := PeerStore.wellFormed_seen hwithin.wellFormed id name address saved
  drawn := hwithin.drawn.seen id name address saved
  removals := by
    rw [PeerStore.removals_seen]
    exact hwithin.removals

theorem StoreWithin.markNotified (hwithin : StoreWithin horizon store)
    (id : DeviceId) (saved : Except LanError Unit) :
    StoreWithin horizon (store.markNotified id saved).2 where
  wellFormed := PeerStore.wellFormed_markNotified hwithin.wellFormed id saved
  drawn := hwithin.drawn.markNotified id saved
  removals := by
    rw [PeerStore.removals_markNotified]
    exact hwithin.removals

end Within

end Gossip

namespace PeerStore

/-! ## Merges that report no change -/

/-- A change has been noted, or nothing has changed but addresses. -/
def Noted (store : PeerStore) (merging : Merging) : Prop :=
  merging.change.isEmpty = true →
    ∀ id, merging.store.standing id = store.standing id

variable {store : PeerStore} {merging : Merging} (me sender : DeviceId)

theorem isEmpty_concat_added (change : RosterChange) (id : DeviceId) :
    { change with added := change.added ++ [id] }.isEmpty = false := by
  simp [RosterChange.isEmpty]

theorem isEmpty_concat_removed (change : RosterChange) (id : DeviceId) :
    { change with removed := change.removed ++ [id] }.isEmpty = false := by
  simp [RosterChange.isEmpty]

theorem isEmpty_learned (change : RosterChange) :
    { change with removalsLearned := true }.isEmpty = false := by
  simp [RosterChange.isEmpty]

theorem noted_mergeMember (hwell : merging.store.WellFormed)
    (hnoted : store.Noted merging) (entry : RosterPeer) :
    store.Noted (mergeMember me sender merging entry) := by
  have houtcome := mergeMember_outcome me sender hwell entry
  generalize mergeMember me sender merging entry = after at houtcome ⊢
  cases houtcome with
  | skipped _ => exact hnoted
  | outdated _ _ _ _ _ => exact hnoted
  | known peer known _ hget =>
      intro hempty id
      by_cases hrekeys : Rekeys known peer
      · simp only [mergeKnown, if_pos hrekeys, isEmpty_concat_added] at hempty
        contradiction
      have hchange : (mergeKnown merging known peer).change = merging.change :=
        if_neg hrekeys
      rw [hchange] at hempty
      rw [← hnoted hempty id]
      by_cases hid : id = peer.deviceId
      · have hmerged := get_mergeKnown_self hget
        rw [hid, standing_of_get hget, standing_of_get hmerged, memberOf,
          updatedBy, if_neg hrekeys, if_neg hrekeys]
        rfl
      · refine standing_congr ?_ rfl
        rw [get_mergeKnown, if_neg hid]
  | joined peer _ _ _ =>
      intro hempty
      rw [isEmpty_concat_added] at hempty
      contradiction

theorem noted_mergeRemoval (hwell : merging.store.WellFormed)
    (hnoted : store.Noted merging) (removal : RosterRemoval) :
    store.Noted (mergeRemoval me sender merging removal) := by
  have houtcome := mergeRemoval_outcome me sender hwell removal
  generalize mergeRemoval me sender merging removal = after at houtcome ⊢
  cases houtcome with
  | skipped _ => exact hnoted
  | oldNews _ _ _ _ _ => exact hnoted
  | dropped peer known _ _ _ =>
      intro hempty
      rw [isEmpty_concat_removed] at hempty
      contradiction
  | alreadyHeard _ _ _ _ _ _ => exact hnoted
  | learned _ _ _ _ =>
      intro hempty
      rw [isEmpty_learned] at hempty
      contradiction

/-- Merging with a file that can be written. -/
theorem merge_of_saved (store : PeerStore) (roster : Roster)
    {saved : Except LanError Unit} (hsaved : saved.isOk = true) :
    store.merge me sender roster saved =
      (.ok (store.mergeEntries me sender roster).change,
        (store.mergeEntries me sender roster).store) := by
  cases saved with
  | error _ => contradiction
  | ok _ =>
      unfold merge
      dsimp only
      split
      · rfl
      · rfl

/-- A merge that reports no change has changed what is known of no device. -/
theorem standing_of_isEmpty (hwell : store.WellFormed) (roster : Roster)
    (hempty : (store.mergeEntries me sender roster).change.isEmpty = true)
    (id : DeviceId) :
    (store.mergeEntries me sender roster).store.standing id =
      store.standing id := by
  let merging : Merging :=
    { store, change := RosterChange.none, dirty := false }
  let members := roster.members.take maxRosterEntries
  let Kept : Merging → Prop := fun merging =>
    merging.store.WellFormed ∧ store.Noted merging
  have hmembers : Kept (members.foldl (mergeMember me sender) merging) := by
    apply List.foldlRecOn (motive := Kept) members _ ⟨hwell, fun _ _ => rfl⟩
    rintro merging ⟨hwell, hnoted⟩ entry _
    exact ⟨wellFormed_mergeMember me sender hwell entry,
      noted_mergeMember me sender hwell hnoted entry⟩
  have hall : Kept (store.mergeEntries me sender roster) := by
    apply List.foldlRecOn (motive := Kept) _ _ hmembers
    rintro merging ⟨hwell, hnoted⟩ removal _
    exact ⟨wellFormed_mergeRemoval me sender hwell removal,
      noted_mergeRemoval me sender hwell hnoted removal⟩
  exact hall.2 hempty id

end PeerStore

end Cled.Lan
