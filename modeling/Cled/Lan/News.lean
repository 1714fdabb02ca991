import Cled.Core.News
import Cled.Lan.AnyOrder

/-!
# What a roster tells that is new

An entry of a roster is news to a store if merging it changes anything.  News
always moves the store forward with the device it is about: a newer join or
removal takes the place of the older one, or an address becomes known.  As long
as nothing has to be forgotten, no other entry takes that back.
-/

namespace Cled.Lan

open Cled.Core Cled.Sync

namespace PeerStore

/-- The member joined after its remembered removal, and is not listed yet or
listed with an older key or without an address. -/
def MemberNews (me sender : DeviceId) (store : PeerStore)
    (entry : RosterPeer) : Prop :=
  ∃ peer ∈ aboutOthers me sender entry,
    (∀ removed ∈ store.removal peer.deviceId,
        removed.removedAtMs < peer.pairedAtMs) ∧
      ∀ known ∈ store.get peer.deviceId, Rekeys known peer ∨ locates known peer

/-- The device was removed since it was paired, and no removal as late as this
is remembered. -/
def RemovalNews (me sender : DeviceId) (store : PeerStore)
    (removal : RosterRemoval) : Prop :=
  ∃ peer ∈ aboutOthers me sender removal.peer,
    (∀ known ∈ store.get peer.deviceId,
        known.pairedAtMs ≤ removal.removedAtMs) ∧
      ∀ removed ∈ store.removal peer.deviceId,
        removed.removedAtMs < removal.removedAtMs

instance (me sender : DeviceId) (store : PeerStore) (entry : RosterPeer) :
    Decidable (MemberNews me sender store entry) :=
  inferInstanceAs (Decidable (∃ peer ∈ aboutOthers me sender entry, _ ∧ _))

instance (me sender : DeviceId) (store : PeerStore)
    (removal : RosterRemoval) :
    Decidable (RemovalNews me sender store removal) :=
  inferInstanceAs
    (Decidable (∃ peer ∈ aboutOthers me sender removal.peer, _ ∧ _))

/-- No entry that a merge looks at is news. -/
def NoNews (me sender : DeviceId) (store : PeerStore) (roster : Roster) :
    Prop :=
  (∀ entry ∈ roster.members.take maxRosterEntries,
      ¬ MemberNews me sender store entry) ∧
    ∀ removal ∈ roster.removed.take maxRosterEntries,
      ¬ RemovalNews me sender store removal

instance (me sender : DeviceId) (store : PeerStore) (roster : Roster) :
    Decidable (NoNews me sender store roster) :=
  inferInstanceAs (Decidable (_ ∧ _))

/-! ## How far a store is -/

/-- How far the store is with a device: its newest join or removal, and then
whether an address is known. -/
def progress (store : PeerStore) (id : DeviceId) : ℕ :=
  2 * (store.standing id).rank +
    (((store.get id).bind Peer.lastAddress).isSome).toNat

/-- The store moved forward with some device, and with none back. -/
def Advances (before after : PeerStore) : Prop :=
  (∀ id, before.progress id ≤ after.progress id) ∧
    ∃ id, before.progress id < after.progress id

theorem progress_congr {left right : PeerStore} {id : DeviceId}
    (hget : left.get id = right.get id)
    (hremoval : left.removal id = right.removal id) :
    left.progress id = right.progress id := by
  rw [progress, progress, standing_congr hget hremoval, hget]

theorem progress_lt_of_rank_lt {before after : PeerStore} {id : DeviceId}
    (hrank : (before.standing id).rank < (after.standing id).rank) :
    before.progress id < after.progress id := by
  have hflag := Bool.toNat_le ((before.get id).bind Peer.lastAddress).isSome
  unfold progress
  omega

/-- A step that changes what is known of one device alone. -/
theorem advances_of_one {before after : PeerStore} (id : DeviceId)
    (hget : ∀ other, other ≠ id → after.get other = before.get other)
    (hremoval : ∀ other, other ≠ id →
      after.removal other = before.removal other)
    (hlt : before.progress id < after.progress id) :
    before.Advances after := by
  refine ⟨fun other => ?_, id, hlt⟩
  by_cases hother : other = id
  · exact hother ▸ hlt.le
  · exact (progress_congr (hget other hother) (hremoval other hother)).ge

theorem Advances.trans {before middle after : PeerStore}
    (hfirst : before.Advances middle) (hsecond : middle.Advances after) :
    before.Advances after := by
  obtain ⟨hforward, id, hlt⟩ := hfirst
  exact ⟨fun other => (hforward other).trans (hsecond.1 other), id,
    hlt.trans_le (hsecond.1 id)⟩

theorem Advances.ne {before after : PeerStore}
    (hadvances : before.Advances after) : after ≠ before := by
  rintro rfl
  obtain ⟨_, id, hlt⟩ := hadvances
  exact absurd hlt (lt_irrefl _)

/-! ## One entry -/

section Entry

variable (me sender : DeviceId) {merging : Merging}

theorem mergeMember_of_not_news (hwell : merging.store.WellFormed)
    {entry : RosterPeer}
    (hnews : ¬ MemberNews me sender merging.store entry) :
    mergeMember me sender merging entry = merging := by
  have houtcome := mergeMember_outcome me sender hwell entry
  generalize mergeMember me sender merging entry = after at houtcome ⊢
  cases houtcome with
  | skipped _ => rfl
  | outdated _ _ _ _ _ => rfl
  | known peer known habout hget =>
      have hremoval := (hwell.apart peer.deviceId).resolve_left (by simp [hget])
      have hnothing : ¬ (Rekeys known peer ∨ locates known peer) := fun htold =>
        hnews ⟨peer, habout, by simp [hremoval], by simpa [hget] using htold⟩
      obtain ⟨hrekeys, hlocates⟩ := not_or.mp hnothing
      have hsame : Table.modifyFirst Peer.deviceId merging.store.peers
          peer.deviceId (fun row => updatedBy row peer) =
            merging.store.peers := by
        refine Table.modifyFirst_of_lookup hget ?_
        unfold updatedBy
        simp [hrekeys, hlocates]
      unfold mergeKnown
      rw [hsame, if_neg hrekeys]
      simp [hlocates]
  | joined peer habout hget hremoval =>
      exact absurd ⟨peer, habout, hremoval, by simp [hget]⟩ hnews

/-- What merging a member does that is news. -/
inductive MemberMoves (merging : Merging) : Merging → Prop
  | known (peer known : Peer)
      (hget : merging.store.get peer.deviceId = some known)
      (htold : Rekeys known peer ∨ locates known peer) :
      MemberMoves merging (mergeKnown merging known peer)
  | joined (peer : Peer) (hget : merging.store.get peer.deviceId = none)
      (hremoval : ∀ removed ∈ merging.store.removal peer.deviceId,
        removed.removedAtMs < peer.pairedAtMs) :
      MemberMoves merging
        { merging with
          store := merging.store.put peer
          change :=
            { merging.change with
              added := merging.change.added ++ [peer.deviceId] } }

theorem mergeMember_of_news (hwell : merging.store.WellFormed)
    {entry : RosterPeer}
    (hnews : MemberNews me sender merging.store entry) :
    MemberMoves merging (mergeMember me sender merging entry) := by
  obtain ⟨peer, habout, hremoval, htold⟩ := hnews
  have houtcome := mergeMember_outcome me sender hwell entry
  generalize mergeMember me sender merging entry = after at houtcome ⊢
  cases houtcome with
  | skipped hnone => simp [hnone] at habout
  | outdated other hother removed hrow hle =>
      obtain rfl := Option.some.inj (habout.symm.trans hother)
      exact absurd (hremoval removed hrow) (Nat.not_lt.mpr hle)
  | known other known hother hget =>
      obtain rfl := Option.some.inj (habout.symm.trans hother)
      exact .known peer known hget (htold known hget)
  | joined other hother hget _ =>
      obtain rfl := Option.some.inj (habout.symm.trans hother)
      exact .joined peer hget hremoval

/-- A peer listed already gets a newer key, or its first address. -/
theorem progress_mergeKnown {known peer : Peer}
    (hget : merging.store.get peer.deviceId = some known)
    (htold : Rekeys known peer ∨ locates known peer) :
    merging.store.progress peer.deviceId <
      (mergeKnown merging known peer).store.progress peer.deviceId := by
  have hmerged := get_mergeKnown_self hget
  by_cases hrekeys : Rekeys known peer
  · refine progress_lt_of_rank_lt ?_
    have htime : (updatedBy known peer).pairedAtMs = peer.pairedAtMs :=
      if_pos hrekeys
    have hlater := hrekeys.2
    rw [standing_of_get hget, standing_of_get hmerged, rank_memberOf,
      rank_memberOf, htime]
    omega
  · have hlocates := htold.resolve_left hrekeys
    obtain ⟨hunknown, hknown⟩ := Bool.and_eq_true_iff.mp hlocates
    have htime : (updatedBy known peer).pairedAtMs = known.pairedAtMs :=
      if_neg hrekeys
    have haddress : (updatedBy known peer).lastAddress =
        peer.lastAddress := if_pos hlocates
    rw [progress, progress, standing_of_get hget, standing_of_get hmerged,
      rank_memberOf, rank_memberOf, htime, hget, hmerged, Option.bind_some,
      Option.bind_some, haddress, hknown,
      Option.isNone_iff_eq_none.mp hunknown]
    exact Nat.lt_succ_self _

theorem MemberMoves.advances {after : Merging}
    (hmoves : MemberMoves merging after) :
    merging.store.Advances after.store := by
  cases hmoves with
  | known peer known hget htold =>
      refine advances_of_one peer.deviceId ?_ (fun _ _ => rfl)
        (progress_mergeKnown hget htold)
      exact fun other hne => by rw [get_mergeKnown, if_neg hne]
  | joined peer hget hremoval =>
      have hrank := rank_le_of_removedBefore hget hremoval
      have hput : (merging.store.put peer).get peer.deviceId = some peer := by
        rw [get_put, if_pos rfl]
      refine advances_of_one peer.deviceId ?_ ?_ (progress_lt_of_rank_lt ?_)
      · exact fun other hne => by rw [get_put, if_neg hne]
      · exact fun other hne => by rw [removal_put, if_neg hne]
      · rw [standing_of_get hput, rank_memberOf]
        exact Nat.lt_succ_of_le hrank

theorem mergeRemoval_of_not_news (hwell : merging.store.WellFormed)
    {removal : RosterRemoval}
    (hnews : ¬ RemovalNews me sender merging.store removal) :
    mergeRemoval me sender merging removal = merging := by
  have houtcome := mergeRemoval_outcome me sender hwell removal
  generalize mergeRemoval me sender merging removal = after at houtcome ⊢
  cases houtcome with
  | skipped _ => rfl
  | oldNews _ _ _ _ _ => rfl
  | dropped peer known habout hget hle =>
      have hremoval := (hwell.apart peer.deviceId).resolve_left (by simp [hget])
      exact absurd ⟨peer, habout, by simpa [hget] using hle, by simp [hremoval]⟩
        hnews
  | alreadyHeard _ _ _ _ _ _ => rfl
  | learned peer habout hget hremoval =>
      exact absurd ⟨peer, habout, by simp [hget], hremoval⟩ hnews

/-- What merging a removal does that is news. -/
inductive RemovalMoves (merging : Merging) (removal : RosterRemoval) :
    Merging → Prop
  | dropped (peer known : Peer)
      (hid : known.deviceId = DeviceId.fromBytes removal.peer.deviceId)
      (hget : merging.store.get known.deviceId = some known)
      (hle : known.pairedAtMs ≤ removal.removedAtMs) :
      RemovalMoves merging removal
        { merging with
          store := merging.store.drop known removal.removedAtMs
          change :=
            { merging.change with
              removed := merging.change.removed ++ [peer.deviceId] } }
  | learned (peer : Peer)
      (hid : peer.deviceId = DeviceId.fromBytes removal.peer.deviceId)
      (hget : merging.store.get peer.deviceId = none)
      (hremoval : ∀ removed ∈ merging.store.removal peer.deviceId,
        removed.removedAtMs < removal.removedAtMs) :
      RemovalMoves merging removal
        { merging with
          store := merging.store.rememberRemoval
            { peer, removedAtMs := removal.removedAtMs, notified := false }
          change := { merging.change with removalsLearned := true } }

theorem mergeRemoval_of_news (hwell : merging.store.WellFormed)
    {removal : RosterRemoval}
    (hnews : RemovalNews me sender merging.store removal) :
    RemovalMoves merging removal (mergeRemoval me sender merging removal) := by
  obtain ⟨peer, habout, hmember, hremoval⟩ := hnews
  have houtcome := mergeRemoval_outcome me sender hwell removal
  have hid := aboutOthers_deviceId habout
  generalize mergeRemoval me sender merging removal = after at houtcome ⊢
  cases houtcome with
  | skipped hnone => simp [hnone] at habout
  | oldNews other known hother hget hlt =>
      obtain rfl := Option.some.inj (habout.symm.trans hother)
      exact absurd (hmember known hget) (Nat.not_le.mpr hlt)
  | dropped other known hother hget hle =>
      obtain rfl := Option.some.inj (habout.symm.trans hother)
      have hknown := (Table.mem_of_lookup hget).2
      exact .dropped peer known (hknown.trans hid) (hknown ▸ hget) hle
  | alreadyHeard other removed hother _ hrow hle =>
      obtain rfl := Option.some.inj (habout.symm.trans hother)
      exact absurd (hremoval removed hrow) (Nat.not_lt.mpr hle)
  | learned other hother hget _ =>
      obtain rfl := Option.some.inj (habout.symm.trans hother)
      exact .learned peer hid hget hremoval

theorem RemovalMoves.advances (hwell : merging.store.WellFormed)
    {removal : RosterRemoval}
    (hroom : merging.store.HasRoom
      (DeviceId.fromBytes removal.peer.deviceId))
    {after : Merging} (hmoves : RemovalMoves merging removal after) :
    merging.store.Advances after.store := by
  cases hmoves with
  | dropped peer known hid hget hle =>
      rw [← hid] at hroom
      refine advances_of_one known.deviceId ?_ ?_ (progress_lt_of_rank_lt ?_)
      · exact fun other hne => by rw [get_drop hwell, if_neg hne]
      · exact fun other hne => by rw [removal_drop hroom, if_neg hne]
      · rw [standing_of_get hget, standing_drop hwell, rank_memberOf,
          Standing.rank_removed]
        omega
  | learned peer hid hget hremoval =>
      rw [← hid] at hroom
      let learned : Removed := ⟨peer, removal.removedAtMs, false⟩
      have hrank := rank_le_of_removedBefore hget hremoval
      have hkept := removal_rememberRemoval merging.store learned hroom
      have hgone : (merging.store.rememberRemoval learned).get
          peer.deviceId = none := hget
      refine advances_of_one peer.deviceId (fun _ _ => rfl) ?_
        (progress_lt_of_rank_lt ?_)
      · exact fun other hne => (hkept other).trans (if_neg hne)
      · rw [standing_of_removal hgone ((hkept _).trans (if_pos rfl)),
          Standing.rank_removed]
        exact hrank.trans_lt (Nat.lt_add_of_pos_right Nat.two_pos)

end Entry

/-! ## A whole roster -/

/-- The devices that the store remembers as removed, and those that a merge
hears are removed. -/
def removedIds (store : PeerStore) (roster : Roster) : Finset DeviceId :=
  (store.removed.map Removed.deviceId ++
    (roster.removed.take maxRosterEntries).map fun removal =>
      DeviceId.fromBytes removal.peer.deviceId).toFinset

/-- All these removals can be remembered together. -/
def Fits (store : PeerStore) (roster : Roster) : Prop :=
  (store.removedIds roster).card ≤ maxRemoved

instance (store : PeerStore) (roster : Roster) :
    Decidable (store.Fits roster) :=
  inferInstanceAs (Decidable (_ ≤ _))

theorem removalsIn_removedIds (store : PeerStore) (roster : Roster) :
    store.RemovalsIn (store.removedIds roster) :=
  fun _ hremoved => List.mem_toFinset.mpr
    (List.mem_append_left _ (List.mem_map_of_mem hremoved))

section Roster

variable (me sender : DeviceId) {merging : Merging} {store : PeerStore}

theorem mergeMembers_of_not_news (hwell : merging.store.WellFormed)
    {members : List RosterPeer}
    (hnews : ∀ entry ∈ members,
      ¬ MemberNews me sender merging.store entry) :
    members.foldl (mergeMember me sender) merging = merging := by
  apply List.foldlRecOn (motive := (· = merging)) members _ rfl
  rintro _ rfl entry hentry
  exact mergeMember_of_not_news me sender hwell (hnews entry hentry)

theorem mergeRemovals_of_not_news (hwell : merging.store.WellFormed)
    {removals : List RosterRemoval}
    (hnews : ∀ removal ∈ removals,
      ¬ RemovalNews me sender merging.store removal) :
    removals.foldl (mergeRemoval me sender) merging = merging := by
  apply List.foldlRecOn (motive := (· = merging)) removals _ rfl
  rintro _ rfl removal hremoval
  exact mergeRemoval_of_not_news me sender hwell (hnews removal hremoval)

/-- A roster without news changes nothing. -/
theorem mergeEntries_of_noNews (hwell : store.WellFormed) {roster : Roster}
    (hnone : NoNews me sender store roster) :
    store.mergeEntries me sender roster =
      { store, change := RosterChange.none, dirty := false } := by
  let merging : Merging :=
    { store, change := RosterChange.none, dirty := false }
  have hmerging : merging.store.WellFormed := hwell
  unfold mergeEntries
  rw [mergeMembers_of_not_news me sender hmerging hnone.1,
    mergeRemovals_of_not_news me sender hmerging hnone.2]

/-- Merging members moves the store forward where they are news. -/
theorem mergeMember_handles :
    HandlesNews (mergeMember me sender) (fun merging => merging.store.WellFormed)
      (fun _ => True)
      (fun merging entry => MemberNews me sender merging.store entry)
      fun before after => before.store.Advances after.store where
  inv hwell _ := wellFormed_mergeMember me sender hwell _
  old hwell _ := mergeMember_of_not_news me sender hwell
  news hwell _ hnews := (mergeMember_of_news me sender hwell hnews).advances
  trans := Advances.trans

/-- So does merging removals, if all of them can be remembered together. -/
theorem mergeRemoval_handles {ids : Finset DeviceId}
    (hcard : ids.card ≤ maxRemoved) :
    HandlesNews (mergeRemoval me sender)
      (fun merging =>
        merging.store.WellFormed ∧ merging.store.RemovalsIn ids)
      (fun removal => DeviceId.fromBytes removal.peer.deviceId ∈ ids)
      (fun merging removal => RemovalNews me sender merging.store removal)
      fun before after => before.store.Advances after.store where
  inv := fun ⟨hwell, hin⟩ hid =>
    ⟨wellFormed_mergeRemoval me sender hwell _,
      removalsIn_mergeRemoval me sender hin hwell _ hid⟩
  old := fun ⟨hwell, _⟩ _ => mergeRemoval_of_not_news me sender hwell
  news := fun ⟨hwell, hin⟩ hid hnews =>
    (mergeRemoval_of_news me sender hwell hnews).advances hwell
      (hin.hasRoom hwell hcard hid)
  trans := Advances.trans

/-- If nothing has to be forgotten, a roster with news moves the store
forward. -/
theorem mergeEntries_advances (hwell : store.WellFormed) {roster : Roster}
    (hfits : store.Fits roster) (hnews : ¬ NoNews me sender store roster) :
    store.Advances (store.mergeEntries me sender roster).store := by
  let merging : Merging :=
    { store, change := RosterChange.none, dirty := false }
  let members := roster.members.take maxRosterEntries
  have hmerging : merging.store.WellFormed := hwell
  have hin : merging.store.RemovalsIn (store.removedIds roster) :=
    removalsIn_removedIds store roster
  have hids : ∀ removal ∈ roster.removed.take maxRosterEntries,
      DeviceId.fromBytes removal.peer.deviceId ∈ store.removedIds roster :=
    fun removal hmem => List.mem_toFinset.mpr
      (List.mem_append_right _ (List.mem_map_of_mem hmem))
  exact (mergeMember_handles me sender).foldl_foldl_forward
    (mergeRemoval_handles me sender hfits) hmerging (fun _ _ => trivial)
    ⟨wellFormed_mergeMembers me sender members hmerging,
      removalsIn_mergeMembers me sender members hin hmerging⟩ hids hnews

end Roster

end PeerStore

end Cled.Lan
