import Cled.Core.Standing
import Cled.Lan.PeerStore

/-!
# What a merge does to one device

Of each device a store knows a standing: unknown, member or removed.  A roster
reports a standing for some devices, and merging it makes the store absorb these
reports, one device at a time.
-/

namespace Cled.Lan

open Cled.Core Cled.Sync

namespace PeerStore

def standing (store : PeerStore) (id : DeviceId) : Standing PublicKey :=
  match store.get id with
  | some peer => .member peer.publicKey peer.pairedAtMs
  | none =>
      match store.removal id with
      | some removed => .removed removed.removedAtMs
      | none => .unknown

/-- The standing of a listed peer. -/
def memberOf (peer : Peer) : Standing PublicKey :=
  .member peer.publicKey peer.pairedAtMs

@[simp]
theorem rank_memberOf (peer : Peer) :
    (memberOf peer).rank = 2 * peer.pairedAtMs + 1 := rfl

theorem standing_of_get {store : PeerStore} {id : DeviceId} {peer : Peer}
    (hget : store.get id = some peer) :
    store.standing id = memberOf peer := by
  rw [standing, hget]
  rfl

theorem standing_of_removal {store : PeerStore} {id : DeviceId}
    {removed : Removed} (hget : store.get id = none)
    (hremoval : store.removal id = some removed) :
    store.standing id = .removed removed.removedAtMs := by
  rw [standing, hget, hremoval]

theorem standing_of_none {store : PeerStore} {id : DeviceId}
    (hget : store.get id = none) (hremoval : store.removal id = none) :
    store.standing id = .unknown := by
  rw [standing, hget, hremoval]

theorem standing_congr {left right : PeerStore} {id : DeviceId}
    (hget : left.get id = right.get id)
    (hremoval : left.removal id = right.removal id) :
    left.standing id = right.standing id := by
  rw [standing, standing, hget, hremoval]

/-- A device that is not listed has come no further than its removal. -/
theorem rank_le_of_removedBefore {store : PeerStore} {id : DeviceId} {time : ℕ}
    (hget : store.get id = none)
    (hremoval : ∀ removed ∈ store.removal id, removed.removedAtMs < time) :
    (store.standing id).rank ≤ 2 * time := by
  cases hrow : store.removal id with
  | none =>
      rw [standing_of_none hget hrow]
      exact Nat.zero_le _
  | some removed =>
      have hlt := hremoval removed hrow
      rw [standing_of_removal hget hrow, Standing.rank_removed]
      omega

/-- Only a device that is not listed counts as removed. -/
theorem get_of_standing_removed {store : PeerStore} {id : DeviceId}
    {removedAtMs : ℕ} (hstanding : store.standing id = .removed removedAtMs) :
    store.get id = none := by
  cases hget : store.get id with
  | none => rfl
  | some peer =>
      rw [standing_of_get hget] at hstanding
      contradiction

theorem get_of_standing_member {store : PeerStore} {id : DeviceId}
    {key : PublicKey} {joinedAt : ℕ}
    (hstanding : store.standing id = .member key joinedAt) :
    ∃ peer, store.get id = some peer ∧ memberOf peer = .member key joinedAt := by
  cases hget : store.get id with
  | some peer =>
      rw [standing_of_get hget] at hstanding
      exact ⟨peer, rfl, hstanding⟩
  | none =>
      cases hremoval : store.removal id with
      | none =>
          rw [standing_of_none hget hremoval] at hstanding
          contradiction
      | some removed =>
          rw [standing_of_removal hget hremoval] at hstanding
          contradiction

theorem standing_drop {store : PeerStore} (hwell : store.WellFormed)
    (peer : Peer) (removedAtMs : ℕ) :
    (store.drop peer removedAtMs).standing peer.deviceId =
      .removed removedAtMs := by
  have hget : (store.drop peer removedAtMs).get peer.deviceId = none := by
    rw [get_drop hwell, if_pos rfl]
  have hremoval : (store.drop peer removedAtMs).removal peer.deviceId =
      some ⟨peer, removedAtMs, false⟩ :=
    Table.lookup_of_mem (hwell.drop peer removedAtMs).removed
      (mem_rememberRemoval_self _ _)
  exact standing_of_removal hget hremoval

/-! ## One entry -/

/-- Everything merging a member of the roster can do. -/
inductive MemberOutcome (me sender : DeviceId) (merging : Merging)
    (entry : RosterPeer) : Merging → Prop
  | skipped (habout : aboutOthers me sender entry = none) :
      MemberOutcome me sender merging entry merging
  | outdated (peer : Peer) (habout : aboutOthers me sender entry = some peer)
      (removed : Removed)
      (hremoval : merging.store.removal peer.deviceId = some removed)
      (hle : peer.pairedAtMs ≤ removed.removedAtMs) :
      MemberOutcome me sender merging entry merging
  | known (peer known : Peer)
      (habout : aboutOthers me sender entry = some peer)
      (hget : merging.store.get peer.deviceId = some known) :
      MemberOutcome me sender merging entry (mergeKnown merging known peer)
  | joined (peer : Peer) (habout : aboutOthers me sender entry = some peer)
      (hget : merging.store.get peer.deviceId = none)
      (hremoval : ∀ removed ∈ merging.store.removal peer.deviceId,
        removed.removedAtMs < peer.pairedAtMs) :
      MemberOutcome me sender merging entry
        { merging with
          store := merging.store.put peer
          change :=
            { merging.change with
              added := merging.change.added ++ [peer.deviceId] } }

theorem mergeMember_outcome (me sender : DeviceId) {merging : Merging}
    (hwell : merging.store.WellFormed) (entry : RosterPeer) :
    MemberOutcome me sender merging entry
      (mergeMember me sender merging entry) := by
  unfold mergeMember
  split
  · next habout => exact .skipped habout
  next peer habout =>
    have hany := Table.any_eq_true_iff hwell.removed peer.deviceId
      fun removed => peer.pairedAtMs ≤ removed.removedAtMs
    split
    · next houtdated =>
      obtain ⟨removed, hremoval, hle⟩ := hany.mp houtdated
      exact .outdated peer habout removed hremoval hle
    next hnews =>
      split
      · next known hget => exact .known peer known habout hget
      · next hget =>
        have hpeers := Table.without_of_lookup_eq_none hget
        have hjoined := MemberOutcome.joined peer habout hget
          fun removed hremoval => by
            by_contra hlt
            exact hnews (hany.mpr ⟨removed, hremoval, Nat.not_lt.mp hlt⟩)
        rwa [put, hpeers] at hjoined

/-- Everything merging a removal of the roster can do. -/
inductive RemovalOutcome (me sender : DeviceId) (merging : Merging)
    (removal : RosterRemoval) : Merging → Prop
  | skipped (habout : aboutOthers me sender removal.peer = none) :
      RemovalOutcome me sender merging removal merging
  | oldNews (peer known : Peer)
      (habout : aboutOthers me sender removal.peer = some peer)
      (hget : merging.store.get peer.deviceId = some known)
      (hlt : removal.removedAtMs < known.pairedAtMs) :
      RemovalOutcome me sender merging removal merging
  | dropped (peer known : Peer)
      (habout : aboutOthers me sender removal.peer = some peer)
      (hget : merging.store.get peer.deviceId = some known)
      (hle : known.pairedAtMs ≤ removal.removedAtMs) :
      RemovalOutcome me sender merging removal
        { merging with
          store := merging.store.drop known removal.removedAtMs
          change :=
            { merging.change with
              removed := merging.change.removed ++ [peer.deviceId] } }
  | alreadyHeard (peer : Peer) (removed : Removed)
      (habout : aboutOthers me sender removal.peer = some peer)
      (hget : merging.store.get peer.deviceId = none)
      (hremoval : merging.store.removal peer.deviceId = some removed)
      (hle : removal.removedAtMs ≤ removed.removedAtMs) :
      RemovalOutcome me sender merging removal merging
  | learned (peer : Peer)
      (habout : aboutOthers me sender removal.peer = some peer)
      (hget : merging.store.get peer.deviceId = none)
      (hremoval : ∀ removed ∈ merging.store.removal peer.deviceId,
        removed.removedAtMs < removal.removedAtMs) :
      RemovalOutcome me sender merging removal
        { merging with
          store := merging.store.rememberRemoval
            { peer, removedAtMs := removal.removedAtMs, notified := false }
          change := { merging.change with removalsLearned := true } }

theorem mergeRemoval_outcome (me sender : DeviceId) {merging : Merging}
    (hwell : merging.store.WellFormed) (removal : RosterRemoval) :
    RemovalOutcome me sender merging removal
      (mergeRemoval me sender merging removal) := by
  unfold mergeRemoval
  split
  · next habout => exact .skipped habout
  next peer habout =>
    split
    · next known hget =>
      split
      · next hle => exact .dropped peer known habout hget hle
      · next hlt =>
        exact .oldNews peer known habout hget (Nat.not_le.mp hlt)
    next hget =>
      have hany := Table.any_eq_true_iff hwell.removed peer.deviceId
        fun removed => removal.removedAtMs ≤ removed.removedAtMs
      split
      · next hheard =>
        obtain ⟨removed, hremoval, hle⟩ := hany.mp hheard
        exact .alreadyHeard peer removed habout hget hremoval hle
      · next hnews =>
        refine .learned peer habout hget fun removed hremoval => ?_
        by_contra hlt
        exact hnews (hany.mpr ⟨removed, hremoval, Nat.not_lt.mp hlt⟩)

theorem wellFormed_mergeMember (me sender : DeviceId) {merging : Merging}
    (hwell : merging.store.WellFormed) (entry : RosterPeer) :
    (mergeMember me sender merging entry).store.WellFormed := by
  have houtcome := mergeMember_outcome me sender hwell entry
  generalize mergeMember me sender merging entry = after at houtcome ⊢
  cases houtcome with
  | skipped _ => exact hwell
  | outdated _ _ _ _ _ => exact hwell
  | known peer known _ _ => exact hwell.modifyPeer _ fun _ => rfl
  | joined peer _ _ _ => exact hwell.put peer

theorem wellFormed_mergeRemoval (me sender : DeviceId) {merging : Merging}
    (hwell : merging.store.WellFormed) (removal : RosterRemoval) :
    (mergeRemoval me sender merging removal).store.WellFormed := by
  have houtcome := mergeRemoval_outcome me sender hwell removal
  generalize mergeRemoval me sender merging removal = after at houtcome ⊢
  cases houtcome with
  | skipped _ => exact hwell
  | oldNews _ _ _ _ _ => exact hwell
  | dropped peer known _ _ _ => exact hwell.drop known _
  | alreadyHeard _ _ _ _ _ _ => exact hwell
  | learned peer _ hget _ => exact hwell.rememberRemoval hget

theorem aboutOthers_deviceId {me sender : DeviceId} {entry : RosterPeer}
    {peer : Peer} (habout : aboutOthers me sender entry = some peer) :
    peer.deviceId = DeviceId.fromBytes entry.deviceId := by
  obtain ⟨hfrom, _⟩ := Option.filter_eq_some_iff.mp habout
  unfold fromRoster at hfrom
  split at hfrom
  · contradiction
  · obtain rfl := Option.some.inj hfrom
    rfl

/-- What an entry reports about `id`. -/
def heard (me sender id : DeviceId) (entry : RosterPeer)
    (report : Peer → Standing PublicKey) : Standing PublicKey :=
  match aboutOthers me sender entry with
  | some peer => if peer.deviceId = id then report peer else .unknown
  | none => .unknown

def heardMember (me sender id : DeviceId) (entry : RosterPeer) :
    Standing PublicKey :=
  heard me sender id entry memberOf

def heardRemoval (me sender id : DeviceId) (removal : RosterRemoval) :
    Standing PublicKey :=
  heard me sender id removal.peer fun _ => .removed removal.removedAtMs

theorem get_mergeKnown (merging : Merging) (known peer : Peer) (id : DeviceId) :
    (mergeKnown merging known peer).store.get id =
      if id = peer.deviceId then
        (merging.store.get id).map fun row => updatedBy row peer
      else merging.store.get id :=
  Table.lookup_modifyFirst
    (fun row => (rfl : (updatedBy row peer).deviceId = row.deviceId))
    merging.store.peers peer.deviceId id

theorem get_mergeKnown_self {merging : Merging} {known peer : Peer}
    (hget : merging.store.get peer.deviceId = some known) :
    (mergeKnown merging known peer).store.get peer.deviceId =
      some (updatedBy known peer) := by
  rw [get_mergeKnown, if_pos rfl, hget, Option.map_some]

/-- A peer listed already keeps its key and time, or takes both from the entry,
which is then newer and has another key. -/
theorem standing_mergeKnown {merging : Merging} {known peer : Peer}
    (hget : merging.store.get peer.deviceId = some known) :
    (mergeKnown merging known peer).store.standing peer.deviceId =
      (merging.store.standing peer.deviceId).absorb (memberOf peer) := by
  have hmerged := get_mergeKnown_self hget
  have hreplaces :
      (memberOf peer).Replaces (memberOf known) ↔ Rekeys known peer := by
    change (2 * known.pairedAtMs + 1 < 2 * peer.pairedAtMs + 1 ∧
      ¬ known.publicKey = peer.publicKey) ↔ _
    rw [Rekeys, and_comm]
    exact and_congr Iff.rfl (by omega)
  rw [standing_of_get hget, standing_of_get hmerged]
  by_cases hrekeys : Rekeys known peer
  · rw [Standing.absorb_of_replaces (hreplaces.mpr hrekeys), memberOf,
      updatedBy, if_pos hrekeys, if_pos hrekeys]
    rfl
  · rw [Standing.absorb_of_not_replaces (hreplaces.not.mpr hrekeys), memberOf,
      updatedBy, if_neg hrekeys, if_neg hrekeys]
    rfl

theorem standing_mergeMember (me sender id : DeviceId) {merging : Merging}
    (hwell : merging.store.WellFormed) (entry : RosterPeer) :
    (mergeMember me sender merging entry).store.standing id =
      (merging.store.standing id).absorb (heardMember me sender id entry) := by
  have houtcome := mergeMember_outcome me sender hwell entry
  generalize mergeMember me sender merging entry = after at houtcome ⊢
  unfold heardMember heard
  cases houtcome with
  | skipped habout => rw [habout, Standing.absorb_unknown]
  | outdated peer habout removed hremoval hle =>
      rw [habout]
      dsimp only
      split
      · next hid =>
        subst hid
        have hget := (hwell.apart peer.deviceId).resolve_right
          (by simp [hremoval])
        rw [standing_of_removal hget hremoval,
          Standing.absorb_of_not_replaces]
        refine Standing.not_replaces_of_le ?_
        rw [rank_memberOf, Standing.rank_removed]
        omega
      · rw [Standing.absorb_unknown]
  | known peer known habout hget =>
      rw [habout]
      dsimp only
      split
      · next hid =>
        subst hid
        exact standing_mergeKnown hget
      · next hid =>
        rw [Standing.absorb_unknown]
        refine standing_congr ?_ rfl
        rw [get_mergeKnown, if_neg (Ne.symm hid)]
  | joined peer habout hget hremoval =>
      rw [habout]
      dsimp only
      split
      · next hid =>
        subst hid
        have hput : (merging.store.put peer).get peer.deviceId = some peer := by
          rw [get_put, if_pos rfl]
        rw [standing_of_get hput, Standing.absorb_of_replaces]
        cases hrow : merging.store.removal peer.deviceId with
        | none =>
            rw [standing_of_none hget hrow]
            exact ⟨Nat.succ_pos _, nofun⟩
        | some removed =>
            have hlt := hremoval removed hrow
            rw [standing_of_removal hget hrow]
            refine ⟨?_, nofun⟩
            rw [Standing.rank_removed, rank_memberOf]
            omega
      · next hid =>
        rw [Standing.absorb_unknown]
        refine standing_congr ?_ ?_
        · rw [get_put, if_neg (Ne.symm hid)]
        · rw [removal_put, if_neg (Ne.symm hid)]

/-- A removal that is older than the listed peer leaves it listed. -/
theorem get_mergeRemoval (me sender id : DeviceId) {merging : Merging}
    (hwell : merging.store.WellFormed) (removal : RosterRemoval)
    (holder : ∀ known ∈ merging.store.get id,
      ¬ (heardRemoval me sender id removal).Replaces (memberOf known)) :
    (mergeRemoval me sender merging removal).store.get id =
      merging.store.get id := by
  have houtcome := mergeRemoval_outcome me sender hwell removal
  generalize mergeRemoval me sender merging removal = after at houtcome ⊢
  cases houtcome with
  | dropped peer known habout hget hle =>
      have hknown := (Table.mem_of_lookup hget).2
      rw [get_drop hwell, hknown, if_neg]
      rintro rfl
      refine holder known hget ?_
      rw [heardRemoval, heard, habout]
      simp only [if_true]
      rw [Standing.removed_replaces_iff, rank_memberOf]
      omega
  | skipped _ => rfl
  | oldNews _ _ _ _ _ => rfl
  | alreadyHeard _ _ _ _ _ _ => rfl
  | learned _ _ _ _ => rfl

/-- A removal lists no peer. -/
theorem get_mergeRemoval_eq_none (me sender : DeviceId) {id : DeviceId}
    {merging : Merging} (hwell : merging.store.WellFormed)
    (removal : RosterRemoval) (hnone : merging.store.get id = none) :
    (mergeRemoval me sender merging removal).store.get id = none := by
  rw [get_mergeRemoval me sender id hwell removal (by simp [hnone]), hnone]

/-- There is room for one more removal beside those of other devices. -/
def HasRoom (store : PeerStore) (id : DeviceId) : Prop :=
  (Table.without Removed.deviceId store.removed id).length < maxRemoved

theorem removal_drop {store : PeerStore} {peer : Peer}
    (hroom : store.HasRoom peer.deviceId) (removedAtMs : ℕ) (id : DeviceId) :
    (store.drop peer removedAtMs).removal id =
      if id = peer.deviceId then
        some { peer, removedAtMs, notified := false }
      else store.removal id :=
  removal_rememberRemoval _ ⟨peer, removedAtMs, false⟩ hroom id

theorem standing_mergeRemoval (me sender id : DeviceId) {merging : Merging}
    (hwell : merging.store.WellFormed) (removal : RosterRemoval)
    (hroom : ∀ peer ∈ aboutOthers me sender removal.peer,
      merging.store.HasRoom peer.deviceId) :
    (mergeRemoval me sender merging removal).store.standing id =
      (merging.store.standing id).absorb
        (heardRemoval me sender id removal) := by
  have houtcome := mergeRemoval_outcome me sender hwell removal
  generalize mergeRemoval me sender merging removal = after at houtcome ⊢
  unfold heardRemoval heard
  cases houtcome with
  | skipped habout => rw [habout, Standing.absorb_unknown]
  | oldNews peer known habout hget hlt =>
      rw [habout]
      dsimp only
      split
      · next hid =>
        subst hid
        rw [standing_of_get hget, Standing.absorb_of_not_replaces]
        refine Standing.not_replaces_of_le ?_
        rw [rank_memberOf, Standing.rank_removed]
        omega
      · rw [Standing.absorb_unknown]
  | dropped peer known habout hget hle =>
      have hknown := (Table.mem_of_lookup hget).2
      have hroomKnown : merging.store.HasRoom known.deviceId := by
        rw [hknown]
        exact hroom peer habout
      rw [habout]
      dsimp only
      split
      · next hid =>
        subst hid
        have hgone : (merging.store.drop known removal.removedAtMs).get
            peer.deviceId = none := by
          rw [get_drop hwell, hknown, if_pos rfl]
        have hkept := removal_drop hroomKnown removal.removedAtMs peer.deviceId
        rw [hknown, if_pos rfl] at hkept
        rw [standing_of_removal hgone hkept, standing_of_get hget,
          Standing.absorb_of_replaces]
        rw [Standing.removed_replaces_iff, rank_memberOf]
        omega
      · next hid =>
        rw [Standing.absorb_unknown]
        refine standing_congr ?_ ?_
        · rw [get_drop hwell, hknown, if_neg (Ne.symm hid)]
        · rw [removal_drop hroomKnown, hknown, if_neg (Ne.symm hid)]
  | alreadyHeard peer removed habout hget hremoval hle =>
      rw [habout]
      dsimp only
      split
      · next hid =>
        subst hid
        rw [standing_of_removal hget hremoval,
          Standing.absorb_of_not_replaces]
        refine Standing.not_replaces_of_le ?_
        rw [Standing.rank_removed, Standing.rank_removed]
        omega
      · rw [Standing.absorb_unknown]
  | learned peer habout hget hremoval =>
      let learned : Removed := ⟨peer, removal.removedAtMs, false⟩
      have hkept :=
        removal_rememberRemoval merging.store learned (hroom peer habout)
      rw [habout]
      dsimp only
      split
      · next hid =>
        subst hid
        have hget' : (merging.store.rememberRemoval learned).get
            peer.deviceId = none := hget
        rw [standing_of_removal hget' ((hkept _).trans (if_pos rfl)),
          Standing.absorb_of_replaces]
        have hrank := rank_le_of_removedBefore hget hremoval
        exact Standing.removed_replaces_iff.mpr (by omega)
      · next hid =>
        rw [Standing.absorb_unknown]
        refine standing_congr rfl ?_
        exact (hkept _).trans (if_neg (Ne.symm hid))

/-! ## A whole merge -/

/-- Saving makes no difference to what a merge does in memory. -/
theorem merge_store (store : PeerStore) (me sender : DeviceId)
    (roster : Roster) (saved : Except LanError Unit) :
    (store.merge me sender roster saved).2 =
      (store.mergeEntries me sender roster).store := by
  unfold merge
  dsimp only
  split
  · rfl
  · rfl

/-- What merging each member of a well-formed store keeps, merging them all
keeps. -/
theorem mergeMembers_keeps (me sender : DeviceId) {motive : PeerStore → Prop}
    {members : List RosterPeer} {merging : Merging}
    (hwell : merging.store.WellFormed) (hstart : motive merging.store)
    (hstep : ∀ (merging : Merging), ∀ entry ∈ members,
      merging.store.WellFormed → motive merging.store →
        motive (mergeMember me sender merging entry).store) :
    motive (members.foldl (mergeMember me sender) merging).store := by
  suffices hboth : (members.foldl (mergeMember me sender)
      merging).store.WellFormed ∧
      motive (members.foldl (mergeMember me sender) merging).store from hboth.2
  apply List.foldlRecOn (motive := fun merging : Merging =>
    merging.store.WellFormed ∧ motive merging.store) members _ ⟨hwell, hstart⟩
  rintro merging ⟨hwell, hkept⟩ entry hentry
  exact ⟨wellFormed_mergeMember me sender hwell entry,
    hstep merging entry hentry hwell hkept⟩

theorem mergeRemovals_keeps (me sender : DeviceId) {motive : PeerStore → Prop}
    {removals : List RosterRemoval} {merging : Merging}
    (hwell : merging.store.WellFormed) (hstart : motive merging.store)
    (hstep : ∀ (merging : Merging), ∀ removal ∈ removals,
      merging.store.WellFormed → motive merging.store →
        motive (mergeRemoval me sender merging removal).store) :
    motive (removals.foldl (mergeRemoval me sender) merging).store := by
  suffices hboth : (removals.foldl (mergeRemoval me sender)
      merging).store.WellFormed ∧
      motive (removals.foldl (mergeRemoval me sender) merging).store
    from hboth.2
  apply List.foldlRecOn (motive := fun merging : Merging =>
    merging.store.WellFormed ∧ motive merging.store) removals _ ⟨hwell, hstart⟩
  rintro merging ⟨hwell, hkept⟩ removal hremoval
  exact ⟨wellFormed_mergeRemoval me sender hwell removal,
    hstep merging removal hremoval hwell hkept⟩

theorem wellFormed_mergeMembers (me sender : DeviceId)
    (members : List RosterPeer) {merging : Merging}
    (hwell : merging.store.WellFormed) :
    (members.foldl (mergeMember me sender) merging).store.WellFormed :=
  mergeMembers_keeps me sender hwell hwell fun _ entry _ hwell _ =>
    wellFormed_mergeMember me sender hwell entry

theorem wellFormed_mergeRemovals (me sender : DeviceId)
    (removals : List RosterRemoval) {merging : Merging}
    (hwell : merging.store.WellFormed) :
    (removals.foldl (mergeRemoval me sender) merging).store.WellFormed :=
  mergeRemovals_keeps me sender hwell hwell fun _ removal _ hwell _ =>
    wellFormed_mergeRemoval me sender hwell removal

theorem wellFormed_mergeEntries {store : PeerStore} (hwell : store.WellFormed)
    (me sender : DeviceId) (roster : Roster) :
    (store.mergeEntries me sender roster).store.WellFormed :=
  wellFormed_mergeRemovals me sender _
    (wellFormed_mergeMembers me sender _ hwell)

/-! ## Which keys a merge can change -/

/-- The public key of a listed peer. -/
def keyOf (store : PeerStore) (id : DeviceId) : Option PublicKey :=
  (store.get id).map Peer.publicKey

theorem keyOf_eq_some_iff {store : PeerStore} {id : DeviceId}
    {key : PublicKey} :
    store.keyOf id = some key ↔
      ∃ peer, store.get id = some peer ∧ peer.publicKey = key :=
  Option.map_eq_some_iff

theorem keyOf_put (store : PeerStore) (peer : Peer) (id : DeviceId) :
    (store.put peer).keyOf id =
      if id = peer.deviceId then some peer.publicKey else store.keyOf id := by
  rw [keyOf, get_put]
  split
  · rfl
  · rfl

theorem keyOf_remove {store : PeerStore} (hwell : store.WellFormed)
    (removedAtMs : ℕ) (saved : Except LanError Unit) {device id : DeviceId}
    (hne : id ≠ device) :
    (store.remove device removedAtMs saved).2.keyOf id = store.keyOf id := by
  unfold remove
  split
  · rfl
  · next peer hget =>
    have hpeer := (Table.mem_of_lookup hget).2
    rw [keyOf, get_drop hwell, hpeer, if_neg hne]
    rfl

/-- `seen` changes nothing but names and addresses. -/
theorem get_seen_map {Value : Type*} (store : PeerStore) (device id : DeviceId)
    (name : String) (address : Option SocketAddr)
    (saved : Except LanError Unit) {value : Peer → Value}
    (hvalue : ∀ peer name lastAddress,
      value { peer with name, lastAddress } = value peer) :
    ((store.seen device name address saved).2.get id).map value =
      (store.get id).map value := by
  unfold seen
  split
  · rfl
  dsimp only
  split
  · rfl
  · next known _ _ =>
    let change (peer : Peer) : Peer :=
      { peer with name, lastAddress := address.or known.lastAddress }
    have hrows := Table.lookup_modifyFirst
      (fun row => (rfl : (change row).deviceId = row.deviceId))
      store.peers device id
    calc
      _ = (if id = device then (store.get id).map change
          else store.get id).map value := congrArg (Option.map value) hrows
      _ = (store.get id).map value := by
          split
          · rw [Option.map_map]
            exact congrArg (Option.map · _)
              (funext fun peer => hvalue peer name _)
          · rfl

theorem keyOf_seen (store : PeerStore) (device id : DeviceId) (name : String)
    (address : Option SocketAddr) (saved : Except LanError Unit) :
    (store.seen device name address saved).2.keyOf id = store.keyOf id :=
  store.get_seen_map device id name address saved fun _ _ _ => rfl

theorem keyOf_markNotified (store : PeerStore) (device id : DeviceId)
    (saved : Except LanError Unit) :
    (store.markNotified device saved).2.keyOf id = store.keyOf id := by
  unfold markNotified
  split
  · rfl
  · rfl

/-- Merging a member changes no key unless it says so. -/
theorem keyOf_mergeMember (me sender : DeviceId) {id : DeviceId}
    {merging : Merging} (hwell : merging.store.WellFormed) (entry : RosterPeer)
    (hid : id ∉ (mergeMember me sender merging entry).change.added) :
    (mergeMember me sender merging entry).store.keyOf id =
        merging.store.keyOf id ∧ id ∉ merging.change.added := by
  have houtcome := mergeMember_outcome me sender hwell entry
  generalize mergeMember me sender merging entry = after at houtcome hid ⊢
  cases houtcome with
  | skipped _ => exact ⟨rfl, hid⟩
  | outdated _ _ _ _ _ => exact ⟨rfl, hid⟩
  | known peer known habout hget =>
      have hkeys : (mergeKnown merging known peer).store.keyOf id =
          (if id = peer.deviceId then
            (merging.store.get id).map fun row => updatedBy row peer
          else merging.store.get id).map Peer.publicKey :=
        congrArg (Option.map Peer.publicKey) (get_mergeKnown merging known peer id)
      unfold mergeKnown at hid
      dsimp only at hid
      by_cases heq : id = peer.deviceId
      · subst heq
        rw [if_pos rfl, hget] at hkeys
        by_cases hrekeys : Rekeys known peer
        · rw [if_pos hrekeys] at hid
          simp at hid
        · rw [if_neg hrekeys] at hid
          refine ⟨?_, hid⟩
          rw [hkeys, keyOf, hget, Option.map_some, Option.map_some, updatedBy,
            if_neg hrekeys]
          rfl
      · rw [if_neg heq] at hkeys
        refine ⟨hkeys, ?_⟩
        split at hid
        · exact fun hmem => hid (List.mem_append_left _ hmem)
        · exact hid
  | joined peer habout hget hremoval =>
      obtain ⟨hold, hnew⟩ := not_or.mp (mt List.mem_append.mpr hid)
      refine ⟨?_, hold⟩
      rw [keyOf, get_put, if_neg (by simpa using hnew)]
      rfl

/-- Merging a removal changes no key unless it says so. -/
theorem keyOf_mergeRemoval (me sender : DeviceId) {id : DeviceId}
    {merging : Merging} (hwell : merging.store.WellFormed)
    (removal : RosterRemoval)
    (hid : id ∉ (mergeRemoval me sender merging removal).change.removed) :
    (mergeRemoval me sender merging removal).store.keyOf id =
        merging.store.keyOf id ∧ id ∉ merging.change.removed ∧
      (mergeRemoval me sender merging removal).change.added =
        merging.change.added := by
  have houtcome := mergeRemoval_outcome me sender hwell removal
  generalize mergeRemoval me sender merging removal = after at houtcome hid ⊢
  cases houtcome with
  | skipped _ => exact ⟨rfl, hid, rfl⟩
  | oldNews _ _ _ _ _ => exact ⟨rfl, hid, rfl⟩
  | dropped peer known habout hget hle =>
      have hknown := (Table.mem_of_lookup hget).2
      obtain ⟨hold, hnew⟩ := not_or.mp (mt List.mem_append.mpr hid)
      refine ⟨?_, hold, rfl⟩
      rw [keyOf, get_drop hwell, hknown, if_neg (by simpa using hnew)]
      rfl
  | alreadyHeard _ _ _ _ _ _ => exact ⟨rfl, hid, rfl⟩
  | learned _ _ _ _ => exact ⟨rfl, hid, rfl⟩

/-- The devices whose key a merge may have changed. -/
def changedIds (change : RosterChange) : List DeviceId :=
  change.removed ++ change.added

theorem keyOf_mergeMembers (me sender : DeviceId) {id : DeviceId}
    (members : List RosterPeer) {merging : Merging}
    (hwell : merging.store.WellFormed)
    (hid : id ∉ (members.foldl (mergeMember me sender) merging).change.added) :
    (members.foldl (mergeMember me sender) merging).store.keyOf id =
        merging.store.keyOf id ∧ id ∉ merging.change.added := by
  induction members generalizing merging with
  | nil => exact ⟨rfl, hid⟩
  | cons entry members ih =>
      obtain ⟨hkeys, hadded⟩ :=
        ih (wellFormed_mergeMember me sender hwell entry) hid
      obtain ⟨hhead, hbefore⟩ := keyOf_mergeMember me sender hwell entry hadded
      exact ⟨hkeys.trans hhead, hbefore⟩

theorem keyOf_mergeRemovals (me sender : DeviceId) {id : DeviceId}
    (removals : List RosterRemoval) {merging : Merging}
    (hwell : merging.store.WellFormed)
    (hid : id ∉
      (removals.foldl (mergeRemoval me sender) merging).change.removed) :
    (removals.foldl (mergeRemoval me sender) merging).store.keyOf id =
        merging.store.keyOf id ∧ id ∉ merging.change.removed ∧
      (removals.foldl (mergeRemoval me sender) merging).change.added =
        merging.change.added := by
  induction removals generalizing merging with
  | nil => exact ⟨rfl, hid, rfl⟩
  | cons removal removals ih =>
      obtain ⟨hkeys, hremoved, hadded⟩ :=
        ih (wellFormed_mergeRemoval me sender hwell removal) hid
      obtain ⟨hhead, hbefore, hsame⟩ :=
        keyOf_mergeRemoval me sender hwell removal hremoved
      exact ⟨hkeys.trans hhead, hbefore, hadded.trans hsame⟩

theorem keyOf_mergeEntries {store : PeerStore} (hwell : store.WellFormed)
    (me sender : DeviceId) (roster : Roster) {id : DeviceId}
    (hid : id ∉ changedIds (store.mergeEntries me sender roster).change) :
    (store.mergeEntries me sender roster).store.keyOf id = store.keyOf id := by
  obtain ⟨hremoved, hadded⟩ := not_or.mp (mt List.mem_append.mpr hid)
  unfold mergeEntries at hremoved hadded ⊢
  obtain ⟨hkeys, _, hsame⟩ := keyOf_mergeRemovals me sender _
    (wellFormed_mergeMembers me sender _ hwell) hremoved
  rw [hsame] at hadded
  exact hkeys.trans (keyOf_mergeMembers me sender _ hwell hadded).1

/-! ## Which removals are remembered -/

/-- The remembered removals and their times. -/
def removals (store : PeerStore) : List (DeviceId × ℕ) :=
  store.removed.map fun removed => (removed.deviceId, removed.removedAtMs)

/-- The removals that a roster reports. -/
def reported (roster : Roster) : List (DeviceId × ℕ) :=
  roster.removed.map fun removal =>
    (DeviceId.fromBytes removal.peer.deviceId, removal.removedAtMs)

/-- A device reports the removals it remembers. -/
theorem reported_roster (store : PeerStore) :
    reported store.roster = store.removals := by
  unfold reported roster removals
  rw [List.map_map]
  rfl

theorem removals_seen (store : PeerStore) (id : DeviceId) (name : String)
    (address : Option SocketAddr) (saved : Except LanError Unit) :
    (store.seen id name address saved).2.removals = store.removals := by
  unfold seen
  split
  · rfl
  dsimp only
  split
  · rfl
  · rfl

theorem removals_markNotified (store : PeerStore) (id : DeviceId)
    (saved : Except LanError Unit) :
    (store.markNotified id saved).2.removals = store.removals := by
  unfold markNotified
  split
  · rfl
  · refine Table.map_replaceF ?_ _
    intro removed other hother
    obtain ⟨_, ⟨⟩⟩ := Option.ite_none_right_eq_some.mp hother
    rfl

theorem removals_put (store : PeerStore) (peer : Peer) :
    (store.put peer).removals ⊆ store.removals :=
  List.map_subset _ (List.filter_subset_self _)

theorem removals_rememberRemoval (store : PeerStore) (removed : Removed) :
    (store.rememberRemoval removed).removals ⊆
      (removed.deviceId, removed.removedAtMs) :: store.removals := by
  intro entry hmem
  obtain ⟨other, hother, rfl⟩ := List.mem_map.mp hmem
  rcases mem_rememberRemoval hother with rfl | hold
  · exact List.mem_cons_self
  · exact List.mem_cons_of_mem _ (List.mem_map_of_mem hold)

/-- Only a listed device is remembered as removed. -/
theorem removals_remove (store : PeerStore) (id : DeviceId) (removedAtMs : ℕ)
    (saved : Except LanError Unit) :
    (store.remove id removedAtMs saved).2.removals ⊆
      if store.get id = none then store.removals
      else (id, removedAtMs) :: store.removals := by
  unfold remove
  split
  · next hget => simp [hget]
  · next peer hget =>
    obtain rfl := (Table.mem_of_lookup hget).2
    rw [if_neg (by simp [hget])]
    exact removals_rememberRemoval _ ⟨peer, removedAtMs, false⟩

theorem removals_mergeMember (me sender : DeviceId) {merging : Merging}
    (hwell : merging.store.WellFormed) (entry : RosterPeer) :
    (mergeMember me sender merging entry).store.removals ⊆
      merging.store.removals := by
  have houtcome := mergeMember_outcome me sender hwell entry
  generalize mergeMember me sender merging entry = after at houtcome ⊢
  cases houtcome with
  | skipped _ => exact List.Subset.refl _
  | outdated _ _ _ _ _ => exact List.Subset.refl _
  | known _ _ _ _ => exact List.Subset.refl _
  | joined peer _ _ _ => exact removals_put _ peer

theorem removals_mergeRemoval (me sender : DeviceId) {merging : Merging}
    (hwell : merging.store.WellFormed) (removal : RosterRemoval) :
    (mergeRemoval me sender merging removal).store.removals ⊆
      (DeviceId.fromBytes removal.peer.deviceId, removal.removedAtMs) ::
        merging.store.removals := by
  have houtcome := mergeRemoval_outcome me sender hwell removal
  generalize mergeRemoval me sender merging removal = after at houtcome ⊢
  cases houtcome with
  | skipped _ => exact List.subset_cons_self _ _
  | oldNews _ _ _ _ _ => exact List.subset_cons_self _ _
  | dropped peer known habout hget _ =>
      rw [← aboutOthers_deviceId habout, ← (Table.mem_of_lookup hget).2]
      exact removals_rememberRemoval _ ⟨known, removal.removedAtMs, false⟩
  | alreadyHeard _ _ _ _ _ _ => exact List.subset_cons_self _ _
  | learned peer habout _ _ =>
      rw [← aboutOthers_deviceId habout]
      exact removals_rememberRemoval _ ⟨peer, removal.removedAtMs, false⟩

theorem removals_mergeMembers (me sender : DeviceId)
    (members : List RosterPeer) {merging : Merging}
    (hwell : merging.store.WellFormed) :
    (members.foldl (mergeMember me sender) merging).store.removals ⊆
      merging.store.removals := by
  apply mergeMembers_keeps me sender
    (motive := fun store => store.removals ⊆ merging.store.removals) hwell
    (List.Subset.refl _)
  intro merging entry _ hwell hsubset
  exact List.Subset.trans (removals_mergeMember me sender hwell entry) hsubset

theorem removals_mergeRemovals (me sender : DeviceId)
    (removals : List RosterRemoval) {merging : Merging}
    (hwell : merging.store.WellFormed) {known : List (DeviceId × ℕ)}
    (hstore : merging.store.removals ⊆ known)
    (hreported : ∀ removal ∈ removals,
      (DeviceId.fromBytes removal.peer.deviceId, removal.removedAtMs) ∈ known) :
    (removals.foldl (mergeRemoval me sender) merging).store.removals ⊆
      known := by
  apply mergeRemovals_keeps me sender
    (motive := fun store => store.removals ⊆ known) hwell hstore
  intro merging removal hremoval hwell hstore
  exact List.Subset.trans (removals_mergeRemoval me sender hwell removal)
    (List.cons_subset.mpr ⟨hreported removal hremoval, hstore⟩)

/-- A merge remembers no removal that the store and the roster do not have. -/
theorem removals_mergeEntries {store : PeerStore} (hwell : store.WellFormed)
    (me sender : DeviceId) (roster : Roster) :
    (store.mergeEntries me sender roster).store.removals ⊆
      store.removals ++ reported roster := by
  let merging : Merging :=
    { store, change := RosterChange.none, dirty := false }
  have hmerging : merging.store.WellFormed := hwell
  refine removals_mergeRemovals me sender _
    (wellFormed_mergeMembers me sender _ hmerging) ?_ fun removal hmem => ?_
  · exact List.Subset.trans (removals_mergeMembers me sender _ hmerging)
      (List.subset_append_left _ _)
  · exact List.mem_append_right _
      (List.mem_map_of_mem (List.mem_of_mem_take hmem))

end PeerStore

end Cled.Lan
