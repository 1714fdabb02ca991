import Cled.Lan.AnyOrder

/-!
# Removals hold

A remembered removal keeps older joins of the device out.  A later join replaces
it, and from then on the join itself keeps the older ones out: what is known of
the device only moves forward in time.  Only two things make a store know
nothing of it again: too many other removals, and clearing the store while the
device is a peer.
-/

namespace Cled.Lan

open Cled.Core Cled.Sync

namespace PeerStore

instance (store : PeerStore) (id : DeviceId) : Decidable (store.HasRoom id) :=
  inferInstanceAs (Decidable (_ < _))

/-- `id` is listed only with a join after this time, and remembered as removed
only at this time or later. -/
def KeepsOut (store : PeerStore) (id : DeviceId) (removedAtMs : ℕ) : Prop :=
  (∀ peer ∈ store.peers, peer.deviceId = id → removedAtMs < peer.pairedAtMs) ∧
    ∀ removed ∈ store.removed, removed.deviceId = id →
      removedAtMs ≤ removed.removedAtMs

instance (store : PeerStore) (id : DeviceId) (removedAtMs : ℕ) :
    Decidable (store.KeepsOut id removedAtMs) :=
  inferInstanceAs (Decidable ((∀ peer ∈ store.peers, _ → _) ∧
    ∀ removed ∈ store.removed, _ → _))

/-- A merge once the members and these removals are merged. -/
def mergingWith (store : PeerStore) (me sender : DeviceId) (roster : Roster)
    (removals : List RosterRemoval) : Merging :=
  removals.foldl (mergeRemoval me sender)
    ((roster.members.take maxRosterEntries).foldl (mergeMember me sender)
      { store, change := RosterChange.none, dirty := false })

/-- During the change fewer than `maxRemoved` devices other than `id` are
remembered as removed. -/
def HasRoomDuring (id : DeviceId) (store : PeerStore) : Change → Prop
  | .merge me sender roster _ =>
      ∀ removals ∈ (roster.removed.take maxRosterEntries).inits,
        (store.mergingWith me sender roster removals).store.HasRoom id
  | .upsert peer saved => (store.apply (.upsert peer saved)).HasRoom id
  | .seen device name address saved =>
      (store.apply (.seen device name address saved)).HasRoom id
  | .remove device removedAtMs saved =>
      (store.apply (.remove device removedAtMs saved)).HasRoom id
  | .clear saved => (store.apply (.clear saved)).HasRoom id
  | .markNotified device saved =>
      (store.apply (.markNotified device saved)).HasRoom id

/-- The user neither pairs `id` nor removes it. -/
def LeavesAlone (id : DeviceId) : Change → Prop
  | .upsert peer _ => peer.deviceId ≠ id
  | .remove device _ _ => device ≠ id
  | _ => True

/-- The store is not cleared while `id` is a peer. -/
def ForgetsNot (id : DeviceId) (store : PeerStore) : Change → Prop
  | .clear _ => store.get id = none
  | _ => True

instance (id : DeviceId) (store : PeerStore) (change : Change) :
    Decidable (HasRoomDuring id store change) := by
  apply change.casesOn (motive := fun change =>
    Decidable (HasRoomDuring id store change))
  all_goals
    intros
    dsimp only [HasRoomDuring]
    infer_instance

instance (id : DeviceId) (change : Change) :
    Decidable (LeavesAlone id change) := by
  apply change.casesOn (motive := fun change =>
    Decidable (LeavesAlone id change))
  all_goals
    intros
    dsimp only [LeavesAlone]
    infer_instance

instance (id : DeviceId) (store : PeerStore) (change : Change) :
    Decidable (ForgetsNot id store change) := by
  apply change.casesOn (motive := fun change =>
    Decidable (ForgetsNot id store change))
  all_goals
    intros
    dsimp only [ForgetsNot]
    infer_instance

/-! ## Remembering one more removal -/

/-- A removal is not forgotten as long as there is room for it. -/
theorem removal_rememberRemoval_of_room {store : PeerStore}
    (hunique : Table.UniqueKeys Removed.deviceId store.removed)
    {removed : Removed} {id : DeviceId} (hne : removed.deviceId ≠ id)
    (hroom : (store.rememberRemoval removed).HasRoom id) :
    (store.rememberRemoval removed).removal id = store.removal id := by
  let kept := Table.without Removed.deviceId store.removed removed.deviceId ++
    [removed]
  have hnew : Table.lookup Removed.deviceId
      (Table.without Removed.deviceId store.removed removed.deviceId)
        removed.deviceId = none := by
    rw [Table.lookup_without, if_pos rfl]
  have hkeptUnique : Table.UniqueKeys Removed.deviceId kept :=
    (hunique.without _).concat hnew
  have hkept : Table.lookup Removed.deviceId kept id = store.removal id := by
    rw [Table.lookup_concat hnew, Table.lookup_without, if_neg hne.symm,
      if_neg hne.symm]
    rfl
  rw [← hkept]
  by_cases hfull : maxRemoved < kept.length
  · have hstored : (store.rememberRemoval removed).removed = kept.tail :=
      if_pos hfull
    rw [removal, hstored]
    refine Table.lookup_tail fun first hfirst hid => ?_
    -- Forgetting `id` would leave only other devices, and too many of them.
    obtain ⟨rest, hrest⟩ := List.head?_eq_some_iff.mp hfirst
    rw [HasRoom, hstored, hrest, List.tail_cons] at hroom
    rw [hrest] at hkeptUnique hfull
    have hothers : id ∉ rest.map Removed.deviceId :=
      hid ▸ (List.nodup_cons.mp hkeptUnique).1
    rw [Table.without_of_lookup_eq_none
      (Table.lookup_eq_none_iff_notMem.mpr hothers)] at hroom
    rw [List.length_cons] at hfull
    omega
  · have hstored : (store.rememberRemoval removed).removed = kept :=
      if_neg hfull
    rw [removal, hstored]

/-! ## What is known of a device only moves forward -/

section Forward

variable {id : DeviceId} {store : PeerStore}

theorem rank_le_drop (hwell : store.WellFormed) {known : Peer}
    (hget : store.get known.deviceId = some known) {removedAtMs : ℕ}
    (htime : known.deviceId = id → known.pairedAtMs ≤ removedAtMs)
    (hroom : (store.drop known removedAtMs).HasRoom id) :
    (store.standing id).rank ≤
      ((store.drop known removedAtMs).standing id).rank := by
  by_cases hid : known.deviceId = id
  · have hle := htime hid
    subst hid
    rw [standing_drop hwell, standing_of_get hget, rank_memberOf,
      Standing.rank_removed]
    omega
  · refine (congrArg Standing.rank (standing_congr ?_ ?_)).le
    · rw [get_drop hwell, if_neg (Ne.symm hid)]
    · let removed : Removed := ⟨known, removedAtMs, false⟩
      have hother : removed.deviceId ≠ id := hid
      exact (removal_rememberRemoval_of_room hwell.removed hother hroom).symm

theorem rank_le_mergeRemoval (me sender : DeviceId) {merging : Merging}
    (hwell : merging.store.WellFormed) (removal : RosterRemoval)
    (hroom : (mergeRemoval me sender merging removal).store.HasRoom id) :
    (merging.store.standing id).rank ≤
      ((mergeRemoval me sender merging removal).store.standing id).rank := by
  have hwellAfter := wellFormed_mergeRemoval me sender hwell removal
  have houtcome := mergeRemoval_outcome me sender hwell removal
  generalize mergeRemoval me sender merging removal = after
    at houtcome hroom hwellAfter ⊢
  cases houtcome with
  | skipped _ => exact le_rfl
  | oldNews _ _ _ _ _ => exact le_rfl
  | dropped peer known habout hget hle =>
      have hknown := (Table.mem_of_lookup hget).2
      rw [← hknown] at hget
      exact rank_le_drop hwell hget (fun _ => hle) hroom
  | alreadyHeard _ _ _ _ _ _ => exact le_rfl
  | learned peer habout hget hremoval =>
      let learned : Removed := ⟨peer, removal.removedAtMs, false⟩
      by_cases hid : peer.deviceId = id
      · subst hid
        have hkept : (merging.store.rememberRemoval learned).removal
            peer.deviceId = some learned :=
          Table.lookup_of_mem hwellAfter.removed
            (mem_rememberRemoval_self _ learned)
        have hgone : (merging.store.rememberRemoval learned).get
            peer.deviceId = none := hget
        rw [standing_of_removal hgone hkept, Standing.rank_removed]
        cases hrow : merging.store.removal peer.deviceId with
        | none =>
            rw [standing_of_none hget hrow]
            exact Nat.zero_le _
        | some removed =>
            have hlt : removed.removedAtMs < learned.removedAtMs :=
              hremoval removed hrow
            rw [standing_of_removal hget hrow, Standing.rank_removed]
            omega
      · have hother : learned.deviceId ≠ id := hid
        have hkept := removal_rememberRemoval_of_room hwell.removed hother hroom
        have hsame : (merging.store.rememberRemoval learned).standing id =
            merging.store.standing id := standing_congr rfl hkept
        exact hsame.symm ▸ le_rfl

theorem mergingWith_concat (me sender : DeviceId) (roster : Roster)
    (front : List RosterRemoval) (removal : RosterRemoval) :
    store.mergingWith me sender roster (front ++ [removal]) =
      mergeRemoval me sender (store.mergingWith me sender roster front)
        removal := by
  rw [mergingWith, List.foldl_concat]
  rfl

theorem rank_le_mergingWith (hwell : store.WellFormed) (me sender : DeviceId)
    (roster : Roster) (removals : List RosterRemoval)
    (hroom : ∀ front ∈ removals.inits,
      (store.mergingWith me sender roster front).store.HasRoom id) :
    (store.standing id).rank ≤
      ((store.mergingWith me sender roster removals).store.standing id).rank := by
  induction removals using List.reverseRecOn with
  | nil =>
      rw [mergingWith, List.foldl_nil,
        standing_mergeMembers me sender id _ hwell]
      exact Standing.rank_le_absorbAll _ _
  | append_singleton front removal ih =>
      have hfront := ih fun prior hprior => hroom prior
        ((List.mem_inits _ _).mpr
          (((List.mem_inits _ _).mp hprior).trans (List.prefix_append _ _)))
      have hlast := hroom (front ++ [removal])
        ((List.mem_inits _ _).mpr (List.prefix_refl _))
      have hwellFront :
          (store.mergingWith me sender roster front).store.WellFormed :=
        wellFormed_mergeRemovals me sender _
          (wellFormed_mergeMembers me sender _ hwell)
      rw [mergingWith_concat] at hlast ⊢
      exact hfront.trans
        (rank_le_mergeRemoval me sender hwellFront removal hlast)

/-- A standing depends on keys and times alone. -/
theorem standing_eq (store : PeerStore) (id : DeviceId) :
    store.standing id =
      ((store.get id).map memberOf).getD
        (((Table.lookup Prod.fst store.removals id).map fun removal =>
          Standing.removed removal.2).getD .unknown) := by
  have hremoval : Table.lookup Prod.fst store.removals id =
      (store.removal id).map fun removed =>
        (removed.deviceId, removed.removedAtMs) :=
    List.find?_map
  rw [hremoval, standing]
  cases store.get id with
  | some peer => rfl
  | none =>
      cases store.removal id with
      | some removed => rfl
      | none => rfl

theorem standing_seen (device : DeviceId) (name : String)
    (address : Option SocketAddr) (saved : Except LanError Unit) :
    (store.seen device name address saved).2.standing id =
      store.standing id := by
  have hget : ((store.seen device name address saved).2.get id).map memberOf =
      (store.get id).map memberOf :=
    store.get_seen_map device id name address saved fun _ _ _ => rfl
  rw [standing_eq, standing_eq, hget, removals_seen]

theorem standing_markNotified (device : DeviceId)
    (saved : Except LanError Unit) :
    (store.markNotified device saved).2.standing id = store.standing id := by
  have hget : (store.markNotified device saved).2.get id = store.get id := by
    unfold markNotified
    split
    · rfl
    · rfl
  rw [standing_eq, standing_eq, hget, removals_markNotified]

theorem rank_le_apply (hwell : store.WellFormed) {change : Change}
    (hroom : HasRoomDuring id store change) (halone : LeavesAlone id change)
    (hforgets : ForgetsNot id store change) :
    (store.standing id).rank ≤ ((store.apply change).standing id).rank := by
  cases change with
  | upsert peer saved =>
      have hne : id ≠ peer.deviceId := Ne.symm halone
      have hsame : (store.put peer).standing id = store.standing id := by
        refine standing_congr ?_ ?_
        · rw [get_put, if_neg hne]
        · rw [removal_put, if_neg hne]
      exact hsame.symm ▸ le_rfl
  | seen device name address saved =>
      exact (congrArg Standing.rank (standing_seen device name address _)).ge
  | remove device removedAtMs saved =>
      have hne : device ≠ id := halone
      dsimp only [HasRoomDuring, apply] at hroom ⊢
      unfold remove at hroom ⊢
      split at hroom
      · exact le_rfl
      · next known hget =>
        have hknown := (Table.mem_of_lookup hget).2
        rw [← hknown] at hget hne
        exact rank_le_drop hwell hget (fun hid => absurd hid hne) hroom
  | clear saved =>
      have hget : store.get id = none := hforgets
      have hsame : PeerStore.standing { store with peers := [] } id =
          store.standing id := standing_congr hget.symm rfl
      exact hsame.symm ▸ le_rfl
  | markNotified device saved =>
      exact (congrArg Standing.rank (standing_markNotified device _)).ge
  | merge me sender roster saved =>
      have hrank := rank_le_mergingWith hwell me sender roster
        (roster.removed.take maxRosterEntries) hroom
      rwa [apply, merge_store]

end Forward

/-! ## Runs -/

theorem standing_of_mem_removed {store : PeerStore} (hwell : store.WellFormed)
    {removed : Removed} (hmem : removed ∈ store.removed) :
    store.standing removed.deviceId = .removed removed.removedAtMs := by
  have hremoval : store.removal removed.deviceId = some removed :=
    Table.lookup_of_mem hwell.removed hmem
  have hget := (hwell.apart removed.deviceId).resolve_right (by simp [hremoval])
  exact standing_of_removal hget hremoval

theorem keepsOut_of_rank_le {store : PeerStore} (hwell : store.WellFormed)
    {id : DeviceId} {removedAtMs : ℕ}
    (hrank : 2 * removedAtMs + 2 ≤ (store.standing id).rank) :
    store.KeepsOut id removedAtMs := by
  constructor
  · rintro peer hpeer rfl
    have hget : store.get peer.deviceId = some peer :=
      Table.lookup_of_mem hwell.peers hpeer
    rw [standing_of_get hget, rank_memberOf] at hrank
    omega
  · rintro removed hremoved rfl
    rw [standing_of_mem_removed hwell hremoved, Standing.rank_removed] at hrank
    omega

/-- A step that removals survive: the user leaves the device alone, its removal
is not pushed out, and the store is not cleared while the device is a peer. -/
def Keeps (id : DeviceId) (store : PeerStore) (change : Change) : Prop :=
  HasRoomDuring id store change ∧ LeavesAlone id change ∧
    ForgetsNot id store change

instance (id : DeviceId) (store : PeerStore) (change : Change) :
    Decidable (Keeps id store change) :=
  inferInstanceAs (Decidable (_ ∧ _ ∧ _))

/-- After a removal, the device is listed only with later joins and remembered
only with removals at least as late, whatever rosters are merged. -/
theorem keepsOut_of_run {store final : PeerStore} (hreach : store.Reachable)
    {removed : Removed} (hmem : removed ∈ store.removed)
    {changes : List Change}
    (hkeeps : machine.Along (Keeps removed.deviceId) store changes)
    (hrun : machine.run store changes = some final) :
    final.KeepsOut removed.deviceId removed.removedAtMs := by
  let Inv : PeerStore → Prop := fun store => store.WellFormed ∧
    2 * removed.removedAtMs + 2 ≤ (store.standing removed.deviceId).rank
  have hstart : Inv store := by
    refine ⟨hreach.wellFormed, ?_⟩
    rw [standing_of_mem_removed hreach.wellFormed hmem, Standing.rank_removed]
  have hfinal : Inv final := by
    refine Machine.run_of_invariant ?_ hstart hkeeps hrun
    rintro state change next ⟨hwell, hrank⟩ ⟨hroom, halone, hforgets⟩ hstep
    obtain rfl := Option.some.inj hstep
    exact ⟨wellFormed_apply hwell change,
      hrank.trans (rank_le_apply hwell hroom halone hforgets)⟩
  exact keepsOut_of_rank_le hfinal.1 hfinal.2

section Cleared

/-- A roster that lists the laptop as a member. -/
def listing (pairedAtMs : ℕ) : Roster := (paired pairedAtMs).roster

/-- The removal that a device keeps of the laptop. -/
def removedLaptop (pairedAtMs removedAtMs : ℕ) : Removed :=
  ⟨laptop pairedAtMs, removedAtMs, false⟩

/-- The laptop joins again elsewhere, is removed again, and others tell of older
joins. -/
def heardAgain : List Change :=
  [.merge ⟨1⟩ ⟨2⟩ (listing 12) (.ok ()), .merge ⟨1⟩ ⟨2⟩ (listing 20) (.ok ()),
    .merge ⟨1⟩ ⟨3⟩ (unpaired 10 25).roster (.ok ()),
    .merge ⟨1⟩ ⟨2⟩ (listing 20) (.ok ()), .clear (.ok ())]

theorem keepsOut_heardAgain :
    ∃ final, machine.run (unpaired 10 15) heardAgain = some final ∧
      final.KeepsOut ⟨5⟩ 15 :=
  have hmem : removedLaptop 10 15 ∈ (unpaired 10 15).removed := by decide
  have hkeeps : machine.Along (Keeps ⟨5⟩) (unpaired 10 15) heardAgain := by
    decide
  ⟨_, rfl, keepsOut_of_run (unpaired_reachable 10 15) hmem hkeeps rfl⟩

/-- The laptop joins again at 20, this device leaves its group, and a roster
tells of a join at 12. -/
def clearedBetween : List Change :=
  [.merge ⟨1⟩ ⟨2⟩ (listing 20) (.ok ()), .clear (.ok ()),
    .merge ⟨1⟩ ⟨2⟩ (listing 12) (.ok ())]

/-- Clearing the store while the laptop is a peer forgets its removal as well. -/
theorem not_keepsOut_clearedBetween :
    (unpaired 10 15).Reachable ∧
      removedLaptop 10 15 ∈ (unpaired 10 15).removed ∧
      machine.Along (fun store change =>
        HasRoomDuring ⟨5⟩ store change ∧ LeavesAlone ⟨5⟩ change)
        (unpaired 10 15) clearedBetween ∧
      ∃ final, machine.run (unpaired 10 15) clearedBetween = some final ∧
        ¬ final.KeepsOut ⟨5⟩ 15 :=
  ⟨unpaired_reachable 10 15, by decide, by decide, paired 12, by decide,
    by decide⟩

end Cleared

end PeerStore

end Cled.Lan
