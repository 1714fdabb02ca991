import Cled.Lan.AnyOrder

/-!
# A local removal or pairing against later rosters

The user removes a device here, or pairs it again here.  What the device knew
before must not undo that when it comes back in a roster.  Joins and removals
are compared by time alone, so the local clock decides: it has to be at least at
the stored join for a removal to last, and past the stored removal for a pairing
to last.
-/

namespace Cled.Lan

open Cled.Core Cled.Sync

namespace PeerStore

/-- The roster lists `id` only as a member, with this key and time. -/
def ListsOnly (roster : Roster) (id : DeviceId) (key : PublicKey)
    (pairedAtMs : ℕ) : Prop :=
  (∀ entry ∈ roster.members, DeviceId.fromBytes entry.deviceId = id →
      entry.publicKey = key ∧ entry.pairedAtMs = pairedAtMs) ∧
    ∀ removal ∈ roster.removed,
      DeviceId.fromBytes removal.peer.deviceId ≠ id

/-- The roster lists no removal of `id` later than this. -/
def RemovesBy (roster : Roster) (id : DeviceId) (removedAtMs : ℕ) : Prop :=
  ∀ removal ∈ roster.removed,
    DeviceId.fromBytes removal.peer.deviceId = id →
      removal.removedAtMs ≤ removedAtMs

instance (roster : Roster) (id : DeviceId) (key : PublicKey)
    (pairedAtMs : ℕ) : Decidable (ListsOnly roster id key pairedAtMs) :=
  inferInstanceAs (Decidable ((∀ entry ∈ roster.members, _ → _ ∧ _) ∧
    ∀ removal ∈ roster.removed, _))

instance (roster : Roster) (id : DeviceId) (removedAtMs : ℕ) :
    Decidable (RemovesBy roster id removedAtMs) :=
  inferInstanceAs (Decidable (∀ removal ∈ roster.removed, _ → _))

/-- `id` is no member, and its removal is remembered unless the roster brings
enough removals to push it out. -/
def LeavesRemoved (merged : PeerStore) (roster : Roster) (id : DeviceId) :
    Prop :=
  merged.get id = none ∧
    (roster.removed.length < maxRemoved → merged.removal id ≠ none)

/-! ## How long a removal is remembered -/

/-- At most `later` removals were remembered after that of `id`. -/
def RemembersSince (store : PeerStore) (id : DeviceId) (later : ℕ) : Prop :=
  ∃ front row back, store.removed = front ++ row :: back ∧
    row.deviceId = id ∧ back.length ≤ later

theorem RemembersSince.removal_ne_none {store : PeerStore} {id : DeviceId}
    {later : ℕ} (hsince : store.RemembersSince id later) :
    store.removal id ≠ none := by
  obtain ⟨front, row, back, hremoved, rfl, _⟩ := hsince
  intro hnone
  refine Table.lookup_eq_none_iff.mp hnone row ?_ rfl
  rw [hremoved]
  exact List.mem_append_right _ List.mem_cons_self

theorem RemembersSince.without {store : PeerStore} {id other : DeviceId}
    {later : ℕ} (hsince : store.RemembersSince id later) (hne : id ≠ other) :
    ∃ front row back,
      Table.without Removed.deviceId store.removed other =
        front ++ row :: back ∧ row.deviceId = id ∧ back.length ≤ later := by
  obtain ⟨front, row, back, hremoved, rfl, hlength⟩ := hsince
  refine ⟨Table.without Removed.deviceId front other, row,
    Table.without Removed.deviceId back other, ?_, rfl,
    (List.length_filter_le _ _).trans hlength⟩
  rw [hremoved, Table.without, List.filter_append,
    List.filter_cons_of_pos (by simpa using hne)]
  rfl

/-- Remembering the removal of another device makes it one more. -/
theorem RemembersSince.rememberRemoval {store : PeerStore} {id : DeviceId}
    {later : ℕ} (hsince : store.RemembersSince id later) {removed : Removed}
    (hne : id ≠ removed.deviceId) (hroom : later + 1 < maxRemoved) :
    (store.rememberRemoval removed).RemembersSince id (later + 1) := by
  obtain ⟨front, row, back, hwithout, hid, hlength⟩ := hsince.without hne
  unfold PeerStore.rememberRemoval
  dsimp only
  rw [hwithout, List.append_assoc, List.cons_append]
  split
  · next hfull =>
    -- What is forgotten is older than the removal of `id`.
    cases front with
    | nil =>
        simp only [List.nil_append, List.length_cons, List.length_append,
          List.length_nil] at hfull
        omega
    | cons first front =>
        exact ⟨front, row, back ++ [removed], rfl, hid, by simpa using hlength⟩
  · exact ⟨front, row, back ++ [removed], rfl, hid, by simpa using hlength⟩

theorem remembersSince_self (store : PeerStore) (removed : Removed) :
    (store.rememberRemoval removed).RemembersSince removed.deviceId 0 := by
  obtain ⟨kept, hremoved, _⟩ := store.removed_rememberRemoval removed
  exact ⟨kept, removed, [], hremoved, rfl, le_rfl⟩

theorem remembersSince_mergeMember {me sender id : DeviceId} {later : ℕ}
    {merging : Merging} (hwell : merging.store.WellFormed)
    (hsince : merging.store.RemembersSince id later) (entry : RosterPeer)
    (hafter : (mergeMember me sender merging entry).store.get id = none) :
    (mergeMember me sender merging entry).store.RemembersSince id later := by
  have houtcome := mergeMember_outcome me sender hwell entry
  generalize mergeMember me sender merging entry = after at houtcome hafter ⊢
  cases houtcome with
  | skipped _ => exact hsince
  | outdated _ _ _ _ _ => exact hsince
  | known _ _ _ _ => exact hsince
  | joined peer _ _ _ =>
      refine hsince.without ?_
      rintro rfl
      simp at hafter

theorem remembersSince_mergeRemoval {me sender id : DeviceId} {later : ℕ}
    {merging : Merging} (hwell : merging.store.WellFormed)
    (hsince : merging.store.RemembersSince id later) (removal : RosterRemoval)
    (hother : DeviceId.fromBytes removal.peer.deviceId ≠ id)
    (hroom : later + 1 < maxRemoved) :
    (mergeRemoval me sender merging removal).store.RemembersSince id
      (later + 1) := by
  have hkeep : merging.store.RemembersSince id (later + 1) := by
    obtain ⟨front, row, back, hremoved, hid, hlength⟩ := hsince
    exact ⟨front, row, back, hremoved, hid, hlength.trans (Nat.le_succ _)⟩
  have houtcome := mergeRemoval_outcome me sender hwell removal
  generalize mergeRemoval me sender merging removal = after at houtcome ⊢
  cases houtcome with
  | skipped _ => exact hkeep
  | oldNews _ _ _ _ _ => exact hkeep
  | dropped peer known habout hget _ =>
      have hknown := (Table.mem_of_lookup hget).2
      refine RemembersSince.rememberRemoval hsince ?_ hroom
      change id ≠ known.deviceId
      rw [hknown, aboutOthers_deviceId habout]
      exact hother.symm
  | alreadyHeard _ _ _ _ _ _ => exact hkeep
  | learned peer habout _ _ =>
      refine hsince.rememberRemoval ?_ hroom
      change id ≠ peer.deviceId
      rw [aboutOthers_deviceId habout]
      exact hother.symm

theorem remembersSince_mergeMembers {me sender id : DeviceId}
    (members : List RosterPeer) {merging : Merging} {later : ℕ}
    (hwell : merging.store.WellFormed)
    (hsince : merging.store.RemembersSince id later)
    {removedAtMs : ℕ}
    (hstanding : merging.store.standing id = .removed removedAtMs)
    (hold : ∀ entry ∈ members,
      ¬ (heardMember me sender id entry).Replaces (.removed removedAtMs)) :
    (members.foldl (mergeMember me sender) merging).store.RemembersSince id
      later := by
  apply And.right (a := (members.foldl (mergeMember me sender)
    merging).store.standing id = .removed removedAtMs)
  apply mergeMembers_keeps me sender (motive := fun store =>
    store.standing id = .removed removedAtMs ∧ store.RemembersSince id later)
    hwell ⟨hstanding, hsince⟩
  rintro merging entry hentry hwell ⟨hstanding, hsince⟩
  have hnext := standing_mergeMember me sender id hwell entry
  rw [hstanding, Standing.absorb_of_not_replaces (hold entry hentry)] at hnext
  exact ⟨hnext, remembersSince_mergeMember hwell hsince entry
    (get_of_standing_removed hnext)⟩

theorem remembersSince_mergeRemovals {me sender id : DeviceId}
    (removals : List RosterRemoval) {merging : Merging} {later : ℕ}
    (hwell : merging.store.WellFormed)
    (hsince : merging.store.RemembersSince id later)
    (hothers : ∀ removal ∈ removals,
      DeviceId.fromBytes removal.peer.deviceId ≠ id)
    (hroom : later + removals.length < maxRemoved) :
    (removals.foldl (mergeRemoval me sender) merging).store.RemembersSince id
      (later + removals.length) := by
  induction removals generalizing merging later with
  | nil => exact hsince
  | cons removal removals ih =>
      rw [List.length_cons] at hroom ⊢
      have hnext : (mergeRemoval me sender merging
          removal).store.RemembersSince id (later + 1) :=
        remembersSince_mergeRemoval hwell hsince removal
          (hothers removal List.mem_cons_self) (by omega)
      have hrest := ih (wellFormed_mergeRemoval me sender hwell removal) hnext
        (fun other hother => hothers other (List.mem_cons_of_mem _ hother))
        (by omega)
      rwa [Nat.add_assoc, Nat.add_comm 1] at hrest

/-! ## A removal here -/

theorem heardMember_cases (me sender id : DeviceId) (entry : RosterPeer) :
    heardMember me sender id entry = .unknown ∨
      (DeviceId.fromBytes entry.deviceId = id ∧ entry.publicKey ≠ 0 ∧
        heardMember me sender id entry =
          .member entry.publicKey entry.pairedAtMs) := by
  unfold heardMember heard
  split
  · next peer habout =>
    split
    · next hid =>
      refine Or.inr ⟨(aboutOthers_deviceId habout).symm.trans hid, ?_⟩
      obtain ⟨hfrom, _⟩ := Option.filter_eq_some_iff.mp habout
      unfold fromRoster at hfrom
      split at hfrom
      · contradiction
      · next hkey =>
        obtain rfl := Option.some.inj hfrom
        exact ⟨hkey, rfl⟩
    · exact Or.inl rfl
  · exact Or.inl rfl

theorem get_mergeRemovals_eq_none (me sender : DeviceId) {id : DeviceId}
    (removals : List RosterRemoval) {merging : Merging}
    (hwell : merging.store.WellFormed)
    (hnone : merging.store.get id = none) :
    (removals.foldl (mergeRemoval me sender) merging).store.get id = none := by
  apply mergeRemovals_keeps me sender
    (motive := fun store => store.get id = none) hwell hnone
  intro merging removal _ hwell hnone
  exact get_mergeRemoval_eq_none me sender hwell removal hnone

/-- A removal that is not older than the join stays, whatever else the roster
lists. -/
theorem leavesRemoved_of_le {store : PeerStore} (hwell : store.WellFormed)
    (me sender : DeviceId) {peer : Peer} {nowMs : ℕ}
    (hclock : peer.pairedAtMs ≤ nowMs ∨ peer.publicKey = 0) (roster : Roster)
    (honly : ListsOnly roster peer.deviceId peer.publicKey peer.pairedAtMs) :
    ((store.drop peer nowMs).mergeEntries me sender roster).store.LeavesRemoved
      roster peer.deviceId := by
  have hdropped := hwell.drop peer nowMs
  have hget : (store.drop peer nowMs).get peer.deviceId = none := by
    rw [get_drop hwell, if_pos rfl]
  have hsince : (store.drop peer nowMs).RemembersSince peer.deviceId 0 :=
    remembersSince_self _ ⟨peer, nowMs, false⟩
  have hstanding : (store.drop peer nowMs).standing peer.deviceId =
      .removed nowMs := standing_drop hwell peer nowMs
  have hold : ∀ entry ∈ roster.members.take maxRosterEntries,
      ¬ (heardMember me sender peer.deviceId entry).Replaces
        (.removed nowMs) := by
    intro entry hentry
    rcases heardMember_cases me sender peer.deviceId entry with
      heq | ⟨hid, hkey, heq⟩
    · rw [heq]
      exact Standing.not_replaces_of_le (Nat.zero_le _)
    · obtain ⟨hentryKey, htime⟩ :=
        honly.1 entry (List.mem_of_mem_take hentry) hid
      have hle := hclock.resolve_right (hentryKey ▸ hkey)
      rw [heq, htime]
      refine Standing.not_replaces_of_le ?_
      rw [Standing.rank_member, Standing.rank_removed]
      omega
  unfold LeavesRemoved mergeEntries
  let merging : Merging := ⟨store.drop peer nowMs, RosterChange.none, false⟩
  have hmembers : (((roster.members.take maxRosterEntries).foldl
      (mergeMember me sender) merging).store.standing peer.deviceId) =
        .removed nowMs := by
    rw [standing_mergeMembers me sender peer.deviceId _ hdropped, hstanding]
    refine Standing.absorbAll_of_not_replaces fun report hreport => ?_
    obtain ⟨entry, hentry, rfl⟩ := List.mem_map.mp hreport
    exact hold entry hentry
  have hwellMembers : ((roster.members.take maxRosterEntries).foldl
      (mergeMember me sender) merging).store.WellFormed :=
    wellFormed_mergeMembers me sender _ hdropped
  refine ⟨get_mergeRemovals_eq_none me sender _ hwellMembers
    (get_of_standing_removed hmembers), fun hfew => ?_⟩
  have hsinceMembers : ((roster.members.take maxRosterEntries).foldl
      (mergeMember me sender) merging).store.RemembersSince
        peer.deviceId 0 :=
    remembersSince_mergeMembers _ hdropped hsince hstanding hold
  refine (remembersSince_mergeRemovals _ hwellMembers hsinceMembers ?_
    ?_).removal_ne_none
  · exact fun removal hremoval =>
      honly.2 removal (List.mem_of_mem_take hremoval)
  · have hlength := List.length_take_le maxRosterEntries roster.removed
    have hshort := List.length_take_le' maxRosterEntries roster.removed
    omega

theorem removal_lasts_iff {store : PeerStore} (hwell : store.WellFormed)
    {me sender id : DeviceId} (hme : id ≠ me) (hsender : id ≠ sender)
    {peer : Peer} (hget : store.get id = some peer) (nowMs : ℕ) :
    (∀ roster saved saved',
        ListsOnly roster id peer.publicKey peer.pairedAtMs →
          ((store.remove id nowMs saved).2.merge me sender roster
            saved').2.LeavesRemoved roster id) ↔
      peer.pairedAtMs ≤ nowMs ∨ peer.publicKey = 0 := by
  obtain rfl := (Table.mem_of_lookup hget).2
  have hremove : ∀ saved, (store.remove peer.deviceId nowMs saved).2 =
      store.drop peer nowMs := by
    intro saved
    rw [remove, hget]
  simp only [hremove, merge_store]
  constructor
  · intro hlasts
    by_contra hclock
    obtain ⟨hlt, hkey⟩ := not_or.mp hclock
    obtain ⟨hgone, _⟩ := hlasts ⟨[toRoster peer], []⟩ (.ok ()) (.ok ())
      ⟨by simp [toRoster], nofun⟩
    have hheard : heardMember me sender peer.deviceId (toRoster peer) =
        memberOf peer := by
      calc
        _ = if peer.publicKey = 0 ∨ peer.deviceId ≠ peer.deviceId then .unknown
            else memberOf peer := heard_toRoster hme hsender peer fun _ _ => rfl
        _ = memberOf peer := if_neg (not_or.mpr ⟨hkey, not_not.mpr rfl⟩)
    have hnews : (memberOf peer).Replaces (.removed nowMs) := by
      refine ⟨?_, Standing.not_removed_sameKey _ _⟩
      rw [Standing.rank_removed, rank_memberOf]
      omega
    let merging : Merging :=
      ⟨store.drop peer nowMs, RosterChange.none, false⟩
    have hdropped : merging.store.WellFormed := hwell.drop peer nowMs
    have hmerged :=
      standing_mergeMember me sender peer.deviceId hdropped (toRoster peer)
    rw [hheard, standing_drop hwell, Standing.absorb_of_replaces hnews]
      at hmerged
    obtain ⟨other, hother, _⟩ := get_of_standing_member hmerged
    exact absurd (hother.symm.trans hgone) nofun
  · intro hclock roster _ _ honly
    exact leavesRemoved_of_le hwell me sender hclock roster honly

/-! ## A pairing here -/

/-- The members of a roster leave a listed peer listed, with its time or a later
one. -/
theorem get_mergeMembers (me sender : DeviceId) {id : DeviceId}
    (members : List RosterPeer) {merging : Merging}
    (hwell : merging.store.WellFormed) {peer : Peer}
    (hget : merging.store.get id = some peer) :
    ∃ known, (members.foldl (mergeMember me sender) merging).store.get id =
        some known ∧ peer.pairedAtMs ≤ known.pairedAtMs := by
  have hstanding := standing_mergeMembers me sender id members hwell
  rw [standing_of_get hget] at hstanding
  have hrank := Standing.rank_le_absorbAll (memberOf peer)
    (members.map (heardMember me sender id))
  have hlisted : ∃ key joinedAt, (memberOf peer).absorbAll
      (members.map (heardMember me sender id)) = .member key joinedAt := by
    rcases Standing.absorbAll_mem (memberOf peer)
      (members.map (heardMember me sender id)) with heq | hmem
    · exact ⟨_, _, heq⟩
    · obtain ⟨entry, _, hentry⟩ := List.mem_map.mp hmem
      rcases heardMember_cases me sender id entry with heq | ⟨_, _, heq⟩
      · rw [← hentry, heq, rank_memberOf, Standing.rank_unknown] at hrank
        omega
      · exact ⟨_, _, hentry.symm.trans heq⟩
  obtain ⟨key, joinedAt, hlisted⟩ := hlisted
  rw [hlisted] at hstanding hrank
  obtain ⟨known, hknown, hmember⟩ := get_of_standing_member hstanding
  refine ⟨known, hknown, ?_⟩
  obtain ⟨_, rfl⟩ := Standing.member.inj hmember
  rw [rank_memberOf, Standing.rank_member] at hrank
  omega

/-- Removals that are all older leave a listed peer listed. -/
theorem get_mergeRemovals (me sender : DeviceId) {id : DeviceId}
    (removals : List RosterRemoval) {merging : Merging}
    (hwell : merging.store.WellFormed) {known : Peer}
    (hget : merging.store.get id = some known)
    (holder : ∀ removal ∈ removals,
      DeviceId.fromBytes removal.peer.deviceId = id →
        removal.removedAtMs < known.pairedAtMs) :
    (removals.foldl (mergeRemoval me sender) merging).store.get id =
      some known := by
  apply mergeRemovals_keeps me sender
    (motive := fun store => store.get id = some known) hwell hget
  intro merging removal hremoval hwell hget
  have hkept := get_mergeRemoval me sender id hwell removal
    fun other hother => by
      obtain rfl := Option.mem_unique hget hother
      unfold heardRemoval heard
      split
      · next peer habout =>
        split
        · next hid =>
          have hlt := holder removal hremoval
            ((aboutOthers_deviceId habout).symm.trans hid)
          rw [Standing.removed_replaces_iff, rank_memberOf]
          omega
        · exact Standing.not_replaces_of_le (Nat.zero_le _)
      · exact Standing.not_replaces_of_le (Nat.zero_le _)
  exact hkept.trans hget

/-- A removal as late as the join, with a key that can be one, takes the peer
off the list. -/
theorem get_mergeRemoval_dropped (me sender : DeviceId) {merging : Merging}
    (hwell : merging.store.WellFormed) (removal : RosterRemoval)
    {peer known : Peer}
    (habout : aboutOthers me sender removal.peer = some peer)
    (hget : merging.store.get peer.deviceId = some known)
    (hle : known.pairedAtMs ≤ removal.removedAtMs) :
    (mergeRemoval me sender merging removal).store.get peer.deviceId =
      none := by
  have hknown := (Table.mem_of_lookup hget).2
  unfold mergeRemoval
  rw [habout]
  dsimp only
  rw [hget]
  dsimp only
  rw [if_pos hle]
  exact (get_drop hwell known _ _).trans (if_pos hknown.symm)

theorem pairing_lasts_iff {store : PeerStore} (hwell : store.WellFormed)
    {me sender id : DeviceId} (hme : id ≠ me) (hsender : id ≠ sender)
    {peer : Peer} (hid : peer.deviceId = id) (removedAtMs : ℕ) :
    (∀ roster saved saved', RemovesBy roster id removedAtMs →
        ((store.upsert peer saved).2.merge me sender roster saved').2.get id ≠
          none) ↔
      removedAtMs < peer.pairedAtMs := by
  subst hid
  have hput := hwell.put peer
  have hget : (store.put peer).get peer.deviceId = some peer := by
    rw [get_put, if_pos rfl]
  simp only [upsert, merge_store]
  constructor
  · intro hlasts
    by_contra hclock
    have hle := Nat.not_lt.mp hclock
    let entry : RosterPeer := { toRoster peer with publicKey := 1 }
    refine hlasts ⟨[], [⟨entry, removedAtMs⟩]⟩ (.ok ()) (.ok ()) ?_ ?_
    · intro removal hremoval _
      rw [List.mem_singleton.mp hremoval]
    · have habout : aboutOthers me sender entry =
          some
            { peer with
              name := String.ofList (entry.name.toList.take maxNameChars)
              publicKey := 1
              lastAddress := entry.address } := by
        rw [aboutOthers, fromRoster, if_neg (by decide : (1 : PublicKey) ≠ 0),
          Option.filter_some]
        exact if_pos (by simp [entry, toRoster, hme, hsender])
      let merging : Merging := ⟨store.put peer, RosterChange.none, false⟩
      have hmerging : merging.store.WellFormed := hput
      have hgone :=
        get_mergeRemoval_dropped me sender hmerging ⟨entry, removedAtMs⟩
          habout hget hle
      exact hgone
  · intro hclock roster _ _ hremoves
    unfold mergeEntries
    let merging : Merging := ⟨store.put peer, RosterChange.none, false⟩
    have hmerging : merging.store.WellFormed := hput
    obtain ⟨known, hknown, hle⟩ := get_mergeMembers me sender
      (roster.members.take maxRosterEntries) hmerging hget
    rw [get_mergeRemovals me sender _
      (wellFormed_mergeMembers me sender _ hput) hknown]
    · nofun
    · intro removal hremoval hid
      have hremoved := hremoves removal (List.mem_of_mem_take hremoval) hid
      omega

/-- What the user does here lasts against every roster that brings back only
what the device knew before, exactly when the local clock is at least at the
stored join, or past the stored removal. -/
theorem localWord_lasts_iff {store : PeerStore} (hreach : store.Reachable)
    (me sender id : DeviceId) (hme : id ≠ me) (hsender : id ≠ sender)
    (nowMs : ℕ) :
    (∀ peer, store.get id = some peer →
        ((∀ roster saved saved',
            ListsOnly roster id peer.publicKey peer.pairedAtMs →
              ((store.remove id nowMs saved).2.merge me sender roster
                saved').2.LeavesRemoved roster id) ↔
          peer.pairedAtMs ≤ nowMs ∨ peer.publicKey = 0)) ∧
      ∀ removed, store.removal id = some removed →
        ∀ peer, peer.deviceId = id → peer.pairedAtMs = nowMs →
          ((∀ roster saved saved', RemovesBy roster id removed.removedAtMs →
              ((store.upsert peer saved).2.merge me sender roster
                saved').2.get id ≠ none) ↔
            removed.removedAtMs < nowMs) := by
  refine ⟨fun peer hget => ?_, fun removed _ peer hid hnow => ?_⟩
  · exact removal_lasts_iff hreach.wellFormed hme hsender hget nowMs
  · rw [← hnow]
    exact pairing_lasts_iff hreach.wellFormed hme hsender hid _

/-! ## A clock that is behind -/

/-- Paired by a device whose clock reads 20.  Here the clock reads 10 at the
removal, so the next roster brings the laptop back; and a pairing at 15 is undone
by a roster with the removal at 20. -/
theorem not_localWord_lasts_behind :
    (paired 20).Reachable ∧
      ListsOnly (paired 20).roster ⟨5⟩ 7 20 ∧
      ¬ (((paired 20).remove ⟨5⟩ 10 (.ok ())).2.merge ⟨1⟩ ⟨2⟩
        (paired 20).roster (.ok ())).2.LeavesRemoved (paired 20).roster ⟨5⟩ ∧
      (unpaired 10 20).Reachable ∧ RemovesBy (unpaired 10 20).roster ⟨5⟩ 20 ∧
      (((unpaired 10 20).upsert (laptop 15) (.ok ())).2.merge ⟨1⟩ ⟨2⟩
        (unpaired 10 20).roster (.ok ())).2.get ⟨5⟩ = none := by
  refine ⟨paired_reachable 20, by decide, ?_, unpaired_reachable 10 20,
    by decide, by decide⟩
  rintro ⟨hgone, _⟩
  revert hgone
  decide

/-- With the clock at 30 both last. -/
theorem localWord_lasts_ahead :
    (((paired 20).remove ⟨5⟩ 30 (.ok ())).2.merge ⟨1⟩ ⟨2⟩ (paired 20).roster
        (.ok ())).2.LeavesRemoved (paired 20).roster ⟨5⟩ ∧
      (((unpaired 10 20).upsert (laptop 30) (.ok ())).2.merge ⟨1⟩ ⟨2⟩
        (unpaired 10 20).roster (.ok ())).2.get ⟨5⟩ ≠ none := by
  constructor
  · have hlasts := (localWord_lasts_iff (paired_reachable 20) ⟨1⟩ ⟨2⟩ ⟨5⟩
      (by decide) (by decide) 30).1 (laptop 20) (by decide)
    exact hlasts.mpr (by decide) (paired 20).roster _ _ (by decide)
  · have hlasts := (localWord_lasts_iff (unpaired_reachable 10 20) ⟨1⟩ ⟨2⟩ ⟨5⟩
      (by decide) (by decide) 30).2 ⟨laptop 10, 20, false⟩ (by decide)
      (laptop 30) rfl rfl
    exact hlasts.mpr (by decide) (unpaired 10 20).roster _ _ (by decide)

end PeerStore

end Cled.Lan
