import Mathlib.Data.Finset.Card
import Cled.Core.Machine
import Cled.Core.Newest
import Cled.Lan.Merge

/-!
# Rosters in any order

A whole merge absorbs, for each device, what the roster reports about it.  With
few enough devices nothing is forgotten, and merging the rosters of well-formed
stores absorbs one report per roster, in the order of the merges.
-/

namespace Cled.Lan

open Cled.Core Cled.Sync

namespace PeerStore

/-! ## Reachable stores -/

/-- One change to a store, with what saving answers. -/
inductive Change where
  | upsert (peer : Peer) (saved : Except LanError Unit)
  | seen (id : DeviceId) (name : String) (address : Option SocketAddr)
      (saved : Except LanError Unit)
  | remove (id : DeviceId) (removedAtMs : ℕ) (saved : Except LanError Unit)
  | clear (saved : Except LanError Unit)
  | markNotified (id : DeviceId) (saved : Except LanError Unit)
  | merge (me sender : DeviceId) (roster : Roster)
      (saved : Except LanError Unit)

def apply (store : PeerStore) : Change → PeerStore
  | .upsert peer saved => (store.upsert peer saved).2
  | .seen id name address saved => (store.seen id name address saved).2
  | .remove id removedAtMs saved => (store.remove id removedAtMs saved).2
  | .clear saved => (store.clear saved).2
  | .markNotified id saved => (store.markNotified id saved).2
  | .merge me sender roster saved => (store.merge me sender roster saved).2

def machine : Machine PeerStore Change :=
  ⟨fun store change => some (store.apply change)⟩

/-- Some changes lead from the empty store to this one. -/
def Reachable (store : PeerStore) : Prop :=
  ∃ changes, machine.run empty changes = some store

theorem wellFormed_apply {store : PeerStore} (hwell : store.WellFormed)
    (change : Change) : (store.apply change).WellFormed := by
  cases change with
  | upsert peer saved => exact hwell.put peer
  | seen id name address saved => exact wellFormed_seen hwell id name address saved
  | remove id removedAtMs saved =>
      exact wellFormed_remove hwell id removedAtMs saved
  | clear saved => exact hwell.clearPeers
  | markNotified id saved => exact wellFormed_markNotified hwell id saved
  | merge me sender roster saved =>
      rw [apply, merge_store]
      exact wellFormed_mergeEntries hwell me sender roster

theorem Reachable.wellFormed {store : PeerStore} (hreach : store.Reachable) :
    store.WellFormed := by
  obtain ⟨changes, hrun⟩ := hreach
  refine Machine.run_of_step_invariant (fun state change next hwell hstep => ?_)
    wellFormed_empty hrun
  obtain rfl := Option.some.inj hstep
  exact wellFormed_apply hwell change

/-! ## A whole roster -/

theorem standing_mergeMembers (me sender id : DeviceId)
    (members : List RosterPeer) {merging : Merging}
    (hwell : merging.store.WellFormed) :
    (members.foldl (mergeMember me sender) merging).store.standing id =
      (merging.store.standing id).absorbAll
        (members.map (heardMember me sender id)) := by
  induction members generalizing merging with
  | nil => rfl
  | cons entry members ih =>
      rw [List.foldl_cons, ih (wellFormed_mergeMember me sender hwell entry),
        standing_mergeMember me sender id hwell]
      rfl

/-- Every removal the store remembers is of a device in `ids`. -/
def RemovalsIn (ids : Finset DeviceId) (store : PeerStore) : Prop :=
  ∀ removed ∈ store.removed, removed.deviceId ∈ ids

theorem RemovalsIn.hasRoom {ids : Finset DeviceId} {store : PeerStore}
    (hin : store.RemovalsIn ids) (hwell : store.WellFormed)
    (hcard : ids.card ≤ maxRemoved) {id : DeviceId} (hid : id ∈ ids) :
    store.HasRoom id := by
  let others := (Table.without Removed.deviceId store.removed id).map
    Removed.deviceId
  have hsubset : others.toFinset ⊆ ids.erase id := by
    intro other hother
    obtain ⟨removed, hremoved, rfl⟩ :=
      List.mem_map.mp (List.mem_toFinset.mp hother)
    obtain ⟨hmem, hne⟩ := List.mem_filter.mp hremoved
    exact Finset.mem_erase.mpr ⟨of_decide_eq_true hne, hin removed hmem⟩
  have hlength : others.toFinset.card = others.length :=
    List.toFinset_card_of_nodup (hwell.removed.without id)
  have hle := Finset.card_le_card hsubset
  rw [hlength, List.length_map] at hle
  exact lt_of_le_of_lt hle
    (lt_of_lt_of_le (Finset.card_erase_lt_of_mem hid) hcard)

theorem removalsIn_rememberRemoval {ids : Finset DeviceId} {store : PeerStore}
    (hin : store.RemovalsIn ids) {removed : Removed}
    (hid : removed.deviceId ∈ ids) :
    (store.rememberRemoval removed).RemovalsIn ids := by
  intro other hother
  rcases mem_rememberRemoval hother with rfl | hold
  · exact hid
  · exact hin other hold

theorem removalsIn_mergeMember {ids : Finset DeviceId} (me sender : DeviceId)
    {merging : Merging} (hin : merging.store.RemovalsIn ids)
    (hwell : merging.store.WellFormed) (entry : RosterPeer) :
    (mergeMember me sender merging entry).store.RemovalsIn ids := by
  have houtcome := mergeMember_outcome me sender hwell entry
  generalize mergeMember me sender merging entry = after at houtcome ⊢
  cases houtcome with
  | skipped _ => exact hin
  | outdated _ _ _ _ _ => exact hin
  | known _ _ _ _ => exact hin
  | joined peer _ _ _ =>
      exact fun removed hremoved => hin removed (List.mem_of_mem_filter hremoved)

theorem removalsIn_mergeRemoval {ids : Finset DeviceId} (me sender : DeviceId)
    {merging : Merging} (hin : merging.store.RemovalsIn ids)
    (hwell : merging.store.WellFormed) (removal : RosterRemoval)
    (hid : DeviceId.fromBytes removal.peer.deviceId ∈ ids) :
    (mergeRemoval me sender merging removal).store.RemovalsIn ids := by
  have hpeer : ∀ peer, aboutOthers me sender removal.peer = some peer →
      peer.deviceId ∈ ids := by
    intro peer habout
    rw [aboutOthers_deviceId habout]
    exact hid
  have houtcome := mergeRemoval_outcome me sender hwell removal
  generalize mergeRemoval me sender merging removal = after at houtcome ⊢
  cases houtcome with
  | skipped _ => exact hin
  | oldNews _ _ _ _ _ => exact hin
  | dropped peer known habout hget _ =>
      have hknown := (Table.mem_of_lookup hget).2
      refine removalsIn_rememberRemoval hin ?_
      change known.deviceId ∈ ids
      rw [hknown]
      exact hpeer peer habout
  | alreadyHeard _ _ _ _ _ _ => exact hin
  | learned peer habout _ _ =>
      exact removalsIn_rememberRemoval hin (hpeer peer habout)

theorem removalsIn_mergeMembers {ids : Finset DeviceId} (me sender : DeviceId)
    (members : List RosterPeer) {merging : Merging}
    (hin : merging.store.RemovalsIn ids) (hwell : merging.store.WellFormed) :
    (members.foldl (mergeMember me sender) merging).store.RemovalsIn ids := by
  apply mergeMembers_keeps me sender
    (motive := fun store => store.RemovalsIn ids) hwell hin
  intro merging entry _ hwell hin
  exact removalsIn_mergeMember me sender hin hwell entry

section Room

variable {ids : Finset DeviceId} (hcard : ids.card ≤ maxRemoved)
include hcard

theorem mergeRemovals_of_room (me sender id : DeviceId)
    (removals : List RosterRemoval) {merging : Merging}
    (hin : merging.store.RemovalsIn ids) (hwell : merging.store.WellFormed)
    (hids : ∀ removal ∈ removals,
      DeviceId.fromBytes removal.peer.deviceId ∈ ids) :
    (removals.foldl (mergeRemoval me sender) merging).store.RemovalsIn ids ∧
      (removals.foldl (mergeRemoval me sender) merging).store.standing id =
        (merging.store.standing id).absorbAll
          (removals.map (heardRemoval me sender id)) := by
  induction removals generalizing merging with
  | nil => exact ⟨hin, rfl⟩
  | cons removal removals ih =>
      have hhead := hids removal List.mem_cons_self
      have hroom : ∀ peer ∈ aboutOthers me sender removal.peer,
          merging.store.HasRoom peer.deviceId := by
        intro peer habout
        refine hin.hasRoom hwell hcard ?_
        rw [aboutOthers_deviceId habout]
        exact hhead
      obtain ⟨hinRest, hstanding⟩ := ih
        (removalsIn_mergeRemoval me sender hin hwell removal hhead)
        (wellFormed_mergeRemoval me sender hwell removal)
        fun other hother => hids other (List.mem_cons_of_mem _ hother)
      refine ⟨hinRest, ?_⟩
      rw [List.foldl_cons, hstanding,
        standing_mergeRemoval me sender id hwell removal hroom]
      rfl

end Room

/-! ## The roster of a well-formed store -/

/-- What the roster of `source` reports about `id`: an entry with an all-zero
key reports nothing. -/
def tells (source : PeerStore) (id : DeviceId) : Standing PublicKey :=
  match source.get id with
  | some peer => if peer.publicKey = 0 then .unknown else memberOf peer
  | none =>
      match source.removal id with
      | some removed =>
          if removed.peer.publicKey = 0 then .unknown
          else .removed removed.removedAtMs
      | none => .unknown

theorem fromRoster_toRoster_zero {peer : Peer} (hkey : peer.publicKey = 0) :
    fromRoster (toRoster peer) = none :=
  if_pos hkey

/-- Through a roster a peer keeps its ID, key and time. -/
theorem fromRoster_toRoster {peer : Peer} (hkey : peer.publicKey ≠ 0) :
    ∃ name lastAddress,
      fromRoster (toRoster peer) = some { peer with name, lastAddress } :=
  ⟨_, _, if_neg hkey⟩

theorem heard_toRoster {me sender id : DeviceId} (hme : id ≠ me)
    (hsender : id ≠ sender) (peer : Peer) {report : Peer → Standing PublicKey}
    (hreport : ∀ name lastAddress,
      report { peer with name, lastAddress } = report peer) :
    heard me sender id (toRoster peer) report =
      if peer.publicKey = 0 ∨ peer.deviceId ≠ id then .unknown
      else report peer := by
  unfold heard aboutOthers
  by_cases hkey : peer.publicKey = 0
  · rw [if_pos (Or.inl hkey), fromRoster_toRoster_zero hkey]
    rfl
  obtain ⟨name, lastAddress, hfrom⟩ := fromRoster_toRoster hkey
  rw [hfrom, Option.filter_some]
  by_cases hid : peer.deviceId = id
  · subst hid
    rw [if_neg (not_or.mpr ⟨hkey, not_not.mpr rfl⟩)]
    simp [hme, hsender, hreport]
  · rw [if_pos (Or.inr hid)]
    split
    · next other hother =>
      obtain ⟨_, hother⟩ := Option.ite_none_right_eq_some.mp hother
      obtain rfl := Option.some.inj hother
      exact if_neg hid
    · rfl

/-- What a whole roster reports about `id`, entry by entry. -/
def reports (me sender id : DeviceId) (roster : Roster) :
    List (Standing PublicKey) :=
  roster.members.map (heardMember me sender id) ++
    roster.removed.map (heardRemoval me sender id)

/-- A well-formed store reports at most one standing of each device. -/
theorem absorbAll_reports {source : PeerStore} (hsource : source.WellFormed)
    {me sender id : DeviceId} (hme : id ≠ me) (hsender : id ≠ sender)
    (known : Standing PublicKey) :
    known.absorbAll (reports me sender id source.roster) =
      known.absorb (source.tells id) := by
  have hmember : ∀ peer, heardMember me sender id (toRoster peer) =
      if peer.publicKey = 0 ∨ peer.deviceId ≠ id then .unknown
      else memberOf peer :=
    fun peer => heard_toRoster hme hsender peer fun _ _ => rfl
  have hremoval : ∀ removed : Removed,
      heardRemoval me sender id
          ⟨toRoster removed.peer, removed.removedAtMs⟩ =
        if removed.peer.publicKey = 0 ∨ removed.deviceId ≠ id then .unknown
        else .removed removed.removedAtMs :=
    fun removed => heard_toRoster hme hsender removed.peer fun _ _ => rfl
  refine Standing.absorbAll_of_forall_eq ?_ ?_
  · intro other hother
    rcases List.mem_append.mp hother with hmem | hmem
    · simp only [roster, List.map_map, List.mem_map] at hmem
      obtain ⟨peer, hpeer, rfl⟩ := hmem
      rw [Function.comp_apply, hmember]
      split
      · exact Or.inl rfl
      · next hentry =>
        obtain ⟨hkey, hid⟩ := not_or.mp hentry
        obtain rfl := not_not.mp hid
        have hget : source.get peer.deviceId = some peer :=
          Table.lookup_of_mem hsource.peers hpeer
        rw [tells, hget]
        exact Or.inr (if_neg hkey).symm
    · simp only [roster, List.map_map, List.mem_map] at hmem
      obtain ⟨removed, hremoved, rfl⟩ := hmem
      rw [Function.comp_apply, hremoval]
      split
      · exact Or.inl rfl
      · next hentry =>
        obtain ⟨hkey, hid⟩ := not_or.mp hentry
        obtain rfl := not_not.mp hid
        have hrow : source.removal removed.deviceId = some removed :=
          Table.lookup_of_mem hsource.removed hremoved
        have hget := (hsource.apart removed.deviceId).resolve_right
          (by simp [hrow])
        rw [tells, hget, hrow]
        exact Or.inr (if_neg hkey).symm
  · intro hreported
    unfold tells at hreported ⊢
    split at hreported
    · next peer hget =>
      split at hreported
      · contradiction
      next hkey =>
        obtain ⟨hpeer, rfl⟩ := Table.mem_of_lookup hget
        refine List.mem_append_left _ ?_
        simp only [roster, List.map_map, List.mem_map]
        refine ⟨peer, hpeer, ?_⟩
        rw [Function.comp_apply, hmember,
          if_neg (not_or.mpr ⟨hkey, not_not.mpr rfl⟩)]
        exact (if_neg hkey).symm
    · next hget =>
      split at hreported
      · next removed hrow =>
        split at hreported
        · contradiction
        next hkey =>
          obtain ⟨hremoved, rfl⟩ := Table.mem_of_lookup hrow
          refine List.mem_append_right _ ?_
          simp only [roster, List.map_map, List.mem_map]
          refine ⟨removed, hremoved, ?_⟩
          rw [Function.comp_apply, hremoval,
            if_neg (not_or.mpr ⟨hkey, not_not.mpr rfl⟩)]
          exact (if_neg hkey).symm
      · contradiction

/-- Merging the roster of `source` absorbs what it tells. -/
theorem standing_mergeEntries {ids : Finset DeviceId}
    (hcard : ids.card ≤ maxRemoved) {store source : PeerStore}
    (hwell : store.WellFormed) (hin : store.RemovalsIn ids)
    (hsource : source.WellFormed) (hsourceIn : source.RemovalsIn ids)
    (hlength : source.peers.length ≤ maxRosterEntries)
    {me sender id : DeviceId} (hme : id ≠ me) (hsender : id ≠ sender) :
    (store.mergeEntries me sender source.roster).store.RemovalsIn ids ∧
      (store.mergeEntries me sender source.roster).store.standing id =
        (store.standing id).absorb (source.tells id) := by
  have hmembers : source.roster.members.take maxRosterEntries =
      source.roster.members :=
    List.take_of_length_le (by simpa [roster] using hlength)
  have hremoved : source.roster.removed.take maxRosterEntries =
      source.roster.removed := by
    refine List.take_of_length_le ?_
    rw [roster, List.length_map]
    exact hsource.bounded.trans (by decide)
  unfold mergeEntries
  rw [hmembers, hremoved]
  let merging : Merging := ⟨store, RosterChange.none, false⟩
  have hinMembers : (source.roster.members.foldl (mergeMember me sender)
      merging).store.RemovalsIn ids :=
    removalsIn_mergeMembers me sender source.roster.members hin hwell
  obtain ⟨hinAfter, hstanding⟩ := mergeRemovals_of_room hcard me sender id
    source.roster.removed hinMembers
    (wellFormed_mergeMembers me sender source.roster.members hwell)
    (by
      intro removal hremoval
      obtain ⟨removed, hmem, rfl⟩ := List.mem_map.mp hremoval
      exact hsourceIn removed hmem)
  refine ⟨hinAfter, ?_⟩
  rw [hstanding, standing_mergeMembers me sender id _ hwell,
    ← Standing.absorbAll_append]
  exact absorbAll_reports hsource hme hsender _

/-! ## Many rosters -/

/-- Merges the rosters of the given stores, each sent by the given device, one
after the other. -/
def mergeAll (me : DeviceId) (store : PeerStore)
    (sequence : List (DeviceId × PeerStore)) : PeerStore :=
  sequence.foldl
    (fun store arrival =>
      (store.merge me arrival.1 arrival.2.roster (.ok ())).2) store

/-- The devices whose removals the store or one of the rosters lists. -/
def allRemovedIds (store : PeerStore) (batch : List (DeviceId × PeerStore)) :
    Finset DeviceId :=
  ((store :: batch.map Prod.snd).flatMap fun source =>
    source.removed.map Removed.deviceId).toFinset

/-- Few enough devices that nothing is forgotten and no entry is ignored. -/
def FewEnough (store : PeerStore) (batch : List (DeviceId × PeerStore)) :
    Prop :=
  (allRemovedIds store batch).card ≤ maxRemoved ∧
    ∀ arrival ∈ batch, arrival.2.peers.length ≤ maxRosterEntries

instance (store : PeerStore) (batch : List (DeviceId × PeerStore)) :
    Decidable (FewEnough store batch) :=
  inferInstanceAs (Decidable (_ ∧ _))

/-- The joins and removals of `id` in the store and in the rosters. -/
def standings (store : PeerStore) (batch : List (DeviceId × PeerStore))
    (id : DeviceId) : List (Standing PublicKey) :=
  store.standing id :: batch.map fun arrival => arrival.2.standing id

/-- What the store knows of `id` after merging the rosters in any order, each
once or more often, is the newest join or removal of it. -/
def AgreesInAnyOrder (me : DeviceId) (store : PeerStore)
    (batch : List (DeviceId × PeerStore)) (id : DeviceId) : Prop :=
  ∃ newest, IsNewest Standing.rank {known | known ∈ standings store batch id}
      (some newest) ∧
    ∀ sequence, (∀ arrival, arrival ∈ sequence ↔ arrival ∈ batch) →
      (mergeAll me store sequence).standing id = newest

/-- One of the newest joins and removals of `id` settles among what the rosters
report. -/
def NewestSettles (store : PeerStore) (batch : List (DeviceId × PeerStore))
    (id : DeviceId) : Prop :=
  ∃ newest ∈ standings store batch id,
    (∀ known ∈ standings store batch id, known.rank ≤ newest.rank) ∧
      (store.standing id).Settles (batch.map fun arrival => arrival.2.tells id)
        newest

instance (store : PeerStore) (batch : List (DeviceId × PeerStore))
    (id : DeviceId) : Decidable (NewestSettles store batch id) :=
  inferInstanceAs (Decidable (∃ newest ∈ standings store batch id, _))

theorem tells_rank_le (source : PeerStore) (id : DeviceId) :
    (source.tells id).rank ≤ (source.standing id).rank := by
  unfold tells
  split
  · next peer hget =>
    rw [standing_of_get hget]
    split
    · exact Nat.zero_le _
    · exact le_refl _
  next hget =>
    split
    · next removed hremoval =>
      rw [standing_of_removal hget hremoval]
      split
      · exact Nat.zero_le _
      · exact le_refl _
    · exact Nat.zero_le _

theorem removalsIn_allRemovedIds {store source : PeerStore}
    {batch : List (DeviceId × PeerStore)}
    (hsource : source ∈ store :: batch.map Prod.snd) :
    source.RemovalsIn (allRemovedIds store batch) :=
  fun _ hremoved => List.mem_toFinset.mpr
    (List.mem_flatMap.mpr ⟨source, hsource, List.mem_map_of_mem hremoved⟩)

theorem standing_mergeAll {ids : Finset DeviceId}
    (hcard : ids.card ≤ maxRemoved) {me id : DeviceId} (hme : id ≠ me)
    (sequence : List (DeviceId × PeerStore)) {store : PeerStore}
    (hwell : store.WellFormed) (hin : store.RemovalsIn ids)
    (hsequence : ∀ arrival ∈ sequence, arrival.2.WellFormed ∧
      arrival.2.RemovalsIn ids ∧
      arrival.2.peers.length ≤ maxRosterEntries ∧ id ≠ arrival.1) :
    (mergeAll me store sequence).standing id =
      (store.standing id).absorbAll
        (sequence.map fun arrival => arrival.2.tells id) := by
  induction sequence generalizing store with
  | nil => rfl
  | cons arrival sequence ih =>
      obtain ⟨hsource, hsourceIn, hlength, hsender⟩ :=
        hsequence arrival List.mem_cons_self
      obtain ⟨hinNext, hnext⟩ := standing_mergeEntries hcard hwell hin hsource
        hsourceIn hlength hme hsender
      have hrest := ih
        (wellFormed_mergeEntries hwell me arrival.1 arrival.2.roster) hinNext
        fun other hother => hsequence other (List.mem_cons_of_mem _ hother)
      rw [hnext] at hrest
      rw [mergeAll, List.foldl_cons, merge_store]
      exact hrest

/-- Merging the rosters of reachable stores, with few enough devices in them:
the order makes no difference for a device, and the newest join or removal of it
wins, exactly when one of the newest settles. -/
theorem agreesInAnyOrder_iff {store : PeerStore} (hreach : store.Reachable)
    {batch : List (DeviceId × PeerStore)}
    (hbatch : ∀ arrival ∈ batch, arrival.2.Reachable)
    (hfew : FewEnough store batch) {me id : DeviceId} (hme : id ≠ me)
    (hsenders : ∀ arrival ∈ batch, id ≠ arrival.1) :
    AgreesInAnyOrder me store batch id ↔ NewestSettles store batch id := by
  obtain ⟨hcard, hlengths⟩ := hfew
  have hmerged : ∀ sequence, (∀ arrival, arrival ∈ sequence ↔
      arrival ∈ batch) → (mergeAll me store sequence).standing id =
        (store.standing id).absorbAll
          (sequence.map fun arrival => arrival.2.tells id) := by
    intro sequence hsequence
    refine standing_mergeAll hcard hme sequence hreach.wellFormed
      (removalsIn_allRemovedIds List.mem_cons_self) fun arrival harrival => ?_
    have hmem := (hsequence arrival).mp harrival
    exact ⟨(hbatch arrival hmem).wellFormed,
      removalsIn_allRemovedIds
        (List.mem_cons_of_mem _ (List.mem_map_of_mem hmem)),
      hlengths arrival hmem, hsenders arrival hmem⟩
  have htold : ∀ newest : Standing PublicKey,
      (∀ known ∈ standings store batch id, known.rank ≤ newest.rank) →
        ∀ arrival ∈ batch, (arrival.2.tells id).rank ≤ newest.rank := by
    intro newest hnewest arrival harrival
    exact (tells_rank_le _ _).trans (hnewest _
      (List.mem_cons_of_mem _ (List.mem_map_of_mem harrival)))
  constructor
  · rintro ⟨newest, ⟨hmem, hnewest⟩, hends⟩
    refine ⟨newest, hmem, hnewest,
      Standing.settles_of_endsWith (htold newest hnewest) ?_⟩
    intro sequence hsequence
    rw [← hmerged sequence hsequence]
    exact hends sequence hsequence
  · rintro ⟨newest, hmem, hnewest, hsettles⟩
    refine ⟨newest, ⟨hmem, hnewest⟩, fun sequence hsequence => ?_⟩
    rw [hmerged sequence hsequence]
    exact Standing.endsWith_of_settles (hnewest _ List.mem_cons_self)
      (htold newest hnewest) hsettles sequence hsequence

/-! ## A removal between two joins with one key -/

section OneKey

/-- The device the rosters are about. -/
def laptop (pairedAtMs : ℕ) : Peer :=
  { deviceId := ⟨5⟩, name := "laptop", publicKey := 7, pairedAtMs,
    lastAddress := none }

/-- A store that has paired the laptop. -/
def paired (pairedAtMs : ℕ) : PeerStore := empty.put (laptop pairedAtMs)

/-- A store that has paired the laptop and removed it. -/
def unpaired (pairedAtMs removedAtMs : ℕ) : PeerStore :=
  ((paired pairedAtMs).remove ⟨5⟩ removedAtMs (.ok ())).2

theorem paired_reachable (pairedAtMs : ℕ) : (paired pairedAtMs).Reachable :=
  ⟨[.upsert (laptop pairedAtMs) (.ok ())], rfl⟩

theorem unpaired_reachable (pairedAtMs removedAtMs : ℕ) :
    (unpaired pairedAtMs removedAtMs).Reachable :=
  ⟨[.upsert (laptop pairedAtMs) (.ok ()), .remove ⟨5⟩ removedAtMs (.ok ())], rfl⟩

/-- The laptop joined at 10, was removed at 15 and joined again at 20, with the
key it had. -/
def rejoined : List (DeviceId × PeerStore) :=
  [(⟨2⟩, paired 20), (⟨3⟩, unpaired 10 15)]

/-- A store that knows the first join drops the second one if it hears of it
before the removal, and keeps it otherwise. -/
theorem not_agreesInAnyOrder_rejoined :
    (paired 10).Reachable ∧ (∀ arrival ∈ rejoined, arrival.2.Reachable) ∧
      FewEnough (paired 10) rejoined ∧
      ¬ AgreesInAnyOrder ⟨1⟩ (paired 10) rejoined ⟨5⟩ := by
  refine ⟨paired_reachable 10, ?_, by decide, ?_⟩
  · simp only [rejoined, List.forall_mem_cons]
    exact ⟨paired_reachable 20, unpaired_reachable 10 15, nofun⟩
  · rintro ⟨newest, _, hends⟩
    have hforward := hends rejoined fun _ => Iff.rfl
    have hbackward := hends rejoined.reverse fun _ => List.mem_reverse
    exact absurd (hforward.trans hbackward.symm) (by decide)

/-- Removed for good at 30. -/
def leftForGood : List (DeviceId × PeerStore) :=
  [(⟨2⟩, paired 20), (⟨3⟩, unpaired 10 30)]

theorem agreesInAnyOrder_leftForGood :
    AgreesInAnyOrder ⟨1⟩ (paired 10) leftForGood ⟨5⟩ := by
  refine (agreesInAnyOrder_iff (paired_reachable 10) ?_ (by decide) (by decide)
    (by decide)).mpr (by decide)
  simp only [leftForGood, List.forall_mem_cons]
  exact ⟨paired_reachable 20, unpaired_reachable 10 30, nofun⟩

end OneKey

end PeerStore

end Cled.Lan
