import Cled.Lan.AnyOrder

/-!
# Devices a roster has no say about

Whatever a roster says, merging it leaves alone the device that merges it and
the device that sent it.  So a device that never adds itself to its store is
never in it, neither as a peer nor as a removal.
-/

namespace Cled.Lan

open Cled.Core Cled.Sync

namespace PeerStore

theorem aboutOthers_ne {me sender : DeviceId} {entry : RosterPeer} {peer : Peer}
    (habout : aboutOthers me sender entry = some peer) :
    peer.deviceId ≠ me ∧ peer.deviceId ≠ sender := by
  obtain ⟨-, hothers⟩ := Option.filter_eq_some_iff.mp habout
  simpa using hothers

/-! ## A merge -/

section Exempt

variable {me sender id : DeviceId} (hid : id = me ∨ id = sender)

include hid

theorem aboutOthers_ne_exempt {entry : RosterPeer} {peer : Peer}
    (habout : aboutOthers me sender entry = some peer) : peer.deviceId ≠ id := by
  obtain ⟨hme, hsender⟩ := aboutOthers_ne habout
  rcases hid with rfl | rfl
  · exact hme
  · exact hsender

theorem get_mergeMember_exempt {merging : Merging}
    (hwell : merging.store.WellFormed) (entry : RosterPeer) :
    (mergeMember me sender merging entry).store.get id =
      merging.store.get id := by
  have houtcome := mergeMember_outcome me sender hwell entry
  generalize mergeMember me sender merging entry = after at houtcome ⊢
  cases houtcome with
  | skipped _ => rfl
  | outdated _ _ _ _ _ => rfl
  | known peer known habout _ =>
      rw [get_mergeKnown, if_neg (aboutOthers_ne_exempt hid habout).symm]
  | joined peer habout _ _ =>
      rw [get_put, if_neg (aboutOthers_ne_exempt hid habout).symm]

theorem get_mergeRemoval_exempt {merging : Merging}
    (hwell : merging.store.WellFormed) (removal : RosterRemoval) :
    (mergeRemoval me sender merging removal).store.get id =
      merging.store.get id := by
  have houtcome := mergeRemoval_outcome me sender hwell removal
  generalize mergeRemoval me sender merging removal = after at houtcome ⊢
  cases houtcome with
  | dropped peer known habout hget _ =>
      rw [get_drop hwell, (Table.mem_of_lookup hget).2,
        if_neg (aboutOthers_ne_exempt hid habout).symm]
  | skipped _ => rfl
  | oldNews _ _ _ _ _ => rfl
  | alreadyHeard _ _ _ _ _ _ => rfl
  | learned _ _ _ _ => rfl

theorem removal_mergeMember_exempt {merging : Merging}
    (hwell : merging.store.WellFormed) (entry : RosterPeer) :
    (mergeMember me sender merging entry).store.removal id =
      merging.store.removal id := by
  have houtcome := mergeMember_outcome me sender hwell entry
  generalize mergeMember me sender merging entry = after at houtcome ⊢
  cases houtcome with
  | joined peer habout _ _ =>
      rw [removal_put, if_neg (aboutOthers_ne_exempt hid habout).symm]
  | skipped _ => rfl
  | outdated _ _ _ _ _ => rfl
  | known _ _ _ _ => rfl

/-- A full list forgets its oldest removal, whichever device it is of; it never
takes one up for an exempt device. -/
theorem removal_mergeRemoval_exempt {merging : Merging}
    (hwell : merging.store.WellFormed) (removal : RosterRemoval)
    (hnone : merging.store.removal id = none) :
    (mergeRemoval me sender merging removal).store.removal id = none := by
  have houtcome := mergeRemoval_outcome me sender hwell removal
  generalize mergeRemoval me sender merging removal = after at houtcome ⊢
  cases houtcome with
  | dropped peer known habout hget _ =>
      apply removal_rememberRemoval_eq_none _ hnone
      rw [Removed.deviceId, (Table.mem_of_lookup hget).2]
      exact aboutOthers_ne_exempt hid habout
  | learned peer habout _ _ =>
      exact removal_rememberRemoval_eq_none (aboutOthers_ne_exempt hid habout)
        hnone
  | skipped _ => exact hnone
  | oldNews _ _ _ _ _ => exact hnone
  | alreadyHeard _ _ _ _ _ _ => exact hnone

theorem get_mergeMembers_exempt (members : List RosterPeer) {merging : Merging}
    (hwell : merging.store.WellFormed) :
    (members.foldl (mergeMember me sender) merging).store.get id =
      merging.store.get id := by
  apply mergeMembers_keeps me sender
    (motive := fun store => store.get id = merging.store.get id) hwell rfl
  intro merging entry _ hwell hsame
  exact (get_mergeMember_exempt hid hwell entry).trans hsame

theorem get_mergeRemovals_exempt (removals : List RosterRemoval)
    {merging : Merging} (hwell : merging.store.WellFormed) :
    (removals.foldl (mergeRemoval me sender) merging).store.get id =
      merging.store.get id := by
  apply mergeRemovals_keeps me sender
    (motive := fun store => store.get id = merging.store.get id) hwell rfl
  intro merging removal _ hwell hsame
  exact (get_mergeRemoval_exempt hid hwell removal).trans hsame

theorem removal_mergeMembers_exempt (members : List RosterPeer)
    {merging : Merging} (hwell : merging.store.WellFormed) :
    (members.foldl (mergeMember me sender) merging).store.removal id =
      merging.store.removal id := by
  apply mergeMembers_keeps me sender
    (motive := fun store => store.removal id = merging.store.removal id) hwell
    rfl
  intro merging entry _ hwell hsame
  exact (removal_mergeMember_exempt hid hwell entry).trans hsame

theorem removal_mergeRemovals_exempt (removals : List RosterRemoval)
    {merging : Merging} (hwell : merging.store.WellFormed)
    (hnone : merging.store.removal id = none) :
    (removals.foldl (mergeRemoval me sender) merging).store.removal id =
      none := by
  apply mergeRemovals_keeps me sender
    (motive := fun store => store.removal id = none) hwell hnone
  intro merging removal _ hwell hnone
  exact removal_mergeRemoval_exempt hid hwell removal hnone

/-- The whole merge leaves the entry of an exempt device as it was. -/
theorem get_merge_exempt {store : PeerStore} (hwell : store.WellFormed)
    (roster : Roster) (saved : Except LanError Unit) :
    (store.merge me sender roster saved).2.get id = store.get id := by
  rw [merge_store, mergeEntries,
    get_mergeRemovals_exempt hid _ (wellFormed_mergeMembers me sender _ hwell),
    get_mergeMembers_exempt hid _ hwell]

theorem removal_merge_exempt {store : PeerStore} (hwell : store.WellFormed)
    (roster : Roster) (saved : Except LanError Unit)
    (hnone : store.removal id = none) :
    (store.merge me sender roster saved).2.removal id = none := by
  rw [merge_store]
  apply removal_mergeRemovals_exempt hid _
    (wellFormed_mergeMembers me sender _ hwell)
  rw [removal_mergeMembers_exempt hid _ hwell]
  exact hnone

end Exempt

/-! ## Every sequence of changes -/

/-- Changes to the store of `me`: it never adds itself, and merges as itself. -/
def Change.IsOf (me : DeviceId) : Change → Prop
  | .upsert peer _ => peer.deviceId ≠ me
  | .merge self _ _ _ => self = me
  | _ => True

instance (me : DeviceId) : DecidablePred (Change.IsOf me)
  | .upsert _ _ => inferInstanceAs (Decidable (_ ≠ _))
  | .merge _ _ _ _ => inferInstanceAs (Decidable (_ = _))
  | .seen _ _ _ _ => inferInstanceAs (Decidable True)
  | .remove _ _ _ => inferInstanceAs (Decidable True)
  | .clear _ => inferInstanceAs (Decidable True)
  | .markNotified _ _ => inferInstanceAs (Decidable True)

/-- A well-formed store without the device whose store it is. -/
structure Tidy (me : DeviceId) (store : PeerStore) : Prop where
  well : store.WellFormed
  peers : store.get me = none
  removed : store.removal me = none

theorem tidy_empty (me : DeviceId) : empty.Tidy me := ⟨wellFormed_empty, rfl, rfl⟩

theorem get_eq_none_iff_keyOf {store : PeerStore} {id : DeviceId} :
    store.get id = none ↔ store.keyOf id = none :=
  Option.map_eq_none_iff.symm

theorem removal_eq_none_iff {store : PeerStore} {id : DeviceId} :
    store.removal id = none ↔ ∀ entry ∈ store.removals, entry.1 ≠ id := by
  rw [removal, Table.lookup_eq_none_iff, removals, List.forall_mem_map]

namespace Tidy

variable {me : DeviceId} {store : PeerStore}

theorem get_apply (htidy : store.Tidy me) {change : Change}
    (hof : change.IsOf me) : (store.apply change).get me = none := by
  have hkey := get_eq_none_iff_keyOf.mp htidy.peers
  cases change with
  | upsert peer saved =>
      exact (get_put store peer me).trans
        ((if_neg (Ne.symm hof)).trans htidy.peers)
  | seen id name address saved =>
      exact get_eq_none_iff_keyOf.mpr
        ((store.keyOf_seen id me name address saved).trans hkey)
  | remove id removedAtMs saved =>
      by_cases hid : me = id
      · have hself : (store.remove id removedAtMs saved).2 = store := by
          rw [remove, ← hid, htidy.peers]
        rw [PeerStore.apply, hself]
        exact htidy.peers
      · exact get_eq_none_iff_keyOf.mpr
          ((keyOf_remove htidy.well removedAtMs saved hid).trans hkey)
  | clear saved => rfl
  | markNotified id saved =>
      exact get_eq_none_iff_keyOf.mpr
        ((store.keyOf_markNotified id me saved).trans hkey)
  | merge self sender roster saved =>
      obtain rfl : self = me := hof
      exact (get_merge_exempt (.inl rfl) htidy.well roster saved).trans
        htidy.peers

theorem removal_apply (htidy : store.Tidy me) {change : Change}
    (hof : change.IsOf me) : (store.apply change).removal me = none := by
  have hentries := removal_eq_none_iff.mp htidy.removed
  cases change with
  | upsert peer saved =>
      exact removal_eq_none_iff.mpr fun entry hentry =>
        hentries entry (store.removals_put peer hentry)
  | seen id name address saved =>
      rw [removal_eq_none_iff, PeerStore.apply, removals_seen]
      exact hentries
  | remove id removedAtMs saved =>
      apply removal_eq_none_iff.mpr
      intro entry hentry
      have hmem := store.removals_remove id removedAtMs saved hentry
      split at hmem
      · exact hentries entry hmem
      · next hlisted =>
        rcases List.mem_cons.mp hmem with rfl | hold
        · rintro rfl
          exact hlisted htidy.peers
        · exact hentries entry hold
  | clear saved => exact htidy.removed
  | markNotified id saved =>
      rw [removal_eq_none_iff, PeerStore.apply, removals_markNotified]
      exact hentries
  | merge self sender roster saved =>
      obtain rfl : self = me := hof
      exact removal_merge_exempt (.inl rfl) htidy.well roster saved
        htidy.removed

theorem apply (htidy : store.Tidy me) {change : Change}
    (hof : change.IsOf me) : (store.apply change).Tidy me where
  well := wellFormed_apply htidy.well change
  peers := htidy.get_apply hof
  removed := htidy.removal_apply hof

end Tidy

/-- Changes to the store of `me` only ever make tidy stores. -/
theorem tidy_of_run {me : DeviceId} {changes : List Change} {store : PeerStore}
    (hof : ∀ change ∈ changes, change.IsOf me)
    (hrun : machine.run empty changes = some store) : store.Tidy me := by
  refine Machine.run_of_invariant
    (fun state change next (htidy : state.Tidy me) hmem hstep => ?_)
    (tidy_empty me) (machine.along_mem empty changes) hrun
  obtain rfl := Option.some.inj hstep
  exact htidy.apply (hof change hmem)

/-- Both lists of the store of `me` stay well formed and without `me`, and each
merge leaves the sender's entry as it is and does not add `me`. -/
theorem lists_stay_wellFormed {me : DeviceId} {changes : List Change}
    {store : PeerStore} (hof : ∀ change ∈ changes, change.IsOf me)
    (hrun : machine.run empty changes = some store) :
    store.Tidy me ∧ ∀ sender roster saved,
      (store.merge me sender roster saved).2.get sender = store.get sender ∧
        (store.merge me sender roster saved).2.get me = none := by
  have htidy := tidy_of_run hof hrun
  refine ⟨htidy, fun sender roster saved => ⟨?_, ?_⟩⟩
  · exact get_merge_exempt (.inr rfl) htidy.well roster saved
  · rw [get_merge_exempt (.inl rfl) htidy.well roster saved]
    exact htidy.peers

section Contradictory

def phone : Peer := { laptop 5 with deviceId := ⟨3⟩ }

/-- A roster of the phone that lists its receiver, removes the phone, and both
lists and removes the laptop. -/
def contradictory : Roster where
  members := [toRoster (laptop 10), toRoster { laptop 10 with deviceId := ⟨1⟩ }]
  removed := [⟨toRoster (laptop 10), 20⟩, ⟨toRoster phone, 20⟩]

/-- The store that has paired the phone and merged its roster. -/
def contradicted : PeerStore :=
  ((empty.put phone).merge ⟨1⟩ ⟨3⟩ contradictory (.ok ())).2

theorem lists_stay_wellFormed_contradicted :
    contradicted.Tidy ⟨1⟩ ∧ ∀ sender roster saved,
      (contradicted.merge ⟨1⟩ sender roster saved).2.get sender =
          contradicted.get sender ∧
        (contradicted.merge ⟨1⟩ sender roster saved).2.get ⟨1⟩ = none := by
  have hof : ∀ change ∈ [Change.upsert phone (.ok ()),
      .merge ⟨1⟩ ⟨3⟩ contradictory (.ok ())], change.IsOf ⟨1⟩ := by decide
  have hrun : machine.run empty [.upsert phone (.ok ()),
      .merge ⟨1⟩ ⟨3⟩ contradictory (.ok ())] = some contradicted := rfl
  exact lists_stay_wellFormed hof hrun

end Contradictory

end PeerStore

end Cled.Lan
