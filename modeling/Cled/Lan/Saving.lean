import Cled.Lan.News

/-!
# When saving fails

Every operation changes the store in memory first and saves it last.  So if
saving fails the change stays in memory, the file has not heard of it, and
repeating the operation finds its work done already.  An operation fails cleanly
only if it has nothing to change.
-/

namespace Cled.Lan

open Cled.Core Cled.Sync

namespace PeerStore

/-- What an operation answers. -/
inductive Answer where
  | done
  | removed (peer : Option Peer)
  | merged (change : RosterChange)
  deriving DecidableEq

/-- The answer to a change, and the store after it. -/
def call (store : PeerStore) : Change → Except LanError Answer × PeerStore
  | .upsert peer saved =>
      let (result, after) := store.upsert peer saved
      (result.map fun _ => .done, after)
  | .seen id name address saved =>
      let (result, after) := store.seen id name address saved
      (result.map fun _ => .done, after)
  | .remove id removedAtMs saved =>
      let (result, after) := store.remove id removedAtMs saved
      (result.map .removed, after)
  | .clear saved =>
      let (result, after) := store.clear saved
      (result.map fun _ => .done, after)
  | .markNotified id saved =>
      let (result, after) := store.markNotified id saved
      (result.map fun _ => .done, after)
  | .merge me sender roster saved =>
      let (result, after) := store.merge me sender roster saved
      (result.map .merged, after)

namespace Change

/-- What saving answers. -/
def saved : Change → Except LanError Unit
  | .upsert _ saved => saved
  | .seen _ _ _ saved => saved
  | .remove _ _ saved => saved
  | .clear saved => saved
  | .markNotified _ saved => saved
  | .merge _ _ _ saved => saved

/-- The same change once saving works. -/
def saving : Change → Change
  | .upsert peer _ => .upsert peer (.ok ())
  | .seen id name address _ => .seen id name address (.ok ())
  | .remove id removedAtMs _ => .remove id removedAtMs (.ok ())
  | .clear _ => .clear (.ok ())
  | .markNotified id _ => .markNotified id (.ok ())
  | .merge me sender roster _ => .merge me sender roster (.ok ())

end Change

/-- A change that returns an error leaves the store as it was, and has its full
effect when it is repeated. -/
def FailsCleanly (store : PeerStore) (change : Change) : Prop :=
  (store.call change).1.isOk = false →
    (store.call change).2 = store ∧
      (store.call change).2.call change.saving = store.call change.saving

instance (store : PeerStore) (change : Change) :
    Decidable (store.FailsCleanly change) :=
  inferInstanceAs (Decidable (_ → _ ∧ _))

/-- The store is already as the change wants it. -/
def NothingToChange (store : PeerStore) : Change → Prop
  | .upsert peer _ => store.peers.getLast? = some peer
  | .seen id name address _ =>
      ∀ known ∈ store.get id,
        known.name = name ∧ ∀ place ∈ address, known.lastAddress = some place
  | .remove id _ _ => store.get id = none
  | .clear _ => store.peers = []
  | .markNotified id _ => store.getRemoved id = none
  | .merge me sender roster _ => NoNews me sender store roster

instance (store : PeerStore) (change : Change) :
    Decidable (store.NothingToChange change) := by
  apply change.casesOn (motive := fun change =>
    Decidable (store.NothingToChange change))
  all_goals
    intros
    dsimp only [NothingToChange]
    infer_instance

/-- A merge does not have to forget a removal. -/
def ForgetsNothing (store : PeerStore) : Change → Prop
  | .merge _ _ roster _ => store.Fits roster
  | _ => True

instance (store : PeerStore) (change : Change) :
    Decidable (store.ForgetsNothing change) := by
  apply change.casesOn (motive := fun change =>
    Decidable (store.ForgetsNothing change))
  all_goals
    intros
    dsimp only [ForgetsNothing]
    infer_instance

theorem call_store (store : PeerStore) (change : Change) :
    (store.call change).2 = store.apply change := by
  cases change <;> rfl

/-! ## Nothing to change -/

section

variable {store : PeerStore}

theorem put_eq_self_iff (hwell : store.WellFormed) (peer : Peer) :
    store.put peer = store ↔ store.peers.getLast? = some peer := by
  constructor
  · intro hsame
    have hpeers := congrArg PeerStore.peers hsame
    rw [← hpeers]
    exact List.getLast?_concat
  · intro hlast
    obtain ⟨front, hfront⟩ := List.getLast?_eq_some_iff.mp hlast
    have hmem : peer ∈ store.peers := hfront ▸ List.mem_concat_self
    have hget : store.get peer.deviceId = some peer :=
      Table.lookup_of_mem hwell.peers hmem
    have hremoval := (hwell.apart peer.deviceId).resolve_left (by simp [hget])
    have hnew : Table.lookup Peer.deviceId front peer.deviceId = none :=
      Table.UniqueKeys.lookup_concat_eq_none (hfront ▸ hwell.peers)
    have hpeers : Table.without Peer.deviceId store.peers peer.deviceId ++
        [peer] = store.peers := by
      have hfrontKept := Table.without_of_lookup_eq_none hnew
      unfold Table.without at hfrontKept ⊢
      rw [hfront, List.filter_append, hfrontKept]
      simp
    rw [put, hpeers, Table.without_of_lookup_eq_none hremoval]

theorem apply_of_nothingToChange (hwell : store.WellFormed) {change : Change}
    (hnothing : store.NothingToChange change) : store.apply change = store := by
  cases change with
  | upsert peer saved => exact (put_eq_self_iff hwell peer).mpr hnothing
  | seen id name address saved =>
      unfold apply seen
      dsimp only
      cases hget : store.get id with
      | none => rfl
      | some known =>
          obtain ⟨hname, haddress⟩ := hnothing known hget
          have hsame : known.lastAddress = address.or known.lastAddress := by
            cases address with
            | none => rfl
            | some place => exact haddress place rfl
          exact congrArg Prod.snd (if_pos ⟨hname, hsame⟩)
  | remove id removedAtMs saved =>
      have hget : store.get id = none := hnothing
      rw [apply, remove, hget]
  | clear saved =>
      have hpeers : store.peers = [] := hnothing
      rw [apply, clear, ← hpeers]
  | markNotified id saved =>
      have hnone : store.getRemoved id = none := hnothing
      rw [apply, markNotified, hnone]
  | merge me sender roster saved =>
      rw [apply, merge_store, mergeEntries_of_noNews me sender hwell hnothing]

/-- A call that works fails cleanly, and so does one with nothing to change. -/
theorem failsCleanly_of_nothingToChange (hwell : store.WellFormed)
    {change : Change} (hnothing : store.NothingToChange change) :
    store.FailsCleanly change := by
  intro _
  rw [call_store, apply_of_nothingToChange hwell hnothing]
  exact ⟨rfl, rfl⟩

theorem isOk_map {α β : Type} (result : Except LanError α) (answer : α → β) :
    (result.map answer).isOk = result.isOk := by
  cases result <;> rfl

theorem eq_ok_of_isOk {result : Except LanError Unit}
    (hok : result.isOk = true) : result = .ok () := by
  cases result with
  | ok => rfl
  | error => contradiction

theorem call_isOk (store : PeerStore) {change : Change}
    (hsaved : change.saved.isOk = true) :
    (store.call change).1.isOk = true := by
  have hok := eq_ok_of_isOk hsaved
  cases change with
  | upsert peer saved => exact (isOk_map _ _).trans hsaved
  | seen id name address saved =>
      obtain rfl : saved = .ok () := hok
      have hresult : (store.seen id name address (.ok ())).1.isOk = true := by
        unfold seen
        split
        · rfl
        dsimp only
        split
        · rfl
        · rfl
      exact (isOk_map _ _).trans hresult
  | remove id removedAtMs saved =>
      obtain rfl : saved = .ok () := hok
      have hresult : (store.remove id removedAtMs (.ok ())).1.isOk = true := by
        unfold remove
        split
        · rfl
        · rfl
      exact (isOk_map _ _).trans hresult
  | clear saved => exact (isOk_map _ _).trans hsaved
  | markNotified id saved =>
      obtain rfl : saved = .ok () := hok
      have hresult : (store.markNotified id (.ok ())).1.isOk = true := by
        unfold markNotified
        split
        · rfl
        · rfl
      exact (isOk_map _ _).trans hresult
  | merge me sender roster saved =>
      obtain rfl : saved = .ok () := hok
      have hresult : (store.merge me sender roster (.ok ())).1.isOk = true := by
        unfold merge
        dsimp only
        split
        · rfl
        · rfl
      exact (isOk_map _ _).trans hresult

/-! ## Something to change -/

/-- A merge that changed something saves it. -/
def Merging.needsSave (merging : Merging) : Bool :=
  merging.dirty || !merging.change.isEmpty

theorem MemberMoves.needsSave {merging after : Merging}
    (hmoves : MemberMoves merging after) : after.needsSave = true := by
  cases hmoves with
  | known peer known _ htold =>
      unfold Merging.needsSave mergeKnown RosterChange.isEmpty
      rcases htold with hrekeys | hlocates
      · simp [hrekeys]
      · simp [hlocates]
  | joined peer _ _ => simp [Merging.needsSave, RosterChange.isEmpty]

theorem RemovalMoves.needsSave {merging after : Merging}
    {removal : RosterRemoval} (hmoves : RemovalMoves merging removal after) :
    after.needsSave = true := by
  cases hmoves with
  | dropped _ _ _ _ _ => simp [Merging.needsSave, RosterChange.isEmpty]
  | learned _ _ _ _ => simp [Merging.needsSave, RosterChange.isEmpty]

/-- Once something has to be saved, it has to be saved to the end. -/
theorem mergeMember_handlesSave (me sender : DeviceId) :
    HandlesNews (mergeMember me sender) (fun merging => merging.store.WellFormed)
      (fun _ => True)
      (fun merging entry => MemberNews me sender merging.store entry)
      fun _ after => after.needsSave = true where
  inv hwell _ := wellFormed_mergeMember me sender hwell _
  old hwell _ := mergeMember_of_not_news me sender hwell
  news hwell _ hnews := (mergeMember_of_news me sender hwell hnews).needsSave
  trans _ hafter := hafter

theorem mergeRemoval_handlesSave (me sender : DeviceId) :
    HandlesNews (mergeRemoval me sender)
      (fun merging => merging.store.WellFormed) (fun _ => True)
      (fun merging removal => RemovalNews me sender merging.store removal)
      fun _ after => after.needsSave = true where
  inv hwell _ := wellFormed_mergeRemoval me sender hwell _
  old hwell _ := mergeRemoval_of_not_news me sender hwell
  news hwell _ hnews := (mergeRemoval_of_news me sender hwell hnews).needsSave
  trans _ hafter := hafter

/-- A roster with news has to be saved. -/
theorem needsSave_mergeEntries (me sender : DeviceId) (hwell : store.WellFormed)
    {roster : Roster} (hnews : ¬ NoNews me sender store roster) :
    (store.mergeEntries me sender roster).needsSave = true := by
  let merging : Merging :=
    { store, change := RosterChange.none, dirty := false }
  have hmerging : merging.store.WellFormed := hwell
  exact (mergeMember_handlesSave me sender).foldl_foldl_forward
    (mergeRemoval_handlesSave me sender) hmerging (fun _ _ => trivial)
    (wellFormed_mergeMembers me sender _ hmerging) (fun _ _ => trivial) hnews

theorem seen_of_change {id : DeviceId} {name : String}
    {address : Option SocketAddr} {saved : Except LanError Unit}
    (hsaved : saved.isOk = false)
    (hchange : ¬ store.NothingToChange (.seen id name address saved)) :
    (store.call (.seen id name address saved)).1.isOk = false ∧
      store.apply (.seen id name address saved) ≠ store := by
  dsimp only [NothingToChange] at hchange
  push Not at hchange
  obtain ⟨known, hget, hknown⟩ := hchange
  have hother : ¬ (known.name = name ∧
      known.lastAddress = address.or known.lastAddress) := by
    rintro ⟨hname, hsame⟩
    obtain ⟨place, hplace, hne⟩ := hknown hname
    rw [Option.mem_def.mp hplace] at hsame
    exact hne hsame
  have hseen : store.seen id name address saved =
      (saved,
        { store with
          peers := Table.modifyFirst Peer.deviceId store.peers id fun peer =>
            { peer with
              name, lastAddress := address.or known.lastAddress } }) := by
    unfold seen
    rw [hget]
    exact if_neg hother
  constructor
  · have hresult : (store.seen id name address saved).1.isOk = false := by
      rwa [hseen]
    exact (isOk_map _ _).trans hresult
  · intro hsame
    rw [apply, hseen] at hsame
    have hrows := Table.lookup_modifyFirst
      (fun row => (rfl : ({ row with
          name, lastAddress := address.or known.lastAddress } :
        Peer).deviceId = row.deviceId)) store.peers id id
    have hpeers := congrArg PeerStore.peers hsame
    have hlookup : Table.lookup Peer.deviceId store.peers id = some known := hget
    dsimp only at hpeers
    rw [hpeers, if_pos rfl, hlookup, Option.map_some] at hrows
    have hknownSame := Option.some.inj hrows
    exact hother ⟨congrArg Peer.name hknownSame,
      congrArg Peer.lastAddress hknownSame⟩

theorem markNotified_of_change {id : DeviceId} {saved : Except LanError Unit}
    (hsaved : saved.isOk = false)
    (hchange : ¬ store.NothingToChange (.markNotified id saved)) :
    (store.call (.markNotified id saved)).1.isOk = false ∧
      store.apply (.markNotified id saved) ≠ store := by
  obtain ⟨peer, hpeer⟩ := Option.ne_none_iff_exists'.mp hchange
  have hmark : store.markNotified id saved =
      (saved,
        { store with
          removed := store.removed.replaceF fun removed =>
            if removed.deviceId = id ∧ removed.notified = false then
              some { removed with notified := true }
            else none }) := by
    unfold markNotified
    rw [hpeer]
  constructor
  · have hresult : (store.markNotified id saved).1.isOk = false := by
      rwa [hmark]
    exact (isOk_map _ _).trans hresult
  · intro hsame
    rw [apply, hmark] at hsame
    refine Table.replaceF_ne ?_ ?_ (congrArg PeerStore.removed hsame)
    · intro row hrow
      obtain ⟨⟨_, hold⟩, hnew⟩ := Option.ite_none_right_eq_some.mp hrow
      have hnotified := congrArg Removed.notified (Option.some.inj hnew)
      rw [hold] at hnotified
      contradiction
    · obtain ⟨row, hrow, _⟩ := Option.map_eq_some_iff.mp hpeer
      refine ⟨row, List.mem_of_find?_eq_some hrow, ?_⟩
      have hpending := List.find?_some hrow
      rw [if_pos (of_decide_eq_true hpending)]
      exact Option.some_ne_none _

/-- A call that cannot save its change returns the error and changes the store
all the same. -/
theorem call_of_change (hwell : store.WellFormed) {change : Change}
    (hsaved : change.saved.isOk = false)
    (hchange : ¬ store.NothingToChange change)
    (hforgets : store.ForgetsNothing change) :
    (store.call change).1.isOk = false ∧ store.apply change ≠ store := by
  cases change with
  | upsert peer saved =>
      exact ⟨(isOk_map _ _).trans hsaved,
        mt (put_eq_self_iff hwell peer).mp hchange⟩
  | seen id name address saved => exact seen_of_change hsaved hchange
  | remove id removedAtMs saved =>
      obtain ⟨known, hget⟩ := Option.ne_none_iff_exists'.mp hchange
      have hremove : store.remove id removedAtMs saved =
          (saved.map fun _ => some known, store.drop known removedAtMs) := by
        rw [remove, hget]
      constructor
      · have hresult : (store.remove id removedAtMs saved).1.isOk = false := by
          rw [hremove]
          exact (isOk_map _ _).trans hsaved
        exact (isOk_map _ _).trans hresult
      · intro hsame
        rw [apply, hremove] at hsame
        dsimp only at hsame
        have hgone := get_drop hwell known removedAtMs known.deviceId
        rw [if_pos rfl, hsame, (Table.mem_of_lookup hget).2, hget] at hgone
        contradiction
  | clear saved =>
      refine ⟨(isOk_map _ _).trans hsaved, fun hsame => hchange ?_⟩
      exact (congrArg PeerStore.peers hsame).symm
  | markNotified id saved => exact markNotified_of_change hsaved hchange
  | merge me sender roster saved =>
      have hneeds := needsSave_mergeEntries me sender hwell hchange
      have hmerge : store.merge me sender roster saved =
          (saved.map fun _ => (store.mergeEntries me sender roster).change,
            (store.mergeEntries me sender roster).store) := if_pos hneeds
      constructor
      · have hresult : (store.merge me sender roster saved).1.isOk = false := by
          rw [hmerge]
          exact (isOk_map _ _).trans hsaved
        exact (isOk_map _ _).trans hresult
      · rw [apply, merge_store]
        exact (mergeEntries_advances me sender hwell hforgets hchange).ne

/-- Where saving works, or there is nothing to change, an operation fails
cleanly; and unless a merge has to forget removals, nowhere else. -/
theorem failsCleanly_iff (hreach : store.Reachable) (change : Change) :
    (change.saved.isOk = true ∨ store.NothingToChange change →
        store.FailsCleanly change) ∧
      (store.ForgetsNothing change → store.FailsCleanly change →
        change.saved.isOk = true ∨ store.NothingToChange change) := by
  have hwell := hreach.wellFormed
  constructor
  · rintro (hsaved | hnothing)
    · intro hfails
      rw [call_isOk store hsaved] at hfails
      contradiction
    · exact failsCleanly_of_nothingToChange hwell hnothing
  · intro hforgets hclean
    by_contra hneither
    obtain ⟨hsaved, hchange⟩ := not_or.mp hneither
    obtain ⟨hfails, hne⟩ :=
      call_of_change hwell (Bool.eq_false_iff.mpr hsaved) hchange hforgets
    exact hne ((call_store store change).symm.trans (hclean hfails).1)

end

section Unsaved

/-- The disk is full. -/
def diskFull : Except LanError Unit := .error (.io "disk full")

/-- Another device tells that the laptop was removed, and saving fails. -/
def unsavedRemoval : Change := .merge ⟨1⟩ ⟨2⟩ (unpaired 10 15).roster diskFull

/-- The laptop is gone from memory, and hearing of its removal again reports
nothing. -/
theorem not_failsCleanly_unsavedRemoval :
    (paired 10).Reachable ∧ ¬ (paired 10).FailsCleanly unsavedRemoval ∧
      ((paired 10).apply unsavedRemoval).call unsavedRemoval.saving =
        (.ok (.merged RosterChange.none),
          (paired 10).apply unsavedRemoval) ∧
      ((paired 10).call unsavedRemoval.saving).1 =
        .ok (.merged { RosterChange.none with removed := [⟨5⟩] }) :=
  ⟨paired_reachable 10, by decide, by decide, by decide⟩

/-- Another device tells of the laptop as it is listed here. -/
def oldNews : Change := .merge ⟨1⟩ ⟨2⟩ (paired 10).roster diskFull

theorem failsCleanly_oldNews :
    (paired 10).FailsCleanly oldNews ∧
      (oldNews.saved.isOk = true ∨ (paired 10).NothingToChange oldNews) :=
  have hiff := failsCleanly_iff (paired_reachable 10) oldNews
  ⟨hiff.1 (by decide), hiff.2 (by decide) (by decide)⟩

end Unsaved

end PeerStore

end Cled.Lan
