import Cled.Sync.Item
import Cled.Sync.RecentSet

/-!
# The sync engine

`SyncEngine` decides, per device, what to broadcast and what to apply.  Each
call is a function from the engine before it to the answer and the engine after
it.  `RemoteOutcome` lists everything a received item can lead to; later proofs
use it instead of the body of `onRemoteItem`.
-/

namespace Cled.Sync

open Cled.Clipboard

/-- How many item IDs to remember for duplicate detection. -/
def recentItems : ℕ := 1000

/-- What a local clipboard change turned out to be. -/
inductive LocalChange where
  /-- A copy made on this device.  Broadcast it. -/
  | copied (item : ClipboardItem)
  /-- Cled's own write of a remote item showing up on the clipboard. -/
  | echo (item : ClipboardItem)
  deriving DecidableEq

inductive Ignored where
  | ownItem
  | duplicate
  | corrupt
  | alreadyOnClipboard
  | stale
  deriving DecidableEq

/-- What to do with an item received from another device. -/
inductive RemoteItem where
  | write (content : ClipboardContent)
  | ignore (reason : Ignored)
  deriving DecidableEq

/-- Identity of what is on the clipboard, as far as the engine knows. -/
structure Current where
  hash : ContentHash
  createdAt : SystemTime
  id : ItemId
  deriving DecidableEq

namespace Current

def of (item : ClipboardItem) : Current :=
  { hash := item.contentHash, createdAt := item.createdAt, id := item.id }

def key (current : Current) : ItemKey := toLex (current.createdAt, current.id)

def IsNewerThan (current : Current) (item : ClipboardItem) : Prop :=
  current.key > item.key

instance (current : Current) (item : ClipboardItem) :
    Decidable (current.IsNewerThan item) :=
  inferInstanceAs (Decidable (item.key < current.key))

end Current

structure SyncEngine where
  device : DeviceId
  seen : RecentSet ItemId
  /-- Remote item Cled is writing, until its echo arrives. -/
  pendingWrite : Option ClipboardItem
  current : Option Current
  deriving DecidableEq

namespace SyncEngine

def new (device : DeviceId) : SyncEngine :=
  { device
    seen := RecentSet.new recentItems
    pendingWrite := none
    current := none }

variable (blake3 : Blake3)

/-- The end of `on_local_change`: the change is a new copy. -/
def copyLocal (engine : SyncEngine) (content : ClipboardContent)
    (stamp : Stamp) : LocalChange × SyncEngine :=
  let item := ClipboardItem.new blake3 stamp engine.device content
  (.copied item,
    { engine with
      pendingWrite := none
      seen := (engine.seen.insert item.id).2
      current := some (Current.of item) })

/-- The local clipboard changed to `content`.  A pending write is taken either
way; it is an echo if the content hash matches. -/
def onLocalChange (engine : SyncEngine) (content : ClipboardContent)
    (stamp : Stamp) : LocalChange × SyncEngine :=
  match engine.pendingWrite with
  | some pending =>
      if pending.contentHash = ContentHash.of blake3 content then
        (.echo pending,
          { engine with
            pendingWrite := none
            current := some (Current.of pending) })
      else engine.copyLocal blake3 content stamp
  | none => engine.copyLocal blake3 content stamp

/-- The end of `on_remote_item`: remember the item and have it written. -/
def acceptRemote (engine : SyncEngine) (item : ClipboardItem) :
    RemoteItem × SyncEngine :=
  (.write item.content, { engine with pendingWrite := some item })

/-- An item arrived from another device. -/
def onRemoteItem (engine : SyncEngine) (item : ClipboardItem) :
    RemoteItem × SyncEngine :=
  if item.origin = engine.device then (.ignore .ownItem, engine)
  else if ¬ item.IsIntact blake3 then (.ignore .corrupt, engine)
  else
    let (isNew, seen) := engine.seen.insert item.id
    let engine := { engine with seen }
    if ¬ isNew then (.ignore .duplicate, engine)
    else
      match engine.current with
      | some current =>
          if current.IsNewerThan item then (.ignore .stale, engine)
          else if current.hash = item.contentHash then
            -- Same content, newer item: adopt its identity.
            (.ignore .alreadyOnClipboard,
              { engine with current := some (Current.of item) })
          else engine.acceptRemote item
      | none => engine.acceptRemote item

/-- A received item whose write, if it needs one, is applied and echoed. -/
def settleRemote (engine : SyncEngine) (item : ClipboardItem)
    (stamp : Stamp) : SyncEngine :=
  match engine.onRemoteItem blake3 item with
  | (.write content, engine) => (engine.onLocalChange blake3 content stamp).2
  | (.ignore _, engine) => engine

/-- Writing the content of a `RemoteItem.write` to the clipboard failed. -/
def onWriteFailed (engine : SyncEngine) : SyncEngine :=
  { engine with pendingWrite := none }

/-! ## What a local change does -/

theorem onLocalChange_echo {engine : SyncEngine} {pending : ClipboardItem}
    {content : ClipboardContent} (stamp : Stamp)
    (hpending : engine.pendingWrite = some pending)
    (hhash : pending.contentHash = ContentHash.of blake3 content) :
    engine.onLocalChange blake3 content stamp =
      (.echo pending,
        { engine with
          pendingWrite := none
          current := some (Current.of pending) }) := by
  simp [onLocalChange, hpending, hhash]

theorem onLocalChange_copied {engine : SyncEngine}
    {content : ClipboardContent} (stamp : Stamp)
    (hpending : ∀ pending ∈ engine.pendingWrite,
      pending.contentHash ≠ ContentHash.of blake3 content) :
    engine.onLocalChange blake3 content stamp =
      engine.copyLocal blake3 content stamp := by
  unfold onLocalChange
  split
  · next pending heq => rw [if_neg (hpending pending heq)]
  · rfl

/-- A change that turns out to be a copy leaves the engine of `copyLocal`. -/
theorem eq_copyLocal_of_copied {engine after : SyncEngine}
    {content : ClipboardContent} {stamp : Stamp} {item : ClipboardItem}
    (hchange : engine.onLocalChange blake3 content stamp =
      (.copied item, after)) :
    engine.copyLocal blake3 content stamp = (.copied item, after) := by
  unfold onLocalChange at hchange
  split at hchange
  · split at hchange
    · simp at hchange
    · exact hchange
  · exact hchange

/-- The expectation of an echo never outlives a local change. -/
@[simp]
theorem onLocalChange_pendingWrite (engine : SyncEngine)
    (content : ClipboardContent) (stamp : Stamp) :
    (engine.onLocalChange blake3 content stamp).2.pendingWrite = none := by
  unfold onLocalChange
  split
  · split <;> rfl
  · rfl

/-! ## What a received item does -/

/-- `item` gets past the checks for own, corrupt, repeated and stale items. -/
def Passes (engine : SyncEngine) (item : ClipboardItem) : Prop :=
  item.origin ≠ engine.device ∧ item.IsIntact blake3 ∧
    item.id ∉ engine.seen.members ∧
    ∀ current ∈ engine.current, ¬ current.IsNewerThan item

/-- The content of `item` is the current content already. -/
def Holds (engine : SyncEngine) (item : ClipboardItem) : Prop :=
  ∃ current ∈ engine.current, current.hash = item.contentHash

instance (engine : SyncEngine) (item : ClipboardItem) :
    Decidable (engine.Passes blake3 item) :=
  inferInstanceAs (Decidable (_ ∧ _ ∧ _ ∧ _))

instance (engine : SyncEngine) (item : ClipboardItem) :
    Decidable (engine.Holds item) :=
  inferInstanceAs (Decidable (∃ current ∈ engine.current, _))

/-- Everything `onRemoteItem` can answer, with the engine it leaves. -/
inductive RemoteOutcome (engine : SyncEngine) (item : ClipboardItem) :
    RemoteItem × SyncEngine → Prop
  | ownItem (horigin : item.origin = engine.device) :
      RemoteOutcome engine item (.ignore .ownItem, engine)
  | corrupt (hbroken : ¬ item.IsIntact blake3) :
      RemoteOutcome engine item (.ignore .corrupt, engine)
  | duplicate (hseen : item.id ∈ engine.seen.members) :
      RemoteOutcome engine item (.ignore .duplicate, engine)
  | stale (current : Current) (hcurrent : engine.current = some current)
      (hnewer : current.IsNewerThan item) :
      RemoteOutcome engine item
        (.ignore .stale,
          { engine with seen := (engine.seen.insert item.id).2 })
  | adopted (hpasses : engine.Passes blake3 item) (current : Current)
      (hcurrent : engine.current = some current)
      (hhash : current.hash = item.contentHash) :
      RemoteOutcome engine item
        (.ignore .alreadyOnClipboard,
          { engine with
            seen := (engine.seen.insert item.id).2
            current := some (Current.of item) })
  | written (hpasses : engine.Passes blake3 item)
      (hholds : ¬ engine.Holds item) :
      RemoteOutcome engine item
        (.write item.content,
          { engine with
            seen := (engine.seen.insert item.id).2
            pendingWrite := some item })

theorem onRemoteItem_outcome (engine : SyncEngine) (item : ClipboardItem) :
    RemoteOutcome blake3 engine item (engine.onRemoteItem blake3 item) := by
  obtain ⟨device, seen, pendingWrite, known⟩ := engine
  unfold onRemoteItem
  by_cases horigin : item.origin = device
  · rw [if_pos horigin]
    exact .ownItem horigin
  rw [if_neg horigin]
  by_cases hintact : item.IsIntact blake3
  swap
  · rw [if_pos hintact]
    exact .corrupt hintact
  rw [if_neg (not_not.mpr hintact)]
  by_cases hseen : item.id ∈ seen.members
  · simp only [RecentSet.insert_of_mem hseen, Bool.false_eq_true,
      not_false_eq_true, if_true]
    exact .duplicate hseen
  have hnew : (seen.insert item.id).1 = true := by
    simpa [RecentSet.insert_fst] using hseen
  simp only [hnew, not_true_eq_false, if_false]
  cases known with
  | none =>
      exact .written ⟨horigin, hintact, hseen, by simp⟩ (by simp [Holds])
  | some current =>
      dsimp only
      by_cases hnewer : current.IsNewerThan item
      · rw [if_pos hnewer]
        exact .stale current rfl hnewer
      have hpasses : Passes blake3
          ⟨device, seen, pendingWrite, some current⟩ item :=
        ⟨horigin, hintact, hseen, by simpa using hnewer⟩
      rw [if_neg hnewer]
      by_cases hhash : current.hash = item.contentHash
      · rw [if_pos hhash]
        exact .adopted hpasses current rfl hhash
      rw [if_neg hhash]
      exact .written hpasses (by simpa [Holds] using hhash)

/-- Once settled, an engine that had a current item shows it or the received
one. -/
theorem settleRemote_current_or {engine : SyncEngine} {own : Current}
    (item : ClipboardItem) (stamp : Stamp)
    (hcurrent : engine.current = some own) :
    (engine.settleRemote blake3 item stamp).current = some own ∨
      (engine.settleRemote blake3 item stamp).current =
        some (Current.of item) := by
  have houtcome := engine.onRemoteItem_outcome blake3 item
  unfold settleRemote
  generalize engine.onRemoteItem blake3 item = answer at houtcome ⊢
  cases houtcome with
  | adopted _ _ _ _ => exact Or.inr rfl
  | written hpasses _ =>
      refine Or.inr ?_
      dsimp only
      rw [onLocalChange_echo blake3 stamp rfl hpasses.2.1.symm]
  | _ => exact Or.inl hcurrent

/-- Of its current item and a received one it had not seen, a settled engine
shows the received one unless its own is newer. -/
theorem settleRemote_current {engine : SyncEngine} {own : Current}
    {item : ClipboardItem} (stamp : Stamp)
    (hcurrent : engine.current = some own)
    (horigin : item.origin ≠ engine.device) (hintact : item.IsIntact blake3)
    (hfresh : item.id ∉ engine.seen.members) :
    (engine.settleRemote blake3 item stamp).current =
      if own.IsNewerThan item then some own else some (Current.of item) := by
  have houtcome := engine.onRemoteItem_outcome blake3 item
  unfold settleRemote
  generalize engine.onRemoteItem blake3 item = answer at houtcome ⊢
  cases houtcome with
  | ownItem hown => exact absurd hown horigin
  | corrupt hbroken => exact absurd hintact hbroken
  | duplicate hseen => exact absurd hseen hfresh
  | stale current hshown hnewer =>
      obtain rfl : current = own := Option.mem_unique hshown hcurrent
      rw [if_pos hnewer]
      exact hcurrent
  | adopted hpasses _ _ _ =>
      rw [if_neg (hpasses.2.2.2 own hcurrent)]
  | written hpasses _ =>
      rw [if_neg (hpasses.2.2.2 own hcurrent)]
      dsimp only
      rw [onLocalChange_echo blake3 stamp rfl hintact.symm]

end SyncEngine

end Cled.Sync
