import Cled.Core.Machine
import Cled.Sync.Engine

/-!
# Newest wins, one engine at a time

An engine is called in any order: local changes, received items, failed writes.
The ledger beside it records the items it has answered with a write since its
last copy or failed write.  An item waits in `pendingWrite` until its echo, and
the engine compares received items with `current` only, so newest wins exactly
as long as nothing received overtakes the pending write the wrong way.
-/

namespace Cled.Sync

open Cled.Clipboard Cled.Core

/-- One call to an engine. -/
inductive Call where
  | localChange (content : ClipboardContent) (stamp : Stamp)
  | remoteItem (item : ClipboardItem)
  | writeFailed

structure Ledger where
  engine : SyncEngine
  /-- Items answered with a write since the last copy or failed write. -/
  accepted : List ClipboardItem

namespace Ledger

variable (blake3 : Blake3)

def start (device : DeviceId) : Ledger := ⟨SyncEngine.new device, []⟩

def afterLocal (ledger : Ledger) :
    LocalChange × SyncEngine → Ledger
  | (.copied _, engine) => ⟨engine, []⟩
  | (.echo _, engine) => ⟨engine, ledger.accepted⟩

def afterRemote (ledger : Ledger) (item : ClipboardItem) :
    RemoteItem × SyncEngine → Ledger
  | (.write _, engine) => ⟨engine, item :: ledger.accepted⟩
  | (.ignore _, engine) => ⟨engine, ledger.accepted⟩

def step (ledger : Ledger) : Call → Option Ledger
  | .localChange content stamp =>
      some (ledger.afterLocal
        (ledger.engine.onLocalChange blake3 content stamp))
  | .remoteItem item =>
      some (ledger.afterRemote item (ledger.engine.onRemoteItem blake3 item))
  | .writeFailed => some ⟨ledger.engine.onWriteFailed, []⟩

def machine : Machine Ledger Call := ⟨step blake3⟩

/-- `key` is the key of the current item or of an accepted one. -/
def IsAccepted (ledger : Ledger) (key : ItemKey) : Prop :=
  (∃ current ∈ ledger.engine.current, current.key = key) ∨
    ∃ item ∈ ledger.accepted, item.key = key

/-- A received item older than an accepted one is ignored, and an echo makes no
item current that is older than an accepted one. -/
def NewestWins (ledger : Ledger) : Call → Prop
  | .localChange content stamp =>
      ∀ item, (ledger.engine.onLocalChange blake3 content stamp).1 = .echo item →
        ∃ current ∈
            (ledger.engine.onLocalChange blake3 content stamp).2.current,
          ∀ key, ledger.IsAccepted key → key ≤ current.key
  | .remoteItem item =>
      (∃ key, ledger.IsAccepted key ∧ item.key < key) →
        ∃ reason,
          (ledger.engine.onRemoteItem blake3 item).1 = .ignore reason
  | .writeFailed => True

/-- While a write is pending, a received item that passes the checks is not
older than the pending one; if its content is the current content, it is not
newer. -/
def KeepsOrder (ledger : Ledger) : Call → Prop
  | .remoteItem item =>
      ledger.engine.Passes blake3 item →
        ∀ pending ∈ ledger.engine.pendingWrite,
          if ledger.engine.Holds item then item.key ≤ pending.key
          else pending.key ≤ item.key
  | _ => True

instance (ledger : Ledger) (call : Call) :
    Decidable (ledger.KeepsOrder blake3 call) :=
  match call with
  | .remoteItem item => inferInstanceAs (Decidable
      (ledger.engine.Passes blake3 item →
        ∀ pending ∈ ledger.engine.pendingWrite,
          if ledger.engine.Holds item then item.key ≤ pending.key
          else pending.key ≤ item.key))
  | .localChange _ _ => inferInstanceAs (Decidable True)
  | .writeFailed => inferInstanceAs (Decidable True)

/-- The newest accepted item is the pending one, or the current one when no
write is pending. -/
structure Inv (ledger : Ledger) : Prop where
  pending : ∀ pending ∈ ledger.engine.pendingWrite,
    ∀ key, ledger.IsAccepted key → key ≤ pending.key
  idle : ledger.engine.pendingWrite = none → ∀ item ∈ ledger.accepted,
    ∃ current ∈ ledger.engine.current, item.key ≤ current.key

theorem inv_start (device : DeviceId) : (start device).Inv where
  pending _ hmem := absurd hmem (Option.not_mem_none _)
  idle _ _ hmem := absurd hmem List.not_mem_nil

variable {blake3}

/-- An item that is about to be written is at least as new as everything
accepted. -/
theorem accepted_le {ledger : Ledger} {item : ClipboardItem}
    (hinv : ledger.Inv)
    (hcurrent : ∀ current ∈ ledger.engine.current, ¬ current.IsNewerThan item)
    (hpending : ∀ pending ∈ ledger.engine.pendingWrite,
      pending.key ≤ item.key) :
    ∀ key, ledger.IsAccepted key → key ≤ item.key := by
  intro key hkey
  cases hslot : ledger.engine.pendingWrite with
  | some pending =>
      exact (hinv.pending pending hslot key hkey).trans
        (hpending pending hslot)
  | none =>
      rcases hkey with ⟨current, hmem, rfl⟩ | ⟨other, hmem, rfl⟩
      · exact not_lt.mp (hcurrent current hmem)
      · obtain ⟨current, hshown, hle⟩ := hinv.idle hslot other hmem
        exact hle.trans (not_lt.mp (hcurrent current hshown))

theorem newestWins_of_keepsOrder (ledger : Ledger) (call : Call)
    (hinv : ledger.Inv) (hkeeps : ledger.KeepsOrder blake3 call) :
    ledger.NewestWins blake3 call := by
  cases call with
  | localChange content stamp =>
      intro item hecho
      cases hslot : ledger.engine.pendingWrite with
      | none =>
          rw [SyncEngine.onLocalChange_copied blake3 stamp (by simp [hslot])]
            at hecho
          simp [SyncEngine.copyLocal] at hecho
      | some pending =>
          by_cases hhash : pending.contentHash = ContentHash.of blake3 content
          · rw [SyncEngine.onLocalChange_echo blake3 stamp hslot hhash]
            exact ⟨Current.of pending, rfl, hinv.pending pending hslot⟩
          · rw [SyncEngine.onLocalChange_copied blake3 stamp
              (by simpa [hslot] using hhash)] at hecho
            simp [SyncEngine.copyLocal] at hecho
  | remoteItem item =>
      rintro ⟨key, haccepted, hlt⟩
      have houtcome := ledger.engine.onRemoteItem_outcome blake3 item
      generalize ledger.engine.onRemoteItem blake3 item = answer
        at houtcome ⊢
      cases houtcome with
      | written hpasses hholds =>
          have hpending : ∀ pending ∈ ledger.engine.pendingWrite,
              pending.key ≤ item.key := fun pending hmem => by
            simpa [hholds] using hkeeps hpasses pending hmem
          exact absurd hlt (not_lt.mpr
            (accepted_le hinv hpasses.2.2.2 hpending key haccepted))
      | _ => exact ⟨_, rfl⟩
  | writeFailed => trivial

theorem inv_afterRemote {ledger : Ledger} {item : ClipboardItem}
    (hinv : ledger.Inv)
    (hkeeps : ledger.KeepsOrder blake3 (.remoteItem item)) :
    (ledger.afterRemote item
      (ledger.engine.onRemoteItem blake3 item)).Inv := by
  have houtcome := ledger.engine.onRemoteItem_outcome blake3 item
  generalize ledger.engine.onRemoteItem blake3 item = answer at houtcome ⊢
  cases houtcome with
  | ownItem _ => exact hinv
  | corrupt _ => exact hinv
  | duplicate _ => exact hinv
  | stale current hcurrent hnewer =>
      exact ⟨hinv.pending, hinv.idle⟩
  | adopted hpasses current hcurrent hhash =>
      have hholds : ledger.engine.Holds item := ⟨current, hcurrent, hhash⟩
      have hle : current.key ≤ item.key :=
        not_lt.mp (hpasses.2.2.2 current hcurrent)
      constructor
      case pending =>
        intro pending hslot key hkey
        have hitem : item.key ≤ pending.key := by
          simpa [hholds] using hkeeps hpasses pending hslot
        rcases hkey with ⟨shown, ⟨rfl⟩, rfl⟩ | haccepted
        · exact hitem
        · exact hinv.pending pending hslot key (Or.inr haccepted)
      case idle =>
        intro hslot other hother
        obtain ⟨shown, hshown, hother⟩ := hinv.idle hslot other hother
        obtain rfl : shown = current :=
          Option.mem_unique hshown hcurrent
        exact ⟨Current.of item, rfl, hother.trans hle⟩
  | written hpasses hholds =>
      have hpending : ∀ pending ∈ ledger.engine.pendingWrite,
          pending.key ≤ item.key := fun pending hmem => by
        simpa [hholds] using hkeeps hpasses pending hmem
      have hle := accepted_le hinv hpasses.2.2.2 hpending
      constructor
      case pending =>
        rintro _ ⟨rfl⟩ key (hcurrent | ⟨other, hother, rfl⟩)
        · exact hle key (Or.inl hcurrent)
        · rcases List.mem_cons.mp hother with rfl | hother
          · exact le_rfl
          · exact hle _ (Or.inr ⟨other, hother, rfl⟩)
      case idle =>
        intro hslot
        exact absurd hslot (Option.some_ne_none _)

theorem inv_afterLocal {ledger : Ledger} (content : ClipboardContent)
    (stamp : Stamp) (hinv : ledger.Inv) :
    (ledger.afterLocal
      (ledger.engine.onLocalChange blake3 content stamp)).Inv := by
  have hcopied : (ledger.afterLocal
      (ledger.engine.copyLocal blake3 content stamp)).Inv :=
    ⟨fun _ hmem => absurd hmem (Option.not_mem_none _),
      fun _ _ hmem => absurd hmem List.not_mem_nil⟩
  cases hslot : ledger.engine.pendingWrite with
  | none =>
      rw [SyncEngine.onLocalChange_copied blake3 stamp (by simp [hslot])]
      exact hcopied
  | some pending =>
      by_cases hhash : pending.contentHash = ContentHash.of blake3 content
      · rw [SyncEngine.onLocalChange_echo blake3 stamp hslot hhash]
        refine ⟨fun _ hmem => absurd hmem (Option.not_mem_none _), ?_⟩
        intro _ item hitem
        exact ⟨Current.of pending, rfl,
          hinv.pending pending hslot item.key (Or.inr ⟨item, hitem, rfl⟩)⟩
      · rw [SyncEngine.onLocalChange_copied blake3 stamp
          (by simpa [hslot] using hhash)]
        exact hcopied

theorem inv_step (ledger : Ledger) (call : Call) (next : Ledger)
    (hinv : ledger.Inv) (hkeeps : ledger.KeepsOrder blake3 call)
    (hstep : (machine blake3).step ledger call = some next) : next.Inv := by
  cases call with
  | localChange content stamp =>
      cases hstep
      exact inv_afterLocal content stamp hinv
  | remoteItem item =>
      cases hstep
      exact inv_afterRemote hinv hkeeps
  | writeFailed =>
      cases hstep
      exact ⟨fun _ hmem => absurd hmem (Option.not_mem_none _),
        fun _ _ hmem => absurd hmem List.not_mem_nil⟩

/-- In every sequence of calls in which no received item overtakes the pending
write the wrong way, newest wins at every call. -/
theorem newestWins_along (device : DeviceId) (calls : List Call)
    (hkeeps : (machine blake3).Along (KeepsOrder blake3) (start device) calls) :
    (machine blake3).Along (NewestWins blake3) (start device) calls :=
  Machine.along_of_invariant newestWins_of_keepsOrder inv_step
    (inv_start device) hkeeps

/-! ## Two items before the first echo -/

section Overtaken

def receiver : DeviceId := ⟨1⟩

def remote (content : String) (createdAt : SystemTime) : ClipboardItem :=
  ClipboardItem.new shortDigest ⟨⟨BitVec.ofInt 128 createdAt⟩, createdAt⟩ ⟨2⟩
    (.text content)

/-- The older of two items arrives while the newer one is being written. -/
def overtaken : List Call :=
  [.remoteItem (remote "newer" 20), .remoteItem (remote "older" 10)]

/-- The engine answers the older item with a write. -/
theorem not_newestWins_overtaken :
    ¬ (machine shortDigest).Along (NewestWins shortDigest) (start receiver)
      overtaken := by
  rintro ⟨_, htail⟩
  obtain ⟨hsecond, _⟩ := htail _ rfl
  obtain ⟨reason, hreason⟩ := hsecond
    ⟨(remote "newer" 20).key, Or.inr ⟨remote "newer" 20, by decide, rfl⟩,
      by decide⟩
  revert hreason
  cases reason <;> decide

/-- In order, with the echo of the first write in between. -/
def inOrder : List Call :=
  [.remoteItem (remote "older" 10), .localChange (.text "older") ⟨⟨3⟩, 15⟩,
    .remoteItem (remote "newer" 20)]

theorem newestWins_inOrder :
    (machine shortDigest).Along (NewestWins shortDigest) (start receiver)
      inOrder :=
  newestWins_along receiver inOrder (by decide)

end Overtaken

end Ledger

end Cled.Sync
