import Cled.Clipboard.LineBreaks
import Cled.Sync.Engine
import Cled.Sync.Identity

/-!
# Recognizing echoes

Text that Cled writes for another device comes back from the clipboard as a
local change.  However the operating system hands it back, the change is the
echo of the item that was written.
-/

namespace Cled.Sync

open Cled.Clipboard

/-- Nothing about the written text is lost up to its identity. -/
theorem sameIdentity_of_handedBack {written returned : String}
    (hnormal : (ClipboardContent.text written).Normalized)
    (hback : HandedBack written returned) :
    SameIdentity (.text written) (ClipboardContent.ofText returned) :=
  (trimEnd_of_handedBack hnormal hback).symm

/-- Received items the engine ignores, one after another. -/
inductive Ignoring (blake3 : Blake3) : SyncEngine → SyncEngine → Prop
  | none (engine : SyncEngine) : Ignoring blake3 engine engine
  | item {engine next after : SyncEngine} (item : ClipboardItem)
      (reason : Ignored)
      (hignored : engine.onRemoteItem blake3 item = (.ignore reason, next))
      (hrest : Ignoring blake3 next after) : Ignoring blake3 engine after

namespace SyncEngine

variable {blake3 : Blake3} {engine after : SyncEngine}

theorem onRemoteItem_write {item : ClipboardItem} {content : ClipboardContent}
    (hwrite : engine.onRemoteItem blake3 item = (.write content, after)) :
    content = item.content ∧ item.IsIntact blake3 ∧
      after.pendingWrite = some item := by
  have houtcome := engine.onRemoteItem_outcome blake3 item
  rw [hwrite] at houtcome
  cases houtcome with
  | written hpasses _ => exact ⟨rfl, hpasses.2.1, rfl⟩

theorem onRemoteItem_ignore_pendingWrite {item : ClipboardItem}
    {reason : Ignored}
    (hignored : engine.onRemoteItem blake3 item = (.ignore reason, after)) :
    after.pendingWrite = engine.pendingWrite := by
  have houtcome := engine.onRemoteItem_outcome blake3 item
  rw [hignored] at houtcome
  cases houtcome <;> rfl

theorem pendingWrite_of_ignoring (hignoring : Ignoring blake3 engine after) :
    after.pendingWrite = engine.pendingWrite := by
  induction hignoring with
  | none => rfl
  | item item reason hignored _ ih =>
      exact ih.trans (onRemoteItem_ignore_pendingWrite hignored)

end SyncEngine

/-- After a text was written for a received item, the next local change is the
echo of that item, in whatever form the text comes back; and the change detector
that saw the written text sees no change. -/
theorem handedBack_echo {blake3 : Blake3} {engine written last : SyncEngine}
    {item : ClipboardItem} {raw body returned : String} (hasher : Hasher)
    (detector : ChangeDetector) (stamp : Stamp)
    (htext : item.content = ClipboardContent.ofText raw)
    (hwrite : engine.onRemoteItem blake3 item = (.write (.text body), written))
    (hback : HandedBack body returned)
    (hignoring : Ignoring blake3 written last) :
    last.onLocalChange blake3 (ClipboardContent.ofText returned) stamp =
        (.echo item,
          { last with
            pendingWrite := none
            current := some (Current.of item) }) ∧
      ((detector.observe hasher (.content (.text body))).2.observe hasher
        (.content (ClipboardContent.ofText returned))).1 = false := by
  obtain ⟨hcontent, hintact, hpending⟩ := SyncEngine.onRemoteItem_write hwrite
  have hnormal : (ClipboardContent.text body).Normalized := by
    rw [hcontent, htext]
    exact ClipboardContent.ofText_normalized raw
  have hsame := sameIdentity_of_handedBack hnormal hback
  constructor
  · apply SyncEngine.onLocalChange_echo
    · rw [SyncEngine.pendingWrite_of_ignoring hignoring, hpending]
    · calc item.contentHash = ContentHash.of blake3 (.text body) := by
            rw [hcontent]
            exact hintact.symm
        _ = ContentHash.of blake3 (ClipboardContent.ofText returned) := by
            rw [ContentHash.of, ContentHash.of, input_eq_iff.mpr hsame]
  · rw [observe_twice, Snapshot.fingerprint_eq_map, Snapshot.fingerprint_eq_map,
      hashInput_content_eq_iff.mpr hsame]

section TwoLines

def twoLines : ClipboardItem :=
  ClipboardItem.new shortDigest ⟨⟨7⟩, 20⟩ ⟨2⟩ (ClipboardContent.ofText "a\r\nb")

/-- The engine that had `twoLines` written. -/
def twoLinesWritten : SyncEngine :=
  ((SyncEngine.new ⟨1⟩).onRemoteItem shortDigest twoLines).2

/-- The text comes back with Windows line endings, one more of them at the end,
and after the item was received once more. -/
theorem handedBack_echo_twoLines :
    twoLinesWritten.onLocalChange shortDigest
          (ClipboardContent.ofText "a\r\nb\r\n") ⟨⟨8⟩, 30⟩ =
        (.echo twoLines,
          { twoLinesWritten with
            pendingWrite := none
            current := some (Current.of twoLines) }) ∧
      ((ChangeDetector.default.observe shortHasher
          (.content (.text "a\nb"))).2.observe shortHasher
        (.content (ClipboardContent.ofText "a\r\nb\r\n"))).1 = false := by
  have hback : HandedBack "a\nb" "a\r\nb\r\n" :=
    ⟨.crLf, ['a', '\r', '\n', 'b'], [], ['\r', '\n'], by decide, by decide,
      by simp, List.all_eq_true.mp (by decide)⟩
  have hwrite : (SyncEngine.new ⟨1⟩).onRemoteItem shortDigest twoLines =
      (.write (.text "a\nb"), twoLinesWritten) := by decide
  have hagain : twoLinesWritten.onRemoteItem shortDigest twoLines =
      (.ignore .duplicate, twoLinesWritten) := by decide
  have htext : twoLines.content = ClipboardContent.ofText "a\r\nb" := rfl
  exact handedBack_echo shortHasher ChangeDetector.default ⟨⟨8⟩, 30⟩ htext
    hwrite hback (.item twoLines .duplicate hagain (.none twoLinesWritten))

end TwoLines

end Cled.Sync
