import Mathlib.Data.Prod.Lex
import Mathlib.Data.Int.Order.Basic
import Cled.Clipboard.Content
import Cled.Sync.Ids

/-!
# Clipboard items

One copy, as it travels between devices.  Items are ordered by the pair of their
creation time and their ID; everything the sync rules call newer is that
lexicographic order.
-/

namespace Cled.Sync

open Cled.Clipboard

/-- A point in time: nanoseconds since the Unix epoch, negative before it. -/
abbrev SystemTime := ℤ

/-- BLAKE3: 32 bytes of the bytes fed to it. -/
abbrev Blake3 := Bytes → BitVec 256

/-- A digest for examples: it reads its input as a number, so different inputs
of at most 31 bytes have different digests. -/
def shortDigest : Blake3 := fun bytes =>
  BitVec.ofNat 256 (bytes.foldl (fun number byte => number * 256 + byte.toNat) 1)

/-- A stable identity for clipboard content. -/
structure ContentHash where
  bytes : BitVec 256
  deriving DecidableEq

namespace ContentHash

/-- What is fed to BLAKE3: a distinct prefix per kind, then the text without
trailing whitespace or the image's dimensions and pixels. -/
def input : ClipboardContent → Bytes
  | .text body =>
      utf8 "cled:text\x00" ++ utf8 (ClipboardContent.identityText body)
  | .image picture =>
      utf8 "cled:image\x00" ++ leBytes picture.width.toNat 4 ++
        leBytes picture.height.toNat 4 ++ picture.rgba

def of (blake3 : Blake3) (content : ClipboardContent) : ContentHash :=
  ⟨blake3 (input content)⟩

/-- The fingerprint is fed everything that the content hash is fed. -/
theorem input_eq_of_hashBytes_eq {left right : ClipboardContent}
    (heq : left.hashBytes = right.hashBytes) : input left = input right := by
  cases left with
  | text body =>
      cases right with
      | text other =>
          have htext := List.append_cancel_right (List.cons.inj heq).2
          exact congrArg (utf8 "cled:text\x00" ++ ·) htext
      | image other =>
          have htag : some (0 : UInt8) = some 1 := congrArg List.head? heq
          exact absurd htag (by decide)
  | image picture =>
      cases right with
      | text other =>
          have htag : some (1 : UInt8) = some 0 := congrArg List.head? heq
          exact absurd htag (by decide)
      | image other =>
          simp only [ClipboardContent.hashBytes, List.cons_append,
            List.append_assoc, List.cons.injEq, true_and] at heq
          obtain ⟨hwidth, hrest⟩ := List.append_inj heq (by simp)
          obtain ⟨hheight, hrest⟩ := List.append_inj hrest (by simp)
          obtain ⟨_, hrgba⟩ := List.append_inj hrest (by simp)
          rw [input, input, hwidth, hheight, hrgba]

end ContentHash

/-- Creation time first, ID second. -/
abbrev ItemKey := SystemTime ×ₗ ItemId

structure ClipboardItem where
  id : ItemId
  /-- The device where the copy happened. -/
  origin : DeviceId
  contentHash : ContentHash
  /-- When the copy happened, by the origin device's clock. -/
  createdAt : SystemTime
  content : ClipboardContent
  deriving DecidableEq

/-- What `ClipboardItem::new` draws: `ItemId::new()` and `SystemTime::now()`. -/
structure Stamp where
  id : ItemId
  now : SystemTime
  deriving DecidableEq

namespace Stamp

def key (stamp : Stamp) : ItemKey := toLex (stamp.now, stamp.id)

end Stamp

namespace ClipboardItem

variable (blake3 : Blake3)

def new (stamp : Stamp) (origin : DeviceId) (content : ClipboardContent) :
    ClipboardItem :=
  { id := stamp.id
    origin
    contentHash := ContentHash.of blake3 content
    createdAt := stamp.now
    content }

/-- Whether the hash matches the content. -/
def IsIntact (item : ClipboardItem) : Prop :=
  ContentHash.of blake3 item.content = item.contentHash

instance (item : ClipboardItem) : Decidable (item.IsIntact blake3) :=
  inferInstanceAs (Decidable (_ = _))

def key (item : ClipboardItem) : ItemKey := toLex (item.createdAt, item.id)

@[simp]
theorem new_isIntact (stamp : Stamp) (origin : DeviceId)
    (content : ClipboardContent) :
    (new blake3 stamp origin content).IsIntact blake3 := rfl

/-- Items with the same key have the same ID. -/
theorem id_eq_of_key_eq {left right : ClipboardItem}
    (hkey : left.key = right.key) : left.id = right.id :=
  congrArg (fun pair => (ofLex pair).2) hkey

end ClipboardItem

end Cled.Sync
