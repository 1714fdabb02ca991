import Cled.Core.Varint
import Cled.Lan.Message

/-!
# Postcard on items

Arrays are written as they are, lists and text after their length, and numbers
and the choice among alternatives as variable-length numbers.
-/

namespace Cled.Lan.Wire

open Cled.Core Cled.Clipboard Cled.Sync

def contentBytes : WireContent → Bytes
  | .text body => 0 :: prefixed 10 (utf8 body)
  | .image width height png =>
      1 :: (varint 5 width.toNat ++ (varint 5 height.toNat ++ prefixed 10 png))

def readContent : Bytes → Option WireContent
  | 0 :: rest => do
      let (bytes, _) ← readPrefixed 10 rest
      let body ← String.fromUTF8? ⟨bytes.toArray⟩
      some (.text body)
  | 1 :: rest => do
      let (width, rest) ← readVarint 5 rest
      let (height, rest) ← readVarint 5 rest
      let (png, _) ← readPrefixed 10 rest
      some (.image (UInt32.ofNat width) (UInt32.ofNat height) png)
  | _ => none

def itemBytes (wire : WireItem) : Bytes :=
  1 :: (beBytes 16 wire.id.toNat ++ (beBytes 16 wire.origin.toNat ++
    (varint 10 wire.createdAtMs ++ (beBytes 32 wire.contentHash.toNat ++
      contentBytes wire.content))))

def readItem : Bytes → Option WireItem
  | 1 :: rest => do
      let (id, rest) ← readBytes 16 rest
      let (origin, rest) ← readBytes 16 rest
      let (createdAtMs, rest) ← readVarint 10 rest
      let (contentHash, rest) ← readBytes 32 rest
      let content ← readContent rest
      some
        { id := BitVec.ofNat 128 (fromBe id)
          origin := BitVec.ofNat 128 (fromBe origin)
          createdAtMs
          contentHash := BitVec.ofNat 256 (fromBe contentHash)
          content }
  | _ => none

/-- The bytes of a content whose lengths fit a machine word. -/
def FitsWord : WireContent → Prop
  | .text body => (utf8 body).length ≤ u64Max
  | .image _ _ png => png.length ≤ u64Max

instance : DecidablePred FitsWord
  | .text body => inferInstanceAs (Decidable ((utf8 body).length ≤ u64Max))
  | .image _ _ png => inferInstanceAs (Decidable (png.length ≤ u64Max))

theorem prefixed_fits {bytes : Bytes} (hfits : bytes.length ≤ u64Max) :
    bytes.length < 128 ^ 10 :=
  Nat.lt_of_le_of_lt hfits (by decide)

theorem u32_fits (value : UInt32) : value.toNat < 128 ^ 5 :=
  value.toNat_lt.trans (by decide)

theorem readContent_contentBytes {content : WireContent}
    (hfits : FitsWord content) :
    readContent (contentBytes content) = some content := by
  cases content with
  | text body =>
      have hbytes : String.fromUTF8? ⟨(utf8 body).toArray⟩ = some body :=
        fromUTF8?_eq_some_iff.mpr rfl
      have hread := readPrefixed_prefixed (by decide) (prefixed_fits hfits) []
      rw [List.append_nil] at hread
      simp only [contentBytes, readContent, hread, hbytes, Option.bind_eq_bind,
        Option.bind_some]
  | image width height png =>
      have hread := readPrefixed_prefixed (by decide) (prefixed_fits hfits) []
      rw [List.append_nil] at hread
      simp only [contentBytes, readContent,
        readVarint_varint (by decide) (u32_fits _), hread, Option.bind_eq_bind,
        Option.bind_some, UInt32.ofNat_toNat]

theorem readItem_itemBytes {wire : WireItem} (htime : wire.createdAtMs ≤ u64Max)
    (hfits : FitsWord wire.content) :
    readItem (itemBytes wire) = some wire := by
  obtain ⟨id, origin, createdAtMs, contentHash, content⟩ := wire
  have hid : id.toNat < 256 ^ 16 := id.isLt.trans_eq (by decide)
  have horigin : origin.toNat < 256 ^ 16 := origin.isLt.trans_eq (by decide)
  have hhash : contentHash.toNat < 256 ^ 32 :=
    contentHash.isLt.trans_eq (by decide)
  have hnumber : createdAtMs < 128 ^ 10 := Nat.lt_of_le_of_lt htime (by decide)
  simp only [itemBytes, readItem, readBytes_append (length_beBytes _ _),
    readVarint_varint (by decide) hnumber, readContent_contentBytes hfits,
    Option.bind_eq_bind, Option.bind_some, fromBe_beBytes hid,
    fromBe_beBytes horigin, fromBe_beBytes hhash, BitVec.ofNat_toNat,
    BitVec.setWidth_eq]

/-- Postcard for messages that are items. -/
def itemPostcard : Postcard where
  toStdvec
    | .item wire =>
        if wire.createdAtMs ≤ u64Max ∧ FitsWord wire.content then
          .ok (itemBytes wire)
        else .error "a number too large for its type"
    | _ => .error "not an item"
  fromBytes bytes :=
    match readItem bytes with
    | some wire => .ok (.item wire)
    | none => .error "not an item"

theorem itemPostcard_lossless : itemPostcard.Lossless := by
  intro message bytes hbytes
  cases message with
  | item wire =>
      dsimp only [itemPostcard] at hbytes ⊢
      split at hbytes
      · next hfits =>
        obtain rfl := Except.ok.inj hbytes
        rw [readItem_itemBytes hfits.1 hfits.2]
      · contradiction
  | _ => contradiction

end Cled.Lan.Wire
