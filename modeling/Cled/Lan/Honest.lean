import Cled.Clipboard.Detector
import Cled.Lan.Postcard

/-!
# Honest items

An item is hashed where the copy happened, and the hash is checked where the
item arrives.  In between, its text is normalized once more, its image becomes a
PNG and an image again, and its time loses what is below a millisecond.  None of
this changes what was hashed.
-/

namespace Cled.Lan

open Cled.Clipboard Cled.Sync

/-! ## Images within the decoder's limit -/

/-- What the codec encodes it decodes back, or it has not the memory for that
many bytes of pixels. -/
def PngCodec.LosslessWithin (png : PngCodec) (limit : ℕ) : Prop :=
  ∀ image bytes, png.encode image = .ok bytes →
    png.decode bytes = .ok (image.width, image.height, image.rgba) ∨
      (limit < image.rgba.length ∧ ∃ message, png.decode bytes = .error message)

variable {png : PngCodec}

theorem PngCodec.LosslessWithin.lossless {limit : ℕ}
    (hpng : png.LosslessWithin limit) : png.Lossless := by
  intro image bytes decoded hencode hdecode
  rcases hpng image bytes hencode with hback | ⟨-, message, hfailed⟩
  · exact Except.ok.inj (hdecode.symm.trans hback)
  · cases hdecode.symm.trans hfailed

theorem pixelCodec_losslessWithin (limit : ℕ) :
    pixelCodec.LosslessWithin limit := by
  intro picture bytes hencode
  left
  have hdecode : pixelCodec.decode bytes = .ok (1, 1, bytes) := rfl
  rw [hdecode, pixelCodec_lossless picture bytes _ hencode hdecode]

/-- Content that the decoder has the memory for. -/
def WithinLimit : ClipboardContent → Prop
  | .text _ => True
  | .image picture => picture.rgba.length ≤ maxImageBytes

theorem decodePng_encodePng (hpng : png.LosslessWithin maxImageBytes)
    {picture : Image} {bytes : Bytes}
    (hlimit : picture.rgba.length ≤ maxImageBytes)
    (hencode : encodePng png picture = .ok bytes) :
    decodePng png picture.width picture.height bytes = .ok picture := by
  have hback := hpng picture bytes (encodePng_eq_ok_iff.mp hencode)
  have hbytes := hback.resolve_right fun hover =>
    absurd hover.1 (Nat.not_lt.mpr hlimit)
  exact decodePng_eq_ok_iff.mpr ⟨rfl, rfl, hbytes⟩

theorem exists_intoContent (hpng : png.LosslessWithin maxImageBytes)
    {content : ClipboardContent} {wire : WireContent}
    (hlimit : WithinLimit content)
    (hwire : WireItem.contentOf png content = .ok wire) :
    ∃ received, WireItem.intoContent png wire = .ok received := by
  cases content with
  | text body =>
      obtain rfl := Except.ok.inj hwire
      exact ⟨_, rfl⟩
  | image picture =>
      obtain ⟨bytes, hencode, rfl⟩ := contentOf_image_eq_ok_iff.mp hwire
      have hdecode := decodePng_encodePng hpng hlimit hencode
      exact ⟨_, intoContent_image_eq_ok_iff.mpr ⟨picture, hdecode, rfl⟩⟩

theorem exists_intoItem (hpng : png.LosslessWithin maxImageBytes)
    {item : ClipboardItem} {wire : WireItem} (hlimit : WithinLimit item.content)
    (hwire : WireItem.fromItem png item = .ok wire) :
    ∃ received, wire.intoItem png = .ok received := by
  obtain ⟨content, hcontent, rfl⟩ := fromItem_eq_ok_iff.mp hwire
  obtain ⟨received, hreceived⟩ := exists_intoContent hpng hlimit hcontent
  exact ⟨_, intoItem_eq_ok_iff.mpr ⟨received, hreceived, rfl⟩⟩

/-! ## Times -/

/-- Whole milliseconds, from the epoch to the last one that fits 64 bits. -/
theorem fromMs_toMs (time : SystemTime) :
    fromMs (toMs time) =
      min (max (time / nanosPerMs) 0) u64Max * nanosPerMs := by
  unfold fromMs toMs
  split
  · next hepoch =>
    have hdiv : time / nanosPerMs < 0 :=
      Int.ediv_neg_of_neg_of_pos hepoch (by decide)
    rw [max_eq_right hdiv.le, min_eq_left (Int.natCast_nonneg _)]
    rfl
  · next hepoch =>
    obtain ⟨nanos, rfl⟩ := Int.eq_ofNat_of_zero_le (not_lt.mp hepoch)
    have hdiv : (0 : ℤ) ≤ (nanos : ℤ) / nanosPerMs := Int.natCast_nonneg _
    rw [max_eq_left hdiv, Int.toNat_natCast]
    have hmin : ((min (nanos / nanosPerMs) u64Max : ℕ) : ℤ) =
        min ((nanos / nanosPerMs : ℕ) : ℤ) u64Max := by omega
    calc ((min (nanos / nanosPerMs) u64Max * nanosPerMs : ℕ) : ℤ)
        = (min (nanos / nanosPerMs) u64Max : ℕ) * (nanosPerMs : ℤ) :=
          Int.natCast_mul _ _
      _ = min ((nanos : ℤ) / nanosPerMs) u64Max * nanosPerMs :=
          congrArg (· * (nanosPerMs : ℤ)) hmin

/-! ## From copy to engine -/

theorem onRemoteItem_ne_corrupt {blake3 : Blake3} {item : ClipboardItem}
    (hintact : item.IsIntact blake3) (receiver : SyncEngine) :
    (receiver.onRemoteItem blake3 item).1 ≠ .ignore .corrupt := by
  have houtcome := receiver.onRemoteItem_outcome blake3 item
  generalize receiver.onRemoteItem blake3 item = answer at houtcome ⊢
  cases houtcome with
  | corrupt hbroken => exact absurd hintact hbroken
  | written _ _ => exact RemoteItem.noConfusion
  | _ =>
      intro heq
      exact Ignored.noConfusion (RemoteItem.ignore.inj heq)

theorem normalized_of_mem {content : ClipboardContent}
    (hcontent : content ∈
      Set.range ClipboardContent.ofText ∪ Set.range ClipboardContent.image) :
    content.Normalized := by
  rcases hcontent with ⟨raw, rfl⟩ | ⟨picture, rfl⟩
  · exact ClipboardContent.ofText_normalized raw
  · trivial

/-- What was copied on one device and made it into a message is decoded on the
other to the item with its time rounded, which no engine takes for corrupt. -/
theorem honest_item_accepted {postcard : Wire.Postcard}
    (hpostcard : postcard.Lossless) (hpng : png.LosslessWithin maxImageBytes)
    (blake3 : Blake3) (engine : SyncEngine) (stamp : Stamp)
    {content : ClipboardContent}
    (hcontent : content ∈
      Set.range ClipboardContent.ofText ∪ Set.range ClipboardContent.image)
    {item : ClipboardItem} {after : SyncEngine}
    (hcopied : engine.onLocalChange blake3 content stamp = (.copied item, after))
    {wire : WireItem} (hwire : WireItem.fromItem png item = .ok wire)
    {bytes : Bytes}
    (hbytes : (Wire.Message.item wire).encode postcard = .ok bytes) :
    Wire.Message.decode postcard bytes = .ok (.item wire) ∧
      (WithinLimit content → ∃ received, wire.intoItem png = .ok received) ∧
      ∀ received, wire.intoItem png = .ok received →
        received.id = item.id ∧ received.origin = item.origin ∧
          received.contentHash = item.contentHash ∧
          received.content = content ∧ received.IsIntact blake3 ∧
          received.createdAt =
            min (max (item.createdAt / nanosPerMs) 0) u64Max * nanosPerMs ∧
          ∀ receiver : SyncEngine,
            (receiver.onRemoteItem blake3 received).1 ≠ .ignore .corrupt := by
  have hcopy := SyncEngine.eq_copyLocal_of_copied blake3 hcopied
  obtain ⟨hitem, -⟩ := Prod.mk.inj hcopy
  obtain rfl := LocalChange.copied.inj hitem
  refine ⟨Wire.Message.decode_encode hpostcard hbytes, ?_, ?_⟩
  · intro hlimit
    exact exists_intoItem hpng hlimit hwire
  · intro received hreceived
    have hrounded : received = rounded (ClipboardItem.new blake3 stamp
        engine.device content) := by
      apply transfer_eq_rounded hpng.lossless (normalized_of_mem hcontent)
      rw [WireItem.transfer, hwire]
      exact hreceived
    obtain rfl := hrounded
    have hintact : (rounded (ClipboardItem.new blake3 stamp engine.device
        content)).IsIntact blake3 := rfl
    exact ⟨rfl, rfl, rfl, rfl, hintact, fromMs_toMs _,
      onRemoteItem_ne_corrupt hintact⟩

/-! ## Two copies -/

/-- What the wire carries of a copied text. -/
def textWire (stamp : Stamp) (raw : String) : WireItem where
  id := stamp.id.toBytes
  origin := 1
  createdAtMs := toMs stamp.now
  contentHash := (ContentHash.of shortDigest (.ofText raw)).bytes
  content := .text (normalizeLineEndings raw)

theorem encode_textWire {stamp : Stamp} {raw : String}
    (hlength : (utf8 (normalizeLineEndings raw)).length ≤ u64Max)
    (hfits : (Wire.itemBytes (textWire stamp raw)).length ≤ maxMessageBytes) :
    (Wire.Message.item (textWire stamp raw)).encode Wire.itemPostcard =
      .ok (Wire.itemBytes (textWire stamp raw)) := by
  rw [Wire.Message.encode_eq_ok_iff]
  exact ⟨if_pos ⟨toMs_le _, hlength⟩, hfits⟩

/-- Two lines and a trailing space, copied in the middle of a millisecond. -/
theorem honest_item_accepted_twoLines :
    let wire := textWire ⟨⟨7⟩, 1500000⟩ "a\r\nb "
    ∃ received,
      Wire.Message.decode Wire.itemPostcard (Wire.itemBytes wire) =
        .ok (.item wire) ∧
      wire.intoItem pixelCodec = .ok received ∧
      received.content = .text "a\nb " ∧ received.IsIntact shortDigest ∧
      received.createdAt = 1000000 ∧
      ∀ receiver : SyncEngine,
        (receiver.onRemoteItem shortDigest received).1 ≠ .ignore .corrupt := by
  intro wire
  have hbytes : (Wire.Message.item wire).encode Wire.itemPostcard =
      .ok (Wire.itemBytes wire) :=
    encode_textWire (by decide +kernel) (by decide +kernel)
  have haccepted := honest_item_accepted Wire.itemPostcard_lossless
    (pixelCodec_losslessWithin maxImageBytes) shortDigest (SyncEngine.new ⟨1⟩)
    ⟨⟨7⟩, 1500000⟩ (.inl ⟨"a\r\nb ", rfl⟩) rfl rfl hbytes
  obtain ⟨hdecode, hwithin, hall⟩ := haccepted
  obtain ⟨received, hreceived⟩ := hwithin trivial
  obtain ⟨-, -, -, hcontent, hintact, htime, hengine⟩ := hall received hreceived
  have hbody : ClipboardContent.ofText "a\r\nb " = .text "a\nb " := by
    decide +kernel
  exact ⟨received, hdecode, hreceived, hcontent.trans hbody, hintact,
    htime.trans (by decide), hengine⟩

/-- A time past the last millisecond of 64 bits is cut to it, not rounded. -/
theorem not_rounded_late :
    let stamp : Stamp := ⟨⟨7⟩, (2 ^ 64 * nanosPerMs : ℕ)⟩
    let item := ClipboardItem.new shortDigest stamp ⟨1⟩ (.ofText "x")
    let wire := textWire stamp "x"
    ((SyncEngine.new ⟨1⟩).onLocalChange shortDigest (.ofText "x") stamp).1 =
        .copied item ∧
      WireItem.fromItem pixelCodec item = .ok wire ∧
      (Wire.Message.item wire).encode Wire.itemPostcard =
        .ok (Wire.itemBytes wire) ∧
      Wire.Message.decode Wire.itemPostcard (Wire.itemBytes wire) =
        .ok (.item wire) ∧
      ∃ received, wire.intoItem pixelCodec = .ok received ∧
        0 ≤ item.createdAt ∧
        received.createdAt ≠ item.createdAt / nanosPerMs * nanosPerMs := by
  intro stamp item wire
  have hbytes : (Wire.Message.item wire).encode Wire.itemPostcard =
      .ok (Wire.itemBytes wire) :=
    encode_textWire (by decide +kernel) (by decide +kernel)
  refine ⟨rfl, rfl, hbytes,
    Wire.Message.decode_encode Wire.itemPostcard_lossless hbytes, _, rfl, ?_⟩
  exact ⟨by decide +kernel, by decide +kernel⟩

end Cled.Lan
