import Cled.Sync.Engine

/-!
# The wire format of items and rosters

Items travel with their creation time in whole milliseconds, and images travel
as PNG.  The PNG codec is not part of the repository; it is a parameter.
-/

namespace Cled.Lan

open Cled.Clipboard Cled.Sync

inductive LanError where
  | io (message : String)
  | noise (message : String)
  | malformed (message : String)
  | tooLarge (size : ℕ)
  | incompatibleVersion (version : ℕ)
  | wrongCode
  | notPairing
  | codeExpired
  | unknownPeer
  | timeout
  | stopped
  | other (message : String)
  deriving DecidableEq

/-! ## Times -/

def u64Max : ℕ := 2 ^ 64 - 1

/-- Nanoseconds in a millisecond. -/
def nanosPerMs : ℕ := 1000000

/-- Whole milliseconds since the epoch: 0 before it, at most `u64::MAX`. -/
def toMs (time : SystemTime) : ℕ :=
  if time < 0 then 0 else min (time.toNat / nanosPerMs) u64Max

/-- `UNIX_EPOCH + Duration::from_millis(ms)`. -/
def fromMs (ms : ℕ) : SystemTime := (ms * nanosPerMs : ℕ)

/-! ## Items -/

/-- The `image` crate's PNG encoder and decoder.  The decoder answers with the
dimensions and the RGBA pixels, or with an error text. -/
structure PngCodec where
  encode : Image → Except String Bytes
  decode : Bytes → Except String (UInt32 × UInt32 × Bytes)

/-- What the codec encodes it decodes back, if it decodes it at all. -/
def PngCodec.Lossless (png : PngCodec) : Prop :=
  ∀ image bytes decoded, png.encode image = .ok bytes →
    png.decode bytes = .ok decoded →
      decoded = (image.width, image.height, image.rgba)

/-- A codec for pictures of one pixel, stored as they are. -/
def pixelCodec : PngCodec where
  encode picture :=
    if picture.width = 1 ∧ picture.height = 1 then .ok picture.rgba
    else .error "not a single pixel"
  decode bytes := .ok (1, 1, bytes)

theorem pixelCodec_lossless : pixelCodec.Lossless := by
  intro picture bytes decoded hencode hdecode
  obtain rfl := Except.ok.inj hdecode
  dsimp only [pixelCodec] at hencode
  split at hencode
  · next hpixel =>
    obtain rfl := Except.ok.inj hencode
    rw [hpixel.1, hpixel.2]
  · contradiction

inductive WireContent where
  | text (body : String)
  | image (width height : UInt32) (png : Bytes)
  deriving DecidableEq

structure WireItem where
  id : Uuid
  origin : Uuid
  createdAtMs : ℕ
  contentHash : BitVec 256
  content : WireContent
  deriving DecidableEq

def encodePng (png : PngCodec) (image : Image) : Except LanError Bytes :=
  match png.encode image with
  | .ok bytes => .ok bytes
  | .error message => .error (.malformed s!"PNG encoding failed: {message}")

def decodePng (png : PngCodec) (width height : UInt32) (bytes : Bytes) :
    Except LanError Image :=
  match png.decode bytes with
  | .error message => .error (.malformed s!"PNG decoding failed: {message}")
  | .ok (decodedWidth, decodedHeight, rgba) =>
      if (decodedWidth, decodedHeight) ≠ (width, height) then
        .error (.malformed "image size doesn't match")
      else
        match Image.fromRgba width height rgba with
        | some image => .ok image
        | none => .error (.malformed "bad image buffer")

namespace WireItem

variable (png : PngCodec)

def contentOf : ClipboardContent → Except LanError WireContent
  | .text body => .ok (.text body)
  | .image picture => do
      let bytes ← encodePng png picture
      .ok (.image picture.width picture.height bytes)

def fromItem (item : ClipboardItem) : Except LanError WireItem := do
  let content ← contentOf png item.content
  .ok
    { id := item.id.toBytes
      origin := item.origin.toBytes
      createdAtMs := toMs item.createdAt
      contentHash := item.contentHash.bytes
      content }

def intoContent : WireContent → Except LanError ClipboardContent
  | .text body => .ok (ClipboardContent.ofText body)
  | .image width height bytes => do
      let picture ← decodePng png width height bytes
      .ok (.image picture)

/-- Whether the content matches its hash is left to the engine. -/
def intoItem (wire : WireItem) : Except LanError ClipboardItem := do
  let content ← intoContent png wire.content
  .ok
    { id := ItemId.fromBytes wire.id
      origin := DeviceId.fromBytes wire.origin
      contentHash := ⟨wire.contentHash⟩
      createdAt := fromMs wire.createdAtMs
      content }

/-- From one device's item to the other's. -/
def transfer (item : ClipboardItem) : Except LanError ClipboardItem := do
  let wire ← fromItem png item
  wire.intoItem png

end WireItem

/-! ## Rosters -/

/-- 32 bytes. -/
abbrev PublicKey := BitVec 256

inductive SocketAddr where
  | v4 (ip : BitVec 32) (port : UInt16)
  | v6 (ip : BitVec 128) (port : UInt16) (flowinfo scopeId : UInt32)
  deriving DecidableEq

structure RosterPeer where
  deviceId : Uuid
  name : String
  publicKey : PublicKey
  /-- When the device joined the group, as first recorded by the device that
  paired it. -/
  pairedAtMs : ℕ
  /-- Where the sender last reached it. -/
  address : Option SocketAddr
  deriving DecidableEq

structure RosterRemoval where
  peer : RosterPeer
  removedAtMs : ℕ
  deriving DecidableEq

structure Roster where
  members : List RosterPeer
  removed : List RosterRemoval
  deriving DecidableEq

/-! ## What an item looks like after the wire -/

/-- The item with its creation time in whole milliseconds. -/
def rounded (item : ClipboardItem) : ClipboardItem :=
  { item with createdAt := fromMs (toMs item.createdAt) }

theorem bind_eq_ok_iff {E A B : Type} {action : Except E A}
    {next : A → Except E B} {result : B} :
    action >>= next = .ok result ↔
      ∃ value, action = .ok value ∧ next value = .ok result := by
  cases action <;> simp [bind, Except.bind]

theorem bind_ok_eq_ok_iff {E A B : Type} {action : Except E A} {make : A → B}
    {result : B} :
    (action >>= fun value => .ok (make value)) = .ok result ↔
      ∃ value, action = .ok value ∧ result = make value := by
  rw [bind_eq_ok_iff]
  refine exists_congr fun value => and_congr_right fun _ => ?_
  rw [Except.ok.injEq, eq_comm]

theorem encodePng_eq_ok_iff {png : PngCodec} {picture : Image} {bytes : Bytes} :
    encodePng png picture = .ok bytes ↔ png.encode picture = .ok bytes := by
  unfold encodePng
  cases png.encode picture <;> simp

theorem decodePng_eq_ok_iff {png : PngCodec} {width height : UInt32}
    {bytes : Bytes} {picture : Image} :
    decodePng png width height bytes = .ok picture ↔
      picture.width = width ∧ picture.height = height ∧
        png.decode bytes = .ok (width, height, picture.rgba) := by
  constructor
  · intro hdecode
    unfold decodePng at hdecode
    split at hdecode
    · contradiction
    next decodedWidth decodedHeight rgba hbytes =>
      split at hdecode
      · contradiction
      next hsize =>
        obtain ⟨rfl, rfl⟩ := Prod.mk.inj (not_not.mp hsize)
        unfold Image.fromRgba at hdecode
        split_ifs at hdecode
        obtain rfl := Except.ok.inj hdecode
        exact ⟨rfl, rfl, hbytes⟩
  · rintro ⟨rfl, rfl, hbytes⟩
    have himage : Image.fromRgba picture.width picture.height picture.rgba =
        some picture := dif_pos picture.size
    simp only [decodePng, hbytes, ne_eq, not_true_eq_false, if_false, himage]

theorem decodePng_lossless {png : PngCodec} (hpng : png.Lossless)
    {picture received : Image} {bytes : Bytes}
    (hencode : encodePng png picture = .ok bytes)
    (hdecode : decodePng png picture.width picture.height bytes =
      .ok received) : received = picture := by
  obtain ⟨hwidth, hheight, hbytes⟩ := decodePng_eq_ok_iff.mp hdecode
  have hsame := hpng picture bytes _ (encodePng_eq_ok_iff.mp hencode) hbytes
  obtain ⟨width, height, rgba, size⟩ := received
  obtain rfl : width = picture.width := hwidth
  obtain rfl : height = picture.height := hheight
  obtain rfl : rgba = picture.rgba := (Prod.mk.inj (Prod.mk.inj hsame).2).2
  rfl

theorem contentOf_image_eq_ok_iff {png : PngCodec} {picture : Image}
    {wire : WireContent} :
    WireItem.contentOf png (.image picture) = .ok wire ↔
      ∃ bytes, encodePng png picture = .ok bytes ∧
        wire = .image picture.width picture.height bytes :=
  bind_ok_eq_ok_iff

theorem intoContent_image_eq_ok_iff {png : PngCodec} {width height : UInt32}
    {bytes : Bytes} {content : ClipboardContent} :
    WireItem.intoContent png (.image width height bytes) = .ok content ↔
      ∃ picture, decodePng png width height bytes = .ok picture ∧
        content = .image picture :=
  bind_ok_eq_ok_iff

theorem intoContent_contentOf {png : PngCodec} (hpng : png.Lossless)
    {content received : ClipboardContent} {wire : WireContent}
    (hnormal : content.Normalized)
    (hwire : WireItem.contentOf png content = .ok wire)
    (hreceived : WireItem.intoContent png wire = .ok received) :
    received = content := by
  cases content with
  | text body =>
      obtain rfl := Except.ok.inj hwire
      rw [← ClipboardContent.ofText_eq_text hnormal]
      exact (Except.ok.inj hreceived).symm
  | image picture =>
      obtain ⟨bytes, hencode, rfl⟩ := contentOf_image_eq_ok_iff.mp hwire
      obtain ⟨decoded, hdecode, rfl⟩ :=
        intoContent_image_eq_ok_iff.mp hreceived
      rw [decodePng_lossless hpng hencode hdecode]

theorem fromItem_eq_ok_iff {png : PngCodec} {item : ClipboardItem}
    {wire : WireItem} :
    WireItem.fromItem png item = .ok wire ↔
      ∃ content, WireItem.contentOf png item.content = .ok content ∧
        wire =
          { id := item.id.toBytes
            origin := item.origin.toBytes
            createdAtMs := toMs item.createdAt
            contentHash := item.contentHash.bytes
            content } :=
  bind_ok_eq_ok_iff

theorem intoItem_eq_ok_iff {png : PngCodec} {wire : WireItem}
    {item : ClipboardItem} :
    wire.intoItem png = .ok item ↔
      ∃ content, WireItem.intoContent png wire.content = .ok content ∧
        item =
          { id := ItemId.fromBytes wire.id
            origin := DeviceId.fromBytes wire.origin
            contentHash := ⟨wire.contentHash⟩
            createdAt := fromMs wire.createdAtMs
            content } :=
  bind_ok_eq_ok_iff

/-- An item that makes it through the wire is the item with a rounded time. -/
theorem transfer_eq_rounded {png : PngCodec} (hpng : png.Lossless)
    {item received : ClipboardItem} (hnormal : item.content.Normalized)
    (htransfer : WireItem.transfer png item = .ok received) :
    received = rounded item := by
  obtain ⟨wire, hwire, hreceived⟩ := bind_eq_ok_iff.mp htransfer
  obtain ⟨content, hcontent, rfl⟩ := fromItem_eq_ok_iff.mp hwire
  obtain ⟨decoded, hdecoded, rfl⟩ := intoItem_eq_ok_iff.mp hreceived
  rw [intoContent_contentOf hpng hnormal hcontent hdecoded]
  rfl

/-! ## Rounding and order -/

theorem toMs_le (time : SystemTime) : toMs time ≤ u64Max := by
  unfold toMs
  split
  · exact Nat.zero_le _
  · exact min_le_right _ _

theorem fromMs_toMs_le {time : SystemTime} (hpos : 0 < toMs time) :
    fromMs (toMs time) ≤ time := by
  unfold toMs at hpos ⊢
  split at hpos
  · contradiction
  next hepoch =>
    rw [if_neg hepoch]
    have hnat : ((time.toNat : ℕ) : ℤ) = time :=
      Int.toNat_of_nonneg (not_lt.mp hepoch)
    have hround : min (time.toNat / nanosPerMs) u64Max * nanosPerMs ≤
        time.toNat :=
      (Nat.mul_le_mul_right _ (min_le_left _ _)).trans (Nat.div_mul_le_self _ _)
    rw [← hnat]
    exact Int.ofNat_le.mpr hround

/-- A time in an earlier wire millisecond lies before the later one's start. -/
theorem lt_fromMs_of_toMs_lt {earlier later : SystemTime}
    (hlt : toMs earlier < toMs later) : earlier < fromMs (toMs later) := by
  have hcap := toMs_le later
  generalize toMs later = start at hlt hcap
  unfold toMs at hlt
  split at hlt
  · next hepoch => exact lt_of_lt_of_le hepoch (Int.natCast_nonneg _)
  · next hepoch =>
    have hdiv : earlier.toNat / nanosPerMs < start :=
      (min_lt_iff.mp hlt).resolve_right (not_lt.mpr hcap)
    have hnat : ((earlier.toNat : ℕ) : ℤ) = earlier :=
      Int.toNat_of_nonneg (not_lt.mp hepoch)
    rw [← hnat]
    exact Int.ofNat_lt.mpr ((Nat.div_lt_iff_lt_mul (by decide)).mp hdiv)

/-- A later wire millisecond starts later. -/
theorem fromMs_lt {earlier later : ℕ} (hlt : earlier < later) :
    fromMs earlier < fromMs later :=
  Int.ofNat_lt.mpr (Nat.mul_lt_mul_of_pos_right hlt (by decide))

end Cled.Lan
