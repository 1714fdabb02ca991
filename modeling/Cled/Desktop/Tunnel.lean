import Cled.Clipboard.Content
import Cled.Core.Framing
import Cled.Core.InsertionMap
import Cled.Sync.Ids

/-!
# Tunnels on the desktop

A tunnel is an ordered byte stream between this device and one of its paired
devices, carried in frames through the relay.  It is identified by the other
device, its ID, and which side opened it.  How a UUID is written and read
belongs to the `uuid` crate and is a parameter.
-/

namespace Cled.Desktop

open Cled.Core Cled.Clipboard Cled.Sync

/-! ## Device IDs as text -/

/-- `Display` and `parse_str` of the `uuid` crate. -/
structure UuidFormat where
  display : Uuid → String
  parseStr : String → Option Uuid

/-- A UUID is displayed in 36 characters, lower-case hexadecimal digits and
hyphens, and what is displayed is read back. -/
structure UuidFormat.Hyphenated (format : UuidFormat) : Prop where
  length : ∀ uuid, (format.display uuid).toList.length = 36
  chars : ∀ uuid, ∀ char ∈ (format.display uuid).toList,
    char ∈ "0123456789abcdef-".toList
  parse : ∀ uuid, format.parseStr (format.display uuid) = some uuid

/-- `str::trim`. -/
def trim (text : String) : String :=
  String.ofList ((text.toList.dropWhile isWhiteSpace).rdropWhile isWhiteSpace)

/-- `std::str::from_utf8`. -/
def fromUtf8 (bytes : Bytes) : Option String := String.fromUTF8? ⟨bytes.toArray⟩

variable (format : UuidFormat)

/-- `DeviceId::to_string`. -/
def deviceText (device : DeviceId) : String := format.display device.uuid

/-- `str::parse::<DeviceId>`. -/
def parseDevice (text : String) : Option DeviceId :=
  (format.parseStr (trim text)).map DeviceId.mk

/-! ## Frames -/

def kindOpen : UInt8 := 1

def kindData : UInt8 := 2

def kindClose : UInt8 := 3

def flagOpener : UInt8 := 1

/-- Most data in one frame. -/
def maxDataBytes : ℕ := 64 * 1024

structure Key where
  peer : DeviceId
  id : UInt32
  openedHere : Bool
  deriving DecidableEq

/-- `None` stands for the panic on a device ID too long for its length byte. -/
def encode (kind : UInt8) (key : Key) (data : Bytes) : Option Bytes :=
  let device := utf8 (deviceText format key.peer)
  if device.length < 256 then
    some ([kind, if key.openedHere then flagOpener else 0] ++
      beBytes 4 key.id.toNat ++ [UInt8.ofNat device.length] ++ device ++ data)
  else none

/-- The data that goes with a kind. -/
def isValidData (kind : UInt8) (data : Bytes) : Bool :=
  if kind = kindData then 1 ≤ data.length && data.length ≤ maxDataBytes
  else data.isEmpty

/-- A delivered frame's kind, the tunnel as seen from this device, and its
data. -/
def decode (frame : Bytes) : Option (UInt8 × Key × Bytes) :=
  match frame with
  | kind :: flags :: a :: b :: c :: d :: len :: rest =>
      if ¬ (kind = kindOpen ∨ kind = kindData ∨ kind = kindClose) ∨
          flags &&& ~~~flagOpener ≠ 0 then none
      else if rest.length < len.toNat then none
      else
        ((fromUtf8 (rest.take len.toNat)).bind (parseDevice format)).bind
          fun peer =>
            let data := rest.drop len.toNat
            if isValidData kind data then
              some (kind,
                { peer
                  id := UInt32.ofNat (fromBe [a, b, c, d])
                  -- The flag says whether the sender opened it.
                  openedHere := flags &&& flagOpener = 0 }, data)
            else none
  | _ => none

theorem fromUtf8_utf8 (text : String) : fromUtf8 (utf8 text) = some text :=
  fromUTF8?_eq_some_iff.mpr rfl

theorem utf8_fromUtf8 {bytes : Bytes} {text : String}
    (htext : fromUtf8 bytes = some text) : utf8 text = bytes :=
  (fromUTF8?_eq_some_iff.mp htext).symm

/-! ## A frame by the text of its device ID -/

theorem four_bytes (value : ℕ) :
    ∃ a b c d, beBytes 4 value = [a, b, c, d] := ⟨_, _, _, _, rfl⟩

theorem fromBe_four_lt (a b c d : UInt8) : fromBe [a, b, c, d] < UInt32.size :=
  Nat.lt_of_lt_of_eq (fromBe_lt [a, b, c, d]) (by decide : 256 ^ 4 = UInt32.size)

def flagsOf (openedHere : Bool) : UInt8 := if openedHere then flagOpener else 0

/-- The flag as the other end reads it. -/
theorem flagsOf_read (openedHere : Bool) :
    decide (flagsOf openedHere &&& flagOpener = 0) = !openedHere := by
  cases openedHere <;> decide

theorem flagsOf_reserved (openedHere : Bool) :
    flagsOf openedHere &&& ~~~flagOpener = 0 := by
  cases openedHere <;> decide

/-- Flags without a reserved bit are written as they were read. -/
theorem flagsOf_of_reserved {flags : UInt8}
    (hflags : flags &&& ~~~flagOpener = 0) :
    flagsOf (!decide (flags &&& flagOpener = 0)) = flags := by
  have hall : ∀ value < 256, UInt8.ofNat value &&& ~~~flagOpener = 0 →
      flagsOf (!decide (UInt8.ofNat value &&& flagOpener = 0)) =
        UInt8.ofNat value := by
    decide +kernel
  have hbyte := hall flags.toNat flags.toNat_lt
  rw [UInt8.ofNat_toNat] at hbyte
  exact hbyte hflags

/-- The tunnel as the other end has it. -/
def Key.turned (key : Key) : Key := { key with openedHere := !key.openedHere }

@[simp]
theorem Key.turned_turned (key : Key) : key.turned.turned = key := by
  simp only [turned, Bool.not_not]

/-- The frame that `encode` makes, with the device's ID written as `text`. -/
def frameAs (text : String) (kind : UInt8) (key : Key) (data : Bytes) : Bytes :=
  [kind, flagsOf key.openedHere] ++ beBytes 4 key.id.toNat ++
    [UInt8.ofNat (utf8 text).length] ++ utf8 text ++ data

theorem encode_eq_frameAs (kind : UInt8) (key : Key) (data : Bytes)
    (hlength : (utf8 (deviceText format key.peer)).length < 256) :
    encode format kind key data =
      some (frameAs (deviceText format key.peer) kind key data) :=
  if_pos hlength

/-- One frame of a tunnel writes its device's ID in one way. -/
theorem frameAs_injective {left right : String} {kind : UInt8} {key : Key}
    {data : Bytes}
    (heq : frameAs left kind key data = frameAs right kind key data) :
    left = right := by
  have hlength := congrArg List.length heq
  simp only [frameAs, List.length_append, List.length_singleton] at hlength
  have htext : (utf8 left).length = (utf8 right).length := by omega
  rw [frameAs, frameAs, htext] at heq
  have hbytes : utf8 left = utf8 right :=
    List.append_cancel_left (List.append_cancel_right heq)
  have hread := congrArg fromUtf8 hbytes
  rwa [fromUtf8_utf8, fromUtf8_utf8, Option.some.injEq] at hread

variable {format}

theorem decode_frameAs {text : String} {kind : UInt8} {key : Key}
    {data : Bytes} (hlength : (utf8 text).length < 256)
    (hkind : kind = kindOpen ∨ kind = kindData ∨ kind = kindClose)
    (hdata : isValidData kind data = true) :
    decode format (frameAs text kind key data) =
      (parseDevice format text).map fun peer =>
        (kind, { key.turned with peer }, data) := by
  obtain ⟨a, b, c, d, hbytes⟩ := four_bytes key.id.toNat
  have hnumber : fromBe [a, b, c, d] = key.id.toNat := by
    rw [← hbytes, fromBe_beBytes key.id.toNat_lt]
  have hbyte : (UInt8.ofNat (utf8 text).length).toNat = (utf8 text).length := by
    rw [toNat_ofNat_byte, Nat.mod_eq_of_lt hlength]
  simp only [frameAs, hbytes, List.cons_append, List.nil_append, decode, hbyte,
    flagsOf_read]
  rw [if_neg (by simp [hkind, flagsOf_reserved]),
    if_neg (by rw [List.length_append]; omega), List.take_left, List.drop_left,
    fromUtf8_utf8, Option.bind_some, hnumber, UInt32.ofNat_toNat]
  cases parseDevice format text with
  | none => rfl
  | some peer => exact if_pos hdata

/-- A frame is accepted just when it is a valid tunnel's frame with its device's
ID written as some text that reads as this ID. -/
theorem decode_eq_some_iff_frameAs {frame : Bytes} {kind : UInt8} {key : Key}
    {data : Bytes} :
    decode format frame = some (kind, key, data) ↔
      (kind = kindOpen ∨ kind = kindData ∨ kind = kindClose) ∧
      isValidData kind data = true ∧
      ∃ text, (utf8 text).length < 256 ∧
        parseDevice format text = some key.peer ∧
        frame = frameAs text kind key.turned data := by
  constructor
  · intro hdecode
    unfold decode at hdecode
    split at hdecode
    case h_2 => cases hdecode
    case h_1 first flags a b c d len rest =>
      split_ifs at hdecode with hheader hshort
      obtain ⟨peer, hpeer, hdata⟩ := Option.bind_eq_some_iff.mp hdecode
      obtain ⟨text, htext, hparse⟩ := Option.bind_eq_some_iff.mp hpeer
      dsimp only at hdata
      split_ifs at hdata with hvalid
      cases hdata
      rw [not_or, not_not, not_not] at hheader
      have hid : utf8 text = rest.take len.toNat := utf8_fromUtf8 htext
      have hlength : (utf8 text).length = len.toNat := by
        rw [hid, List.length_take, Nat.min_eq_left (Nat.not_lt.mp hshort)]
      have hfour : beBytes 4 (fromBe [a, b, c, d]) = [a, b, c, d] :=
        beBytes_fromBe [a, b, c, d]
      have hfits := fromBe_four_lt a b c d
      refine ⟨hheader.1, hvalid, text, hlength ▸ len.toNat_lt, hparse, ?_⟩
      rw [frameAs, hlength, hid, UInt8.ofNat_toNat]
      dsimp only [Key.turned]
      rw [flagsOf_of_reserved hheader.2, UInt32.toNat_ofNat_of_lt' hfits, hfour,
        List.append_assoc, List.take_append_drop]
      rfl
  · rintro ⟨hkind, hdata, text, hlength, hpeer, rfl⟩
    rw [decode_frameAs hlength hkind hdata, hpeer, Option.map_some,
      Key.turned_turned]

end Cled.Desktop
