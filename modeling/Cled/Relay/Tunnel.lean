import Cled.Clipboard.Content
import Cled.Core.Framing

/-!
# Tunnel frames on the relay

Devices reach each other through the relay in binary frames: the kind, a flag
that says which side opened the tunnel, the tunnel's ID, a device's ID with its
length, and data.  The relay reads the header only, to route.
-/

namespace Cled.Relay

open Cled.Core Cled.Clipboard

/-! ## Identifiers -/

/-- `[A-Za-z0-9._:-]`. -/
def isIdentifierChar (char : Char) : Bool :=
  char.isAlphanum || char == '.' || char == '_' || char == ':' || char == '-'

def maxDeviceIdBytes : ℕ := 128

/-- `identifierSchema`. -/
def isIdentifier (text : String) : Bool :=
  1 ≤ text.toList.length && text.toList.length ≤ maxDeviceIdBytes &&
    text.toList.all isIdentifierChar

/-- The shape shared by user and device IDs. -/
structure Identifier where
  text : String
  valid : isIdentifier text = true
  deriving DecidableEq

namespace Identifier

@[ext]
theorem ext {left right : Identifier} (htext : left.text = right.text) :
    left = right := by
  cases left
  cases right
  congr

def parse (text : String) : Option Identifier :=
  if valid : isIdentifier text = true then some ⟨text, valid⟩ else none

theorem parse_text (id : Identifier) : parse id.text = some id :=
  dif_pos id.valid

theorem length_pos (id : Identifier) : 1 ≤ id.text.toList.length := by
  have hvalid := id.valid
  simp only [isIdentifier, Bool.and_eq_true, decide_eq_true_eq] at hvalid
  exact hvalid.1.1

theorem length_le (id : Identifier) :
    id.text.toList.length ≤ maxDeviceIdBytes := by
  have hvalid := id.valid
  simp only [isIdentifier, Bool.and_eq_true, decide_eq_true_eq] at hvalid
  exact hvalid.1.2

theorem isIdentifierChar_of_mem (id : Identifier) {char : Char}
    (hmem : char ∈ id.text.toList) : isIdentifierChar char = true := by
  have hvalid := id.valid
  simp only [isIdentifier, Bool.and_eq_true, List.all_eq_true] at hvalid
  exact hvalid.2 char hmem

end Identifier

/-! ## Latin-1 text -/

def fromLatin1 (bytes : Bytes) : String :=
  String.ofList (bytes.map fun byte => Char.ofNat byte.toNat)

def toLatin1 (text : String) : Bytes :=
  text.toList.map fun char => UInt8.ofNat char.toNat

@[simp]
theorem length_toLatin1 (text : String) :
    (toLatin1 text).length = text.toList.length := List.length_map _

theorem isIdentifierChar_lt {char : Char} (hchar : isIdentifierChar char = true) :
    char.toNat < 128 := by
  delta isIdentifierChar Char.isAlphanum Char.isAlpha Char.isUpper Char.isLower
    Char.isDigit at hchar
  simp only [Bool.or_eq_true, Bool.and_eq_true, decide_eq_true_eq,
    beq_iff_eq] at hchar
  have hup {last : Char} (hle : char.val ≤ last.val)
      (hlast : last.val.toNat < 128) : char.toNat < 128 :=
    Nat.lt_of_le_of_lt (UInt32.le_iff_toNat_le.mp hle) hlast
  rcases hchar with ((((((⟨-, hle⟩ | ⟨-, hle⟩) | ⟨-, hle⟩) | rfl) | rfl) | rfl) | rfl)
  · exact hup hle (by decide)
  · exact hup hle (by decide)
  · exact hup hle (by decide)
  all_goals decide

/-- Text of characters below 256 survives Latin-1. -/
theorem fromLatin1_toLatin1 {text : String}
    (hsmall : ∀ char ∈ text.toList, char.toNat < 256) :
    fromLatin1 (toLatin1 text) = text := by
  have hchar : ∀ char ∈ text.toList,
      Char.ofNat (UInt8.ofNat char.toNat).toNat = char := by
    intro char hmem
    rw [toNat_ofNat_byte, Nat.mod_eq_of_lt (hsmall char hmem), Char.ofNat_toNat]
  rw [fromLatin1, toLatin1, List.map_map]
  calc String.ofList (text.toList.map _)
      = String.ofList (text.toList.map id) :=
        congrArg String.ofList (List.map_congr_left hchar)
    _ = text := by rw [List.map_id, String.ofList_toList]

theorem Identifier.fromLatin1_toLatin1 (id : Identifier) :
    fromLatin1 (toLatin1 id.text) = id.text :=
  Relay.fromLatin1_toLatin1 fun _ hmem =>
    (isIdentifierChar_lt (id.isIdentifierChar_of_mem hmem)).trans (by decide)

/-! ## Frames -/

inductive TunnelKind where
  | open
  | data
  | close
  deriving DecidableEq

namespace TunnelKind

def code : TunnelKind → UInt8
  | .open => 1
  | .data => 2
  | .close => 3

def ofCode (code : UInt8) : Option TunnelKind :=
  if code = 1 then some .open
  else if code = 2 then some .data
  else if code = 3 then some .close
  else none

@[simp]
theorem ofCode_code (kind : TunnelKind) : ofCode kind.code = some kind := by
  cases kind <;> rfl

end TunnelKind

/-- Flag: the device that sent this frame opened the tunnel. -/
def flagOpener : UInt8 := 1

/-- Most data in one frame. -/
def maxTunnelDataBytes : ℕ := 64 * 1024

structure TunnelFrame where
  kind : TunnelKind
  flags : UInt8
  tunnelId : ℕ
  /-- The destination (from a device) or the source (from the relay). -/
  deviceId : Identifier
  data : Bytes
  deriving DecidableEq

/-- Only data frames carry data, and they carry some. -/
def validData (kind : TunnelKind) (data : Bytes) : Bool :=
  match kind with
  | .data => 1 ≤ data.length && data.length ≤ maxTunnelDataBytes
  | .open | .close => data.isEmpty

/-- Parses a binary frame's header; `none` if it isn't a valid tunnel frame. -/
def parseTunnelFrame (frame : Bytes) : Option TunnelFrame :=
  match frame with
  | kind :: flags :: a :: b :: c :: d :: idLength :: rest =>
      if rest = [] then none
      else
        (TunnelKind.ofCode kind).bind fun kind =>
          if flags &&& ~~~flagOpener ≠ 0 then none
          else if idLength.toNat < 1 ∨ maxDeviceIdBytes < idLength.toNat ∨
              rest.length < idLength.toNat then none
          else
            (Identifier.parse (fromLatin1 (rest.take idLength.toNat))).bind
              fun deviceId =>
                let data := rest.drop idLength.toNat
                if validData kind data then
                  some { kind, flags, tunnelId := fromBe [a, b, c, d],
                         deviceId, data }
                else none
  | _ => none

/-- The data is copied as is. -/
def encodeTunnelFrame (frame : TunnelFrame) : Bytes :=
  let id := toLatin1 frame.deviceId.text
  [frame.kind.code, frame.flags] ++ beBytes 4 frame.tunnelId ++
    [UInt8.ofNat id.length] ++ id ++ frame.data

/-- The `close` a device receives when its frame can't be delivered: the tunnel
as seen from the other end. -/
def undeliverable (frame : TunnelFrame) : TunnelFrame :=
  { kind := .close
    flags := frame.flags ^^^ flagOpener
    tunnelId := frame.tunnelId
    deviceId := frame.deviceId
    data := [] }

end Cled.Relay
