import Cled.Lan.Noise

/-!
# Messages

What paired devices send each other, and their binary encoding.  The encoding
itself, postcard, is not part of the repository; it is a parameter.
-/

namespace Cled.Lan.Wire

open Cled.Clipboard Cled.Sync

structure Hello where
  protocol : UInt16
  deviceId : Uuid
  name : String
  /-- The port this device accepts connections on, so the peer can dial back. -/
  listenPort : UInt16
  /-- Sender's clock, to warn about clock differences between devices. -/
  timeMs : ℕ
  deriving DecidableEq

inductive ByeReason where
  /-- The sender removed this device from its paired devices. -/
  | unpaired
  deriving DecidableEq

inductive Message where
  | hello (hello : Hello)
  | item (wire : WireItem)
  | ping
  | bye (reason : ByeReason)
  | roster (roster : Roster)
  deriving DecidableEq

/-- `to_stdvec` and `from_bytes`, which answer with an error text if they
fail. -/
structure Postcard where
  toStdvec : Message → Except String Bytes
  fromBytes : Bytes → Except String Message

/-- What postcard encodes it decodes back. -/
def Postcard.Lossless (postcard : Postcard) : Prop :=
  ∀ message bytes, postcard.toStdvec message = .ok bytes →
    postcard.fromBytes bytes = .ok message

namespace Message

variable (postcard : Postcard)

def encode (message : Message) : Except LanError Bytes :=
  match postcard.toStdvec message with
  | .error text => .error (.malformed text)
  | .ok bytes =>
      if maxMessageBytes < bytes.length then .error (.tooLarge bytes.length)
      else .ok bytes

def decode (bytes : Bytes) : Except LanError Message :=
  match postcard.fromBytes bytes with
  | .error text => .error (.malformed text)
  | .ok message => .ok message

theorem encode_eq_ok_iff {message : Message} {bytes : Bytes} :
    message.encode postcard = .ok bytes ↔
      postcard.toStdvec message = .ok bytes ∧ bytes.length ≤ maxMessageBytes := by
  rw [encode]
  cases postcard.toStdvec message with
  | error text => simp
  | ok encoded =>
      dsimp only
      rw [Except.ok.injEq]
      constructor
      · intro hencode
        split at hencode
        · cases hencode
        · next hfits =>
          obtain rfl := Except.ok.inj hencode
          exact ⟨rfl, Nat.le_of_not_lt hfits⟩
      · rintro ⟨rfl, hfits⟩
        rw [if_neg (Nat.not_lt.mpr hfits)]

/-- What is encoded is decoded back. -/
theorem decode_encode {postcard : Postcard} (hpostcard : postcard.Lossless)
    {message : Message} {bytes : Bytes}
    (hencode : message.encode postcard = .ok bytes) :
    decode postcard bytes = .ok message := by
  have hbytes := hpostcard message bytes ((encode_eq_ok_iff postcard).mp hencode).1
  rw [decode, hbytes]

end Message

/-! ## What becomes of a message -/

/-- What the reader of a session does with a message. -/
inductive Handled where
  | received (item : ClipboardItem)
  | dropped (error : LanError)
  /-- This device was removed: it leaves the group, and the session ends. -/
  | leftGroup
  | roster (roster : Roster)
  | nothing
  | malformed (error : LanError)
  deriving DecidableEq

/-- One turn of the loop of `read_loop`, once it has the message. -/
def handle (postcard : Postcard) (png : PngCodec) (bytes : Bytes) : Handled :=
  match Message.decode postcard bytes with
  | .ok (.item wire) =>
      match wire.intoItem png with
      | .ok item => .received item
      | .error error => .dropped error
  | .ok (.bye .unpaired) => .leftGroup
  | .ok (.roster roster) => .roster roster
  | .ok .ping => .nothing
  | .ok (.hello _) => .nothing
  | .error error => .malformed error

end Cled.Lan.Wire
