import Cled.Desktop.ThroughRelay

/-!
# Which device a frame is from

The encoder writes a device's ID as it is displayed.  The decoder takes every
text that reads as an ID, and the relay registers a connection under any
identifier.  So an accepted frame is the encoder's own just when the ID in it is
written as displayed, and a delivered frame is from whichever device the
sender's identifier reads as.
-/

namespace Cled.Desktop

open Cled.Core Cled.Clipboard Cled.Sync Cled.Relay

variable {format : UuidFormat}

/-! ## Accepted frames -/

/-- An accepted frame differs from the encoder's in how the ID is written, if at
all. -/
theorem exists_text_of_decode (hformat : format.Hyphenated) {frame : Bytes}
    {kind : UInt8} {key : Key} {data : Bytes}
    (hdecode : decode format frame = some (kind, key, data)) :
    ∃ text, frame = frameAs text kind key.turned data ∧
      parseDevice format text = some key.peer ∧
      encode format kind key.turned data =
        some (frameAs (deviceText format key.peer) kind key.turned data) ∧
      (encode format kind key.turned data = some frame ↔
        text = deviceText format key.peer) := by
  obtain ⟨-, -, text, -, hparse, rfl⟩ := decode_eq_some_iff_frameAs.mp hdecode
  have hencode := encode_eq_frameAs format kind key.turned data
    (length_utf8_deviceText hformat key.peer)
  refine ⟨text, rfl, hparse, hencode, ?_⟩
  rw [hencode, Option.some.injEq]
  constructor
  · intro heq
    exact (frameAs_injective heq).symm
  · rintro rfl
    rfl

/-! ## Delivered frames -/

/-- What the relay makes of a valid frame is a valid frame. -/
theorem parseTunnelFrame_valid {bytes : Bytes} {frame : TunnelFrame}
    (hparse : parseTunnelFrame bytes = some frame) :
    frame.flags &&& ~~~Desktop.flagOpener = 0 ∧
      frame.tunnelId < UInt32.size ∧
      validData frame.kind frame.data = true := by
  unfold parseTunnelFrame at hparse
  split at hparse
  case h_2 => cases hparse
  case h_1 first flags a b c d len rest =>
    by_cases hempty : rest = []
    · rw [if_pos hempty] at hparse
      cases hparse
    rw [if_neg hempty] at hparse
    obtain ⟨kind, -, hkind⟩ := Option.bind_eq_some_iff.mp hparse
    split_ifs at hkind with hflags hshort
    obtain ⟨deviceId, -, hdata⟩ := Option.bind_eq_some_iff.mp hkind
    dsimp only at hdata
    split_ifs at hdata with hvalid
    cases hdata
    exact ⟨not_not.mp hflags, fromBe_four_lt a b c d, hvalid⟩

/-- `delivered` is a frame of `sender` as the relay hands it to another
connection. -/
def Delivered (connections : ConnectionRegistry) (sender : Connection)
    (delivered : Bytes) : Prop :=
  ∃ bytes frame recipient, parseTunnelFrame bytes = some frame ∧
    connections.getConnection sender.userId frame.deviceId = some recipient ∧
    sendBinary recipient.socket delivered ∈
      forwardTunnelFrame connections sender bytes

/-- The device that a frame is from, as this device sees it. -/
def source (format : UuidFormat) (frame : Bytes) : Option DeviceId :=
  (decode format frame).map fun decoded => decoded.2.1.peer

section Delivered

variable {connections : ConnectionRegistry} {sender : Connection}
  {delivered : Bytes}

/-- A delivered frame is valid and names the sender by the identifier it is
registered under. -/
theorem Delivered.exists_frameAs
    (hdelivered : Delivered connections sender delivered) :
    ∃ kind key data,
      (kind = kindOpen ∨ kind = kindData ∨ kind = kindClose) ∧
      isValidData kind data = true ∧
      delivered = frameAs sender.deviceId.text kind key data := by
  obtain ⟨bytes, frame, recipient, hparse, hrecipient, hsent⟩ := hdelivered
  obtain ⟨hflags, hfits, hvalid⟩ := parseTunnelFrame_valid hparse
  rw [forwardTunnelFrame, hparse] at hsent
  dsimp only at hsent
  split at hsent
  · -- A connection's frame to itself is answered with an error.
    have heffect := List.mem_singleton.mp hsent
    rw [sendBinary, sendError, send, Effect.mk.injEq] at heffect
    exact Output.noConfusion heffect.2
  · rw [hrecipient] at hsent
    dsimp only at hsent
    have heffect := List.mem_singleton.mp hsent
    rw [sendBinary, sendBinary, Effect.mk.injEq, Output.binary.injEq] at heffect
    obtain ⟨-, rfl⟩ := heffect
    refine ⟨frame.kind.code, ⟨⟨0⟩, UInt32.ofNat frame.tunnelId,
      !decide (frame.flags &&& Desktop.flagOpener = 0)⟩, frame.data,
      code_valid frame.kind, (isValidData_code _ _).trans hvalid, ?_⟩
    rw [frameAs, encodeTunnelFrame, flagsOf_of_reserved hflags,
      UInt32.toNat_ofNat_of_lt' hfits, utf8_identifier]

theorem Delivered.source (hdelivered : Delivered connections sender delivered) :
    source format delivered = parseDevice format sender.deviceId.text := by
  obtain ⟨kind, key, data, hkind, hdata, rfl⟩ := hdelivered.exists_frameAs
  rw [Desktop.source, decode_frameAs (length_utf8_identifier _) hkind hdata,
    Option.map_map]
  exact Option.map_id'

/-- The frame of a connection that is registered under its device's own text is
the one that the device's ID is written in. -/
theorem Delivered.encode (hformat : format.Hyphenated)
    (hdelivered : Delivered connections sender delivered) {device : DeviceId}
    (hsender : sender.deviceId.text = deviceText format device) :
    ∃ kind key data, key.peer = device ∧
      decode format delivered = some (kind, key, data) ∧
      encode format kind key.turned data = some delivered := by
  obtain ⟨kind, key, data, hkind, hdata, rfl⟩ := hdelivered.exists_frameAs
  have hlength := length_utf8_deviceText hformat device
  rw [hsender, decode_frameAs hlength hkind hdata,
    parseDevice_deviceText hformat]
  refine ⟨kind, { key.turned with peer := device }, data, rfl, rfl, ?_⟩
  rw [encode_eq_frameAs format _ _ _ hlength]
  simp only [frameAs, Key.turned, Bool.not_not]

end Delivered

/-- A frame is accepted for every text that its device's ID reads as; the
encoder's own are those with the ID as displayed.  The relay's frames are from
the device that the sender's identifier reads as, so two connections under
different IDs as displayed are never taken for one device. -/
theorem accepted_as_read (hformat : format.Hyphenated) :
    (∀ frame kind key data, decode format frame = some (kind, key, data) →
      ∃ text, frame = frameAs text kind key.turned data ∧
        parseDevice format text = some key.peer ∧
        encode format kind key.turned data =
          some (frameAs (deviceText format key.peer) kind key.turned data) ∧
        (encode format kind key.turned data = some frame ↔
          text = deviceText format key.peer)) ∧
    (∀ connections sender delivered,
      Delivered connections sender delivered →
      source format delivered = parseDevice format sender.deviceId.text ∧
      ∀ device, sender.deviceId.text = deviceText format device →
        ∃ kind key data, key.peer = device ∧
          decode format delivered = some (kind, key, data) ∧
          encode format kind key.turned data = some delivered) ∧
    (∀ connections sender delivered connections' sender' delivered',
      Delivered connections sender delivered →
      Delivered connections' sender' delivered' →
      sender.deviceId ≠ sender'.deviceId →
      (∃ device, sender.deviceId.text = deviceText format device) →
      (∃ device, sender'.deviceId.text = deviceText format device) →
      source format delivered ≠ source format delivered') := by
  refine ⟨fun _ _ _ _ => exists_text_of_decode hformat, ?_, ?_⟩
  · intro connections sender delivered hdelivered
    exact ⟨hdelivered.source, fun _ => hdelivered.encode hformat⟩
  · rintro _ sender _ _ sender' _ hleft hright hne ⟨device, hdevice⟩
      ⟨device', hdevice'⟩ heq
    rw [hleft.source, hright.source, hdevice, hdevice',
      parseDevice_deviceText hformat, parseDevice_deviceText hformat,
      Option.some.injEq] at heq
    apply hne
    apply Identifier.ext
    rw [hdevice, hdevice', heq]

/-! ## An ID without its hyphens -/

/-- A connection that is registered under the bare digits of an ID. -/
def bareDigits : Identifier :=
  ⟨"00000000000000000000000000000001", by decide⟩

theorem parseDevice_bareDigits :
    parseDevice hyphenatedFormat bareDigits.text = some ⟨1⟩ := by
  decide +kernel

def examplePhone : Connection :=
  ⟨exampleUser, deviceIdentifier hyphenatedFormat_hyphenated ⟨2⟩, 5⟩

def exampleConnections : ConnectionRegistry :=
  ⟨Indexes.empty.add examplePhone, Indexes.agree_empty.add rfl⟩

def exampleKey : Key := ⟨⟨1⟩, 7, true⟩

/-- What the phone is handed when another connection opens a tunnel to it. -/
theorem delivered_open {sender : Connection}
    (huser : sender.userId = exampleUser)
    (hother : examplePhone.deviceId ≠ sender.deviceId) :
    Delivered exampleConnections sender
      (frameAs sender.deviceId.text kindOpen exampleKey []) := by
  let frame : TunnelFrame := ⟨.open, 1, 7, examplePhone.deviceId, []⟩
  have hparse : parseTunnelFrame (encodeTunnelFrame frame) = some frame :=
    parseTunnelFrame_encodeTunnelFrame (by decide) (by decide) rfl
  have hphone : exampleConnections.getConnection sender.userId
      frame.deviceId = some examplePhone :=
    (Indexes.getConnection_add _ _ _ _).trans (if_pos ⟨huser, rfl⟩)
  refine ⟨encodeTunnelFrame frame, frame, examplePhone, hparse, hphone, ?_⟩
  rw [forwardTunnelFrame, hparse]
  dsimp only
  rw [if_neg hother, hphone, List.mem_singleton, frameAs, utf8_identifier]
  rfl

theorem length_bareDigits_ne (device : DeviceId) :
    bareDigits.text ≠ deviceText hyphenatedFormat device := by
  intro heq
  have hlength := congrArg (fun text : String => text.toList.length) heq
  dsimp only [deviceText] at hlength
  rw [hyphenatedFormat_hyphenated.length] at hlength
  exact absurd hlength (by decide)

theorem delivered_bareDigits :
    Delivered exampleConnections ⟨exampleUser, bareDigits, 6⟩
      (frameAs bareDigits.text kindOpen exampleKey []) := by
  apply delivered_open rfl
  intro heq
  exact length_bareDigits_ne ⟨2⟩ (congrArg Identifier.text heq).symm

/-- The bare digits are accepted and are not what the encoder writes; under them
a second connection is taken for the device. -/
theorem not_accepted_as_written :
    let laptop : Connection :=
      ⟨exampleUser, deviceIdentifier hyphenatedFormat_hyphenated ⟨1⟩, 4⟩
    let other : Connection := ⟨exampleUser, bareDigits, 6⟩
    let frameOf (sender : Connection) : Bytes :=
      frameAs sender.deviceId.text kindOpen exampleKey []
    decode hyphenatedFormat (frameOf other) =
        some (kindOpen, exampleKey.turned, []) ∧
      encode hyphenatedFormat kindOpen exampleKey [] ≠ some (frameOf other) ∧
      laptop.deviceId ≠ other.deviceId ∧
      Delivered exampleConnections laptop (frameOf laptop) ∧
      Delivered exampleConnections other (frameOf other) ∧
      source hyphenatedFormat (frameOf laptop) = some ⟨1⟩ ∧
      source hyphenatedFormat (frameOf other) = some ⟨1⟩ := by
  intro laptop other frameOf
  have hne : bareDigits.text ≠ deviceText hyphenatedFormat ⟨1⟩ :=
    length_bareDigits_ne ⟨1⟩
  have hlaptop : Delivered exampleConnections laptop (frameOf laptop) := by
    apply delivered_open rfl
    intro heq
    exact absurd (deviceIdentifier_injective hyphenatedFormat_hyphenated heq)
      (by decide)
  have hother : Delivered exampleConnections other (frameOf other) :=
    delivered_bareDigits
  refine ⟨?_, ?_, ?_, hlaptop, hother, ?_, ?_⟩
  · rw [decode_frameAs (length_utf8_identifier bareDigits) (.inl rfl) rfl,
      parseDevice_bareDigits]
    rfl
  · rw [encode_eq_frameAs _ _ _ _
      (length_utf8_deviceText hyphenatedFormat_hyphenated ⟨1⟩)]
    intro heq
    exact hne (frameAs_injective (Option.some.inj heq)).symm
  · intro heq
    exact hne (congrArg Identifier.text heq).symm
  · rw [hlaptop.source]
    exact parseDevice_deviceText hyphenatedFormat_hyphenated ⟨1⟩
  · rw [hother.source]
    exact parseDevice_bareDigits

/-- The frame of the second connection, and what its identifier reads as. -/
theorem accepted_as_read_bareDigits :
    let other : Connection := ⟨exampleUser, bareDigits, 6⟩
    let frame := frameAs bareDigits.text kindOpen exampleKey []
    Delivered exampleConnections other frame ∧
      source hyphenatedFormat frame = some ⟨1⟩ := by
  intro other frame
  have hsource := ((accepted_as_read hyphenatedFormat_hyphenated).2.1
    exampleConnections other frame delivered_bareDigits).1
  exact ⟨delivered_bareDigits, hsource.trans parseDevice_bareDigits⟩

end Cled.Desktop
