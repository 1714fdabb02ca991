import Cled.Desktop.Tunnel
import Cled.Relay.Routes

/-!
# A tunnel seen from both ends

A frame names the other device and carries the sender's view of who opened the
tunnel.  The relay puts the sender in the place of the destination, and each end
turns the flag round, so both ends mean the same tunnel.
-/

namespace Cled.Desktop

open Cled.Core Cled.Clipboard Cled.Sync Cled.Relay

/-! ## The relay's side -/

theorem length_toLatin1_pos (id : Identifier) :
    1 ≤ (toLatin1 id.text).length := by
  rw [length_toLatin1]
  exact id.length_pos

theorem length_toLatin1_le (id : Identifier) :
    (toLatin1 id.text).length ≤ maxDeviceIdBytes := by
  rw [length_toLatin1]
  exact id.length_le

/-- The length byte of an identifier. -/
theorem toNat_length_toLatin1 (id : Identifier) :
    (UInt8.ofNat (toLatin1 id.text).length).toNat =
      (toLatin1 id.text).length := by
  have hle := length_toLatin1_le id
  rw [toNat_ofNat_byte, Nat.mod_eq_of_lt]
  exact Nat.lt_of_le_of_lt hle (by decide)

/-- The relay parses what it encodes. -/
theorem parseTunnelFrame_encodeTunnelFrame {frame : TunnelFrame}
    (hflags : frame.flags &&& ~~~Relay.flagOpener = 0)
    (hid : frame.tunnelId < 2 ^ 32)
    (hdata : validData frame.kind frame.data = true) :
    parseTunnelFrame (encodeTunnelFrame frame) = some frame := by
  obtain ⟨kind, flags, tunnelId, deviceId, data⟩ := frame
  dsimp only at hflags hid hdata
  have hpos := length_toLatin1_pos deviceId
  have hle := length_toLatin1_le deviceId
  have hparse : Identifier.parse (fromLatin1 (toLatin1 deviceId.text)) =
      some deviceId := by
    rw [deviceId.fromLatin1_toLatin1, deviceId.parse_text]
  obtain ⟨a, b, c, d, hbytes⟩ := four_bytes tunnelId
  have hnumber : fromBe [a, b, c, d] = tunnelId := by
    rw [← hbytes, fromBe_beBytes hid]
  have hrest : toLatin1 deviceId.text ++ data ≠ [] :=
    List.append_ne_nil_of_left_ne_nil (List.ne_nil_of_length_pos hpos) _
  have hshort : ¬ ((toLatin1 deviceId.text).length < 1 ∨
      maxDeviceIdBytes < (toLatin1 deviceId.text).length ∨
      (toLatin1 deviceId.text ++ data).length <
        (toLatin1 deviceId.text).length) := by
    rw [List.length_append]
    omega
  simp only [encodeTunnelFrame, hbytes, List.cons_append, List.nil_append,
    parseTunnelFrame, TunnelKind.ofCode_code,
    Option.bind_some, toNat_length_toLatin1]
  rw [if_neg hrest, if_neg (by simp [hflags]), if_neg hshort,
    List.take_left, List.drop_left, hparse, Option.bind_some, if_pos hdata,
    hnumber]

/-! ## The desktop's side -/

variable {format : UuidFormat}

/-- A displayed UUID has characters of an identifier only. -/
theorem isIdentifierChar_of_hyphenated {char : Char}
    (hmem : char ∈ "0123456789abcdef-".toList) :
    isIdentifierChar char = true ∧ isWhiteSpace char = false := by
  have hall : ("0123456789abcdef-".toList.all fun char =>
      isIdentifierChar char && !isWhiteSpace char) = true := by decide
  have hboth := List.all_eq_true.mp hall char hmem
  simpa using hboth

theorem trim_of_forall {text : String}
    (hchars : ∀ char ∈ text.toList, isWhiteSpace char = false) :
    trim text = text := by
  have hfront : text.toList.dropWhile isWhiteSpace = text.toList := by
    cases hlist : text.toList with
    | nil => rfl
    | cons char chars =>
        have hchar := hchars char (hlist ▸ List.mem_cons_self)
        exact List.dropWhile_cons_of_neg (by simp [hchar])
  have hback : text.toList.rdropWhile isWhiteSpace = text.toList := by
    rw [List.rdropWhile_eq_self_iff]
    intro hne
    have hchar := hchars _ (List.getLast_mem hne)
    simp [hchar]
  rw [trim, hfront, hback, String.ofList_toList]

theorem parseDevice_deviceText (hformat : format.Hyphenated)
    (device : DeviceId) :
    parseDevice format (deviceText format device) = some device := by
  have htrim : trim (deviceText format device) = deviceText format device :=
    trim_of_forall fun char hmem =>
      (isIdentifierChar_of_hyphenated (hformat.chars _ char hmem)).2
  rw [parseDevice, htrim, deviceText, hformat.parse]
  rfl

theorem isIdentifier_deviceText (hformat : format.Hyphenated)
    (device : DeviceId) :
    isIdentifier (deviceText format device) = true := by
  have hlength := hformat.length device.uuid
  simp only [isIdentifier, deviceText, hlength, Bool.and_eq_true,
    decide_eq_true_eq, List.all_eq_true]
  refine ⟨by decide, fun char hmem => ?_⟩
  exact (isIdentifierChar_of_hyphenated (hformat.chars _ char hmem)).1

/-- What a device registers as. -/
def deviceIdentifier (hformat : format.Hyphenated) (device : DeviceId) :
    Identifier :=
  ⟨deviceText format device, isIdentifier_deviceText hformat device⟩

theorem deviceIdentifier_injective (hformat : format.Hyphenated) :
    Function.Injective (deviceIdentifier hformat) := by
  intro left right heq
  have htext : deviceText format left = deviceText format right :=
    congrArg Identifier.text heq
  have hparse := congrArg (parseDevice format) htext
  rwa [parseDevice_deviceText hformat, parseDevice_deviceText hformat,
    Option.some.injEq] at hparse

theorem utf8_identifier (id : Identifier) : utf8 id.text = toLatin1 id.text :=
  utf8_eq_map_of_ascii fun _ hmem =>
    isIdentifierChar_lt (id.isIdentifierChar_of_mem hmem)

theorem length_utf8_identifier (id : Identifier) :
    (utf8 id.text).length < 256 := by
  rw [utf8_identifier]
  exact Nat.lt_of_le_of_lt (length_toLatin1_le id) (by decide)

theorem utf8_deviceText (hformat : format.Hyphenated) (device : DeviceId) :
    utf8 (deviceText format device) = toLatin1 (deviceText format device) :=
  utf8_identifier (deviceIdentifier hformat device)

theorem length_utf8_deviceText (hformat : format.Hyphenated)
    (device : DeviceId) : (utf8 (deviceText format device)).length < 256 :=
  length_utf8_identifier (deviceIdentifier hformat device)

/-- The frame a device makes, as the relay sees it. -/
def frameOf (hformat : format.Hyphenated) (kind : TunnelKind) (key : Key)
    (data : Bytes) : TunnelFrame where
  kind := kind
  flags := flagsOf key.openedHere
  tunnelId := key.id.toNat
  deviceId := deviceIdentifier hformat key.peer
  data := data

/-- The flag as the relay's answer has it. -/
theorem flagsOf_not (openedHere : Bool) :
    flagsOf openedHere ^^^ Relay.flagOpener = flagsOf (!openedHere) := by
  cases openedHere <;> decide

theorem isValidData_code (kind : TunnelKind) (data : Bytes) :
    isValidData kind.code data = validData kind data := by
  cases kind <;> rfl

/-- A device makes the frame that the relay would encode. -/
theorem encode_eq_encodeTunnelFrame (hformat : format.Hyphenated)
    (kind : TunnelKind) (key : Key) (data : Bytes) :
    encode format kind.code key data =
      some (encodeTunnelFrame (frameOf hformat kind key data)) := by
  rw [encode_eq_frameAs format _ _ _ (length_utf8_deviceText hformat key.peer),
    frameAs, utf8_deviceText hformat]
  rfl

theorem code_valid (kind : TunnelKind) :
    kind.code = kindOpen ∨ kind.code = kindData ∨ kind.code = kindClose := by
  cases kind <;> decide

/-- A device reads what the relay encodes. -/
theorem decode_encodeTunnelFrame (hformat : format.Hyphenated)
    (kind : TunnelKind) (key : Key) {data : Bytes}
    (hdata : validData kind data = true) :
    decode format (encodeTunnelFrame (frameOf hformat kind key data)) =
      some (kind.code, { key with openedHere := !key.openedHere }, data) := by
  have hframe : encodeTunnelFrame (frameOf hformat kind key data) =
      frameAs (deviceText format key.peer) kind.code key data := by
    rw [frameAs, utf8_deviceText hformat]
    rfl
  rw [hframe, decode_frameAs (length_utf8_deviceText hformat key.peer)
    (code_valid kind) ((isValidData_code kind data).trans hdata),
    parseDevice_deviceText hformat]
  rfl

theorem exists_code {kind : UInt8}
    (hkind : kind = kindOpen ∨ kind = kindData ∨ kind = kindClose) :
    ∃ tunnelKind : TunnelKind, kind = tunnelKind.code := by
  rcases hkind with rfl | rfl | rfl
  · exact ⟨.open, rfl⟩
  · exact ⟨.data, rfl⟩
  · exact ⟨.close, rfl⟩

/-! ## Through the relay -/

/-- The frame a device makes for a tunnel is accepted by the relay and means the
same tunnel where it is delivered; the answer to a frame that cannot be
delivered closes the sender's own tunnel. -/
theorem same_tunnel_at_both_ends (hformat : format.Hyphenated)
    (connections : ConnectionRegistry) {a b : DeviceId} (hne : a ≠ b)
    {sender : Connection} (hsender : sender.deviceId.text = deviceText format a)
    {kind : UInt8}
    (hkind : kind = kindOpen ∨ kind = kindData ∨ kind = kindClose)
    (id : UInt32) (openedHere : Bool) {data : Bytes}
    (hdata : isValidData kind data = true) :
    ∃ frame, encode format kind ⟨b, id, openedHere⟩ data = some frame ∧
      (parseTunnelFrame frame).isSome ∧
      ∀ deviceId : Identifier, deviceId.text = deviceText format b →
        (∀ recipient,
          connections.getConnection sender.userId deviceId = some recipient →
          ∃ delivered,
            forwardTunnelFrame connections sender frame =
              [sendBinary recipient.socket delivered] ∧
            decode format delivered =
              some (kind, ⟨a, id, !openedHere⟩, data)) ∧
        (connections.getConnection sender.userId deviceId = none →
          kind ≠ kindClose →
          ∃ answer,
            forwardTunnelFrame connections sender frame =
              [sendBinary sender.socket answer] ∧
            decode format answer =
              some (kindClose, ⟨b, id, openedHere⟩, [])) := by
  obtain ⟨tunnelKind, rfl⟩ := exists_code hkind
  rw [isValidData_code] at hdata
  set key : Key := ⟨b, id, openedHere⟩ with hkey
  have hparse : parseTunnelFrame (encodeTunnelFrame
      (frameOf hformat tunnelKind key data)) =
      some (frameOf hformat tunnelKind key data) :=
    parseTunnelFrame_encodeTunnelFrame (flagsOf_reserved openedHere) id.toNat_lt
      hdata
  have hself : sender.deviceId = deviceIdentifier hformat a :=
    Identifier.ext hsender
  have hother : deviceIdentifier hformat b ≠ sender.deviceId := by
    rw [hself]
    exact fun heq => hne (deviceIdentifier_injective hformat heq).symm
  refine ⟨_, encode_eq_encodeTunnelFrame hformat tunnelKind key data,
    Option.isSome_of_eq_some hparse, fun deviceId hdevice => ?_⟩
  obtain rfl : deviceId = deviceIdentifier hformat b := Identifier.ext hdevice
  rw [forwardTunnelFrame, hparse]
  dsimp only [frameOf]
  rw [if_neg hother]
  constructor
  · intro recipient hrecipient
    rw [hrecipient]
    refine ⟨_, rfl, ?_⟩
    rw [hself]
    exact decode_encodeTunnelFrame hformat tunnelKind ⟨a, id, openedHere⟩ hdata
  · intro hnone hclose
    have hkindClose : tunnelKind ≠ .close := fun heq => hclose (heq ▸ rfl)
    rw [hnone]
    dsimp only
    rw [if_neg hkindClose]
    refine ⟨_, rfl, ?_⟩
    have hanswer : decode format (encodeTunnelFrame
        (frameOf hformat .close ⟨b, id, !openedHere⟩ [])) = _ :=
      decode_encodeTunnelFrame hformat .close _ rfl
    rw [Bool.not_not] at hanswer
    rw [undeliverable, flagsOf_not]
    exact hanswer

/-! ## The hyphenated form -/

/-- The last `count` hexadecimal digits. -/
def hexDigits : ℕ → ℕ → List Char
  | 0, _ => []
  | count + 1, value => hexDigits count (value / 16) ++ [Nat.digitChar (value % 16)]

def hexValue (char : Char) : ℕ :=
  if char.isDigit then char.toNat - 48 else char.toNat - 87

def hyphenated (digits : List Char) : List Char :=
  digits.take 8 ++ '-' :: (digits.drop 8).take 4 ++
    '-' :: (digits.drop 12).take 4 ++ '-' :: (digits.drop 16).take 4 ++
      '-' :: digits.drop 20

/-- Eight, four, four, four and twelve digits. -/
def hyphenatedFormat : UuidFormat where
  display uuid := String.ofList (hyphenated (hexDigits 32 uuid.toNat))
  parseStr text :=
    let digits := text.toList.filter (· ≠ '-')
    if digits.length = 32 then
      some (BitVec.ofNat 128
        (digits.foldl (fun value char => value * 16 + hexValue char) 0))
    else none

@[simp]
theorem length_hexDigits (count value : ℕ) :
    (hexDigits count value).length = count := by
  induction count generalizing value with
  | zero => rfl
  | succ count ih =>
      rw [hexDigits, List.length_append, ih, List.length_singleton]

theorem digitChar_spec {digit : ℕ} (hdigit : digit < 16) :
    Nat.digitChar digit ∈ "0123456789abcdef".toList ∧
      hexValue (Nat.digitChar digit) = digit := by
  revert digit
  decide

theorem hexDigits_mem {count value : ℕ} {char : Char}
    (hmem : char ∈ hexDigits count value) :
    char ∈ "0123456789abcdef".toList := by
  induction count generalizing value with
  | zero => cases hmem
  | succ count ih =>
      rcases List.mem_append.mp hmem with hfront | hlast
      · exact ih hfront
      · rw [List.mem_singleton.mp hlast]
        exact (digitChar_spec (Nat.mod_lt _ (by decide))).1

theorem foldl_hexDigits (count value : ℕ) :
    (hexDigits count value).foldl
        (fun value char => value * 16 + hexValue char) 0 =
      value % 16 ^ count := by
  induction count generalizing value with
  | zero => exact (Nat.mod_one value).symm
  | succ count ih =>
      have hlast := (digitChar_spec (Nat.mod_lt value (by decide : 16 > 0))).2
      rw [hexDigits, List.foldl_append, ih, List.foldl_cons, List.foldl_nil,
        hlast, pow_succ, Nat.mul_comm (16 ^ count), Nat.mod_mul, Nat.add_comm,
        Nat.mul_comm]

theorem mem_hyphenated {digits : List Char} {char : Char}
    (hmem : char ∈ hyphenated digits) : char = '-' ∨ char ∈ digits := by
  simp only [hyphenated, List.mem_append, List.mem_cons] at hmem
  have hpart {start count : ℕ} (h : char ∈ (digits.drop start).take count) :
      char ∈ digits := List.mem_of_mem_drop (List.mem_of_mem_take h)
  rcases hmem with (((hfirst | hdash | h) | hdash | h) | hdash | h) | hdash | h
  · exact .inr (List.mem_of_mem_take hfirst)
  · exact .inl hdash
  · exact .inr (hpart h)
  · exact .inl hdash
  · exact .inr (hpart h)
  · exact .inl hdash
  · exact .inr (hpart h)
  · exact .inl hdash
  · exact .inr (List.mem_of_mem_drop h)

theorem filter_hyphenated {digits : List Char}
    (hdigits : ∀ char ∈ digits, char ≠ '-') :
    (hyphenated digits).filter (· ≠ '-') = digits := by
  have hkeep {part : List Char} (hpart : part ⊆ digits) :
      part.filter (· ≠ '-') = part :=
    List.filter_eq_self.mpr fun char hmem =>
      decide_eq_true (hdigits char (hpart hmem))
  have htake (start count : ℕ) : (digits.drop start).take count ⊆ digits :=
    fun _ hmem => List.mem_of_mem_drop (List.mem_of_mem_take hmem)
  have hsplit : digits.take 8 ++ ((digits.drop 8).take 4 ++
      ((digits.drop 12).take 4 ++ ((digits.drop 16).take 4 ++
        digits.drop 20))) = digits := by
    have hjoin (start count : ℕ) :
        (digits.drop start).take count ++ digits.drop (start + count) =
          digits.drop start := by
      rw [← List.drop_drop, List.take_append_drop]
    rw [hjoin 16 4, hjoin 12 4, hjoin 8 4, List.take_append_drop]
  rw [hyphenated]
  simp only [List.filter_append, List.filter_cons, hkeep (htake _ _),
    hkeep (List.take_subset _ _), hkeep (List.drop_subset _ _)]
  simpa using hsplit

theorem hyphenatedFormat_hyphenated : hyphenatedFormat.Hyphenated where
  length uuid := by
    simp [hyphenatedFormat, hyphenated]
  chars uuid char hmem := by
    have hchars : (hyphenatedFormat.display uuid).toList =
        hyphenated (hexDigits 32 uuid.toNat) := String.toList_ofList
    rw [hchars] at hmem
    rcases mem_hyphenated hmem with rfl | hdigit
    · decide
    · exact List.mem_append_left ['-'] (hexDigits_mem hdigit)
  parse uuid := by
    have hdigits : ∀ char ∈ hexDigits 32 uuid.toNat, char ≠ '-' := by
      rintro char hmem rfl
      exact absurd (hexDigits_mem hmem) (by decide)
    have hfilter := filter_hyphenated hdigits
    have hfits : uuid.toNat < 16 ^ 32 :=
      Nat.lt_of_lt_of_eq uuid.isLt (pow_mul 2 4 32)
    dsimp only [hyphenatedFormat]
    rw [String.toList_ofList, hfilter, if_pos (length_hexDigits _ _),
      foldl_hexDigits, Nat.mod_eq_of_lt hfits, BitVec.ofNat_toNat,
      BitVec.setWidth_eq]

/-- A data frame of a tunnel that the laptop opened to the phone. -/
theorem same_tunnel_at_both_ends_hyphenated :
    let identifier := deviceIdentifier hyphenatedFormat_hyphenated
    let user : Identifier := ⟨"user", by decide⟩
    let laptop : Connection := ⟨user, identifier ⟨1⟩, 4⟩
    let phone : Connection := ⟨user, identifier ⟨2⟩, 5⟩
    let connections : ConnectionRegistry :=
      ⟨Indexes.empty.add phone, Indexes.agree_empty.add rfl⟩
    ∃ frame delivered,
      encode hyphenatedFormat kindData ⟨⟨2⟩, 7, true⟩ [9] = some frame ∧
      forwardTunnelFrame connections laptop frame =
        [sendBinary 5 delivered] ∧
      decode hyphenatedFormat delivered =
        some (kindData, ⟨⟨1⟩, 7, false⟩, [9]) := by
  intro identifier user laptop phone connections
  have hne : (⟨1⟩ : DeviceId) ≠ ⟨2⟩ := by decide
  have hkind : kindData = kindOpen ∨ kindData = kindData ∨
      kindData = kindClose := .inr (.inl rfl)
  have hlaptop : laptop.deviceId.text = deviceText hyphenatedFormat ⟨1⟩ := rfl
  have hphone : connections.getConnection user (identifier ⟨2⟩) = some phone :=
    (Indexes.getConnection_add _ _ _ _).trans (if_pos ⟨rfl, rfl⟩)
  obtain ⟨frame, hencode, -, hthrough⟩ :=
    same_tunnel_at_both_ends hyphenatedFormat_hyphenated connections hne
      hlaptop hkind 7 true (by decide : isValidData kindData [9] = true)
  obtain ⟨delivered, hforward, hdecode⟩ :=
    (hthrough (identifier ⟨2⟩) rfl).1 phone hphone
  exact ⟨frame, delivered, hencode, hforward, hdecode⟩

end Cled.Desktop
