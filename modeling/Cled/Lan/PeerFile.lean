import Cled.Desktop.ThroughRelay
import Cled.Lan.Keys
import Cled.Lan.PeerStore

/-!
# The file of the peers

The paired devices and the removals are saved as records with the device IDs and
the keys as text.  One record that can't be read makes the whole file malformed.
How JSON is written and read belongs to a crate; here the file is its records.
-/

namespace Cled.Lan

open Cled.Core Cled.Clipboard Cled.Desktop

structure PeerRecord where
  deviceId : String
  name : String
  publicKey : String
  pairedAtMs : ℕ
  lastAddress : Option SocketAddr
  deriving DecidableEq

structure RemovedRecord where
  peer : PeerRecord
  removedAtMs : ℕ
  notified : Bool
  deriving DecidableEq

structure PeerFile where
  version : UInt32
  peers : List PeerRecord
  removed : List RemovedRecord
  deriving DecidableEq

variable (format : UuidFormat)

def record (peer : Peer) : PeerRecord :=
  { deviceId := deviceText format peer.deviceId
    name := peer.name
    publicKey := hex (keyBytes peer.publicKey)
    pairedAtMs := peer.pairedAtMs
    lastAddress := peer.lastAddress }

/-- What `save` writes. -/
def PeerStore.file (store : PeerStore) : PeerFile :=
  { version := 1
    peers := store.peers.map (record format)
    removed := store.removed.map fun removed =>
      { peer := record format removed.peer
        removedAtMs := removed.removedAtMs
        notified := removed.notified } }

def fromRecord (record : PeerRecord) : Option Peer := do
  let deviceId ← parseDevice format record.deviceId
  let bytes ← fromHex record.publicKey
  let publicKey ← (toKey bytes).toOption
  some
    { deviceId
      name := record.name
      publicKey
      pairedAtMs := record.pairedAtMs
      lastAddress := record.lastAddress }

/-- One removal of `parse`. -/
def fromRemovedRecord (record : RemovedRecord) : Option Removed := do
  let peer ← fromRecord format record.peer
  some
    { peer
      removedAtMs := record.removedAtMs
      notified := record.notified }

def PeerFile.parse (file : PeerFile) : Option PeerStore := do
  let peers ← file.peers.mapM (fromRecord format)
  let removed ← file.removed.mapM (fromRemovedRecord format)
  some { peers, removed }

/-! ## Keys -/

theorem toOption_toKey_eq_some_iff {bytes : Bytes} {key : PublicKey} :
    (toKey bytes).toOption = some key ↔ bytes = keyBytes key := by
  rw [← toKey_eq_ok_iff]
  cases toKey bytes <;> simp [Except.toOption]

/-! ## Records -/

variable {format}

/-- A record is a peer if its device ID and its key can be read. -/
theorem fromRecord_eq_some_iff {record : PeerRecord} {peer : Peer} :
    fromRecord format record = some peer ↔
      parseDevice format record.deviceId = some peer.deviceId ∧
        fromHex record.publicKey = some (keyBytes peer.publicKey) ∧
        peer =
          { deviceId := peer.deviceId
            name := record.name
            publicKey := peer.publicKey
            pairedAtMs := record.pairedAtMs
            lastAddress := record.lastAddress } := by
  simp only [fromRecord, Option.bind_eq_bind, Option.bind_eq_some_iff,
    toOption_toKey_eq_some_iff]
  constructor
  · rintro ⟨deviceId, hdevice, bytes, hbytes, key, hkey, hpeer⟩
    rw [hkey] at hbytes
    obtain rfl := Option.some.inj hpeer
    exact ⟨hdevice, hbytes, rfl⟩
  · rintro ⟨hdevice, hbytes, hpeer⟩
    exact ⟨peer.deviceId, hdevice, _, hbytes, peer.publicKey, rfl,
      congrArg some hpeer.symm⟩

/-- A saved peer is read back. -/
theorem fromRecord_record (hformat : format.Hyphenated) (peer : Peer) :
    fromRecord format (record format peer) = some peer :=
  fromRecord_eq_some_iff.mpr
    ⟨parseDevice_deviceText hformat peer.deviceId,
      fromHex_hex (keyBytes peer.publicKey), rfl⟩

theorem mapM_map_of_forall {A B : Type*} {write : A → B} {read : B → Option A}
    (hread : ∀ value, read (write value) = some value) (values : List A) :
    (values.map write).mapM read = some values := by
  induction values with
  | nil => rfl
  | cons value values ih => simp [hread, ih]

/-- What is saved is read back. -/
theorem parse_file (hformat : format.Hyphenated) (store : PeerStore) :
    (store.file format).parse format = some store := by
  have hpeers := mapM_map_of_forall (fromRecord_record hformat) store.peers
  rw [PeerFile.parse, PeerStore.file, hpeers, mapM_map_of_forall]
  · rfl
  · intro removed
    rw [fromRemovedRecord, fromRecord_record hformat]
    rfl

/-- What makes a record a peer. -/
theorem exists_fromRecord_iff (record : PeerRecord) :
    (∃ peer, fromRecord format record = some peer) ↔
      parseDevice format record.deviceId ≠ none ∧
        isPaired record.publicKey.toList = true ∧
        record.publicKey.toList.length = 2 * keyLen := by
  rw [← isSome_readPairs, ← fromHex_eq_readPairs]
  constructor
  · rintro ⟨peer, hpeer⟩
    obtain ⟨hdevice, hbytes, -⟩ := fromRecord_eq_some_iff.mp hpeer
    have hread := hbytes
    rw [fromHex_eq_readPairs] at hread
    have hlength := (length_and_ascii_of_readPairs hread).1
    rw [length_keyBytes] at hlength
    rw [hdevice, hbytes]
    exact ⟨Option.some_ne_none _, rfl, hlength⟩
  · rintro ⟨hdevice, haccepted, hlength⟩
    obtain ⟨device, hdevice⟩ := Option.ne_none_iff_exists'.mp hdevice
    obtain ⟨bytes, hbytes⟩ := Option.isSome_iff_exists.mp haccepted
    have hread := hbytes
    rw [fromHex_eq_readPairs] at hread
    have hbytesLength : bytes.length = keyLen := by
      have htwice := (length_and_ascii_of_readPairs hread).1
      omega
    obtain ⟨key, hkey⟩ : ∃ key, bytes = keyBytes key :=
      ⟨_, toKey_eq_ok_iff.mp (if_pos hbytesLength)⟩
    rw [hkey] at hbytes
    let peer : Peer :=
      { deviceId := device
        name := record.name
        publicKey := key
        pairedAtMs := record.pairedAtMs
        lastAddress := record.lastAddress }
    exact ⟨peer, fromRecord_eq_some_iff.mpr ⟨hdevice, hbytes, rfl⟩⟩

/-- A record is misread exactly if it is accepted and its key has a plus. -/
theorem forall_record_isHexOf_iff (record : PeerRecord) :
    (∀ peer, fromRecord format record = some peer →
        IsHexOf record.publicKey.toList (keyBytes peer.publicKey)) ↔
      '+' ∉ record.publicKey.toList ∨
        ¬ ∃ peer, fromRecord format record = some peer := by
  constructor
  · intro hexact
    by_cases haccepted : ∃ peer, fromRecord format record = some peer
    · obtain ⟨peer, hpeer⟩ := haccepted
      exact Or.inl (plus_notMem_of_isHexOf (hexact peer hpeer))
    · exact Or.inr haccepted
  · rintro (hplus | hrefused) peer hpeer
    · obtain ⟨-, hbytes, -⟩ := fromRecord_eq_some_iff.mp hpeer
      rw [fromHex_eq_readPairs] at hbytes
      exact isHexOf_of_readPairs hbytes hplus
    · exact absurd ⟨peer, hpeer⟩ hrefused

/-- Keys are stored in a form that is read back, and text with other than ASCII
characters is refused.  What else is accepted spells its bytes, unless there is
a plus before a digit. -/
theorem stored_keys_exact_iff (bytes : Bytes) (text : String)
    (format : UuidFormat) (record : PeerRecord) :
    fromHex (hex bytes) = some bytes ∧
      ((∃ char ∈ text.toList, 128 ≤ char.toNat) → fromHex text = none) ∧
      ((∀ read, fromHex text = some read → IsHexOf text.toList read) ↔
        '+' ∉ text.toList ∨ ¬ isPaired text.toList) ∧
      ((∀ peer, fromRecord format record = some peer →
          IsHexOf record.publicKey.toList (keyBytes peer.publicKey)) ↔
        '+' ∉ record.publicKey.toList ∨
          ¬ (parseDevice format record.deviceId ≠ none ∧
            isPaired record.publicKey.toList ∧
            record.publicKey.toList.length = 2 * keyLen)) := by
  refine ⟨fromHex_hex bytes, ?_, ?_, ?_⟩
  · rintro ⟨char, hchar, hlarge⟩
    rw [fromHex_eq_readPairs]
    exact readPairs_eq_none hchar hlarge
  · rw [forall_isHexOf_iff, Bool.not_eq_true]
  · rw [forall_record_isHexOf_iff, exists_fromRecord_iff]

/-- The record of a peer whose key is written with 32 pluses. -/
def plusRecord : PeerRecord :=
  { deviceId := deviceText hyphenatedFormat ⟨1⟩
    name := "peer"
    publicKey := "+7+7+7+7+7+7+7+7+7+7+7+7+7+7+7+7+7+7+7+7+7+7+7+7+7+7+7+7+7+7+7+7"
    pairedAtMs := 0
    lastAddress := none }

/-- A plus takes the place of a digit. -/
theorem stored_keys_plus :
    (fromHex "+f" = some [15] ∧ ¬ IsHexOf "+f".toList [15]) ∧
      ∃ peer, fromRecord hyphenatedFormat plusRecord = some peer ∧
        ¬ IsHexOf plusRecord.publicKey.toList (keyBytes peer.publicKey) := by
  have hparse : parseDevice hyphenatedFormat plusRecord.deviceId ≠ none := by
    rw [plusRecord, parseDevice_deviceText hyphenatedFormat_hyphenated]
    exact Option.some_ne_none _
  have hpaired : isPaired plusRecord.publicKey.toList = true := by decide
  have hplus : '+' ∈ plusRecord.publicKey.toList := by decide
  obtain ⟨peer, hpeer⟩ :=
    (exists_fromRecord_iff plusRecord).mpr ⟨hparse, hpaired, by decide⟩
  refine ⟨⟨?_, fun hhex => plus_notMem_of_isHexOf hhex (by decide)⟩, peer, hpeer,
    fun hhex => plus_notMem_of_isHexOf hhex hplus⟩
  rw [fromHex_eq_readPairs]
  decide

end Cled.Lan
