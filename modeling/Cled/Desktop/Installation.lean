import Cled.Core.Files
import Cled.Core.Machine
import Cled.Desktop.Control
import Cled.Lan.Opening
import Cled.Lan.PeerFile

/-!
# An installation and its files

The app keeps its device ID, its keys, the paired devices and the settings in
files.  It can be stopped at any time, also halfway through writing a file, and
started again.

How JSON is written and read belongs to a crate.  What the program writes counts
as written when the system call returns; the system itself does not fail.
-/

namespace Cled.Desktop

open Cled.Core Cled.Clipboard Cled.Sync Cled.Lan

/-- `to_vec_pretty` and `from_slice`. -/
structure Json where
  settings : Settings → Bytes
  readSettings : Bytes → Option Settings
  peers : PeerFile → Bytes
  readPeers : Bytes → Option PeerFile

/-- The files, and the temporary ones beside two of them. -/
inductive StoredFile where
  | deviceId
  | identityKey
  | peers
  | newPeers
  | settings
  | newSettings
  deriving DecidableEq

abbrev Stored := Disk StoredFile UInt8

abbrev Writing := List (FileTask StoredFile UInt8)

/-! ## The device ID -/

section DeviceFile

variable (format : UuidFormat)

def deviceFile (device : DeviceId) : Bytes :=
  utf8 (deviceText format device ++ "\n")

/-- `read_to_string`, and then `parse`. -/
def readDeviceFile (bytes : Bytes) : Option DeviceId :=
  (fromUtf8 bytes).bind (parseDevice format)

end DeviceFile

/-! ## The keys -/

def privateBytes (keys : Keys) : Bytes := beBytes keyLen keys.privateKey.toNat

/-- `Keys::load_or_create` with a file that it can read.  Nothing if the file is
malformed. -/
def readKeys (bytes : Bytes) : Option Keys :=
  if bytes.length = 2 * keyLen then
    some
      { privateKey := BitVec.ofNat 256 (fromBe (bytes.take keyLen))
        publicKey := BitVec.ofNat 256 (fromBe (bytes.drop keyLen)) }
  else none

def keysFile (keys : Keys) : Bytes := privateBytes keys ++ keyBytes keys.publicKey

/-! ## The settings -/

def defaultRelayUrl : String := "https://cled-92hd.onrender.com"

def Settings.default : Settings :=
  { connectionMode := .lan
    relayUrl := defaultRelayUrl }

/-- `load`.  An invalid relay URL is replaced by the default. -/
def loadSettings (urls : UrlFormat) (json : Json) (disk : Stored)
    (readable : Bool) : Settings :=
  let settings :=
    match if readable then disk .settings else none with
    | none => Settings.default
    | some bytes => (json.readSettings bytes).getD Settings.default
  match validateRelayUrl urls settings.relayUrl with
  | .ok _ => settings
  | .error _ => { settings with relayUrl := defaultRelayUrl }

/-! ## The paired devices -/

/-- `PeerStore::load`. -/
def loadPeers (format : UuidFormat) (json : Json) (disk : Stored) : PeerStore :=
  match disk .peers with
  | none => .empty
  | some bytes =>
      ((json.readPeers bytes).bind (PeerFile.parse format)).getD .empty

/-! ## The app -/

/-- The app once it has started. -/
structure RunningApp where
  device : DeviceId
  /-- The keys and the paired devices, unless the node could not start. -/
  node : Option (Keys × PeerStore)
  /-- What is left to do of saving the paired devices. -/
  savingPeers : Writing
  /-- They are saved as they are, in no source. -/
  saved : Bool
  settings : Settings
  /-- The settings that are being saved, and what is left to do. -/
  savingSettings : Option (Settings × Writing)

inductive App where
  | off
  /-- Writing a new device ID. -/
  | naming (device : DeviceId) (writing : Writing)
  | named (device : DeviceId)
  /-- Writing new keys. -/
  | keying (device : DeviceId) (keys : Keys) (writing : Writing)
  /-- Without keys the node does not start. -/
  | keyed (device : DeviceId) (keys : Option Keys)
  | running (app : RunningApp)

structure Installation where
  disk : Stored
  app : App
  /-- The paired devices as they were last saved, in no source. -/
  kept : PeerStore

namespace Installation

inductive Action where
  /-- It quits, or it crashes. -/
  | stop
  /-- `device::load_or_create`. -/
  | launch (readable : Bool) (fresh : DeviceId)
  /-- A step of writing the device ID or the keys. -/
  | write (count : ℕ)
  | failWrite
  | endWrite
  /-- `Keys::load_or_create`. -/
  | loadKeys (readable : Bool) (generated : Except String Keys)
  /-- `LanNode::start` and `SettingsState::load`. -/
  | start (starts readable : Bool)
  /-- An operation has changed the paired devices, and saves them. -/
  | changePeers (store : PeerStore)
  | writePeers (count : ℕ)
  | failPeers
  | setConnectionMode (mode : ConnectionMode)
  | setRelayUrl (url : String)
  | writeSettings (count : ℕ)
  | failSettings
  /-- The saved settings become the ones in memory. -/
  | endSettings

section Steps

variable (format : UuidFormat) (urls : UrlFormat) (json : Json)

def launch (disk : Stored) (readable : Bool) (fresh : DeviceId) : App :=
  let known := if readable then (disk .deviceId).bind (readDeviceFile format) else none
  match known with
  | some device => .named device
  | none =>
      .naming fresh (FileTask.overwriting .deviceId [deviceFile format fresh])

def loadKeys (disk : Stored) (device : DeviceId) (readable : Bool)
    (generated : Except String Keys) : App :=
  if readable then
    match (disk .identityKey).bind readKeys, generated with
    | some keys, _ => .keyed device (some keys)
    | none, .error _ => .keyed device none
    | none, .ok keys =>
        .keying device keys (FileTask.overwriting .identityKey
          [privateBytes keys, keyBytes keys.publicKey])
  else .keyed device none

def started (disk : Stored) (device : DeviceId) (keys : Option Keys)
    (starts readable : Bool) : RunningApp :=
  { device
    node := if starts then keys.map (·, loadPeers format json disk) else none
    savingPeers := []
    saved := true
    settings := loadSettings urls json disk readable
    savingSettings := none }

/-- `update`, up to the point where it writes. -/
def updateSettings (app : RunningApp) (next : Settings) : RunningApp :=
  { app with
    savingSettings := some
      (next, FileTask.replacing .newSettings .settings (json.settings next)) }

def onRunning (state : Installation) (app : RunningApp) :
    Action → Option Installation
  | .changePeers store =>
      match app.node, app.savingPeers with
      | some (keys, _), [] =>
          some { state with
            app := .running { app with
              node := some (keys, store)
              savingPeers := FileTask.replacing .newPeers .peers
                (json.peers (store.file format))
              saved := false } }
      | _, _ => none
  | .writePeers count => do
      let (_, store) ← app.node
      let (disk, rest) ← FileTask.advance count state.disk app.savingPeers
      match rest with
      | [] =>
          some
            { disk
              app := .running { app with savingPeers := [], saved := true }
              kept := store }
      | rest =>
          some { state with
            disk, app := .running { app with savingPeers := rest } }
  | .failPeers =>
      some { state with app := .running { app with savingPeers := [] } }
  | .setConnectionMode mode =>
      match app.savingSettings with
      | none =>
          some { state with
            app := .running (updateSettings json app
              { app.settings with connectionMode := mode }) }
      | some _ => none
  | .setRelayUrl url =>
      match validateRelayUrl urls url, app.savingSettings with
      | .error _, _ => some state
      | .ok url, none =>
          some { state with
            app := .running (updateSettings json app
              { app.settings with relayUrl := url }) }
      | .ok _, some _ => none
  | .writeSettings count => do
      let (next, writing) ← app.savingSettings
      let (disk, rest) ← FileTask.advance count state.disk writing
      some { state with
        disk, app := .running { app with savingSettings := some (next, rest) } }
  | .failSettings =>
      match app.savingSettings with
      | some (_, _ :: _) =>
          some { state with app := .running { app with savingSettings := none } }
      | _ => none
  | .endSettings =>
      match app.savingSettings with
      | some (next, []) =>
          some { state with
            app := .running { app with
              settings := next, savingSettings := none } }
      | _ => none
  | _ => none

def step (state : Installation) (action : Action) : Option Installation :=
  match action, state.app with
  | .stop, _ => some { state with app := .off }
  | .launch readable fresh, .off =>
      some { state with app := launch format state.disk readable fresh }
  | .write count, .naming device writing => do
      let (disk, rest) ← FileTask.advance count state.disk writing
      some { state with disk, app := .naming device rest }
  | .write count, .keying device keys writing => do
      let (disk, rest) ← FileTask.advance count state.disk writing
      some { state with disk, app := .keying device keys rest }
  | .failWrite, .naming device (_ :: _) =>
      some { state with app := .named device }
  | .failWrite, .keying device _ (_ :: _) =>
      some { state with app := .keyed device none }
  | .endWrite, .naming device [] => some { state with app := .named device }
  | .endWrite, .keying device keys [] =>
      some { state with app := .keyed device (some keys) }
  | .loadKeys readable generated, .named device =>
      some { state with
        app := loadKeys state.disk device readable generated }
  | .start starts readable, .keyed device keys =>
      some { state with
        app := .running
          (started format urls json state.disk device keys starts readable) }
  | action, .running app => onRunning format urls json state app action
  | _, _ => none

def machine : Machine Installation Action := ⟨step format urls json⟩

/-- Whatever the files are, the app is not running. -/
def installed (disk : Stored) : Installation :=
  ⟨disk, .off, loadPeers format json disk⟩

end Steps

end Installation

end Cled.Desktop
