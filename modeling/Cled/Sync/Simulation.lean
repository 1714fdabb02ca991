import Mathlib.Data.List.FinRange
import Cled.Core.Machine
import Cled.Core.Newest
import Cled.Sync.Engine

/-!
# Several devices and a network

Any number of devices, each an engine over a fake clipboard that reports exactly
its changes.  A copy is broadcast to every other device; the network delivers
items in any order, as late and as often as it likes.  The history beside the
network records what was copied, changed and delivered.
-/

namespace Cled.Sync

open Cled.Clipboard Cled.Core

/-! ## One device -/

structure Device where
  engine : SyncEngine
  clipboard : Option ClipboardContent
  writes : ℕ
  deriving DecidableEq

namespace Device

variable (blake3 : Blake3)

/-- Sets the clipboard; if it changed, the watcher reports it to the engine. -/
def setClipboard (device : Device) (content : ClipboardContent)
    (stamp : Stamp) : Option LocalChange × Device :=
  if device.clipboard = some content then (none, device)
  else
    let (change, engine) := device.engine.onLocalChange blake3 content stamp
    (some change, { device with clipboard := some content, engine })

/-- Hands a received item to the engine and applies its write. -/
def receive (device : Device) (item : ClipboardItem) (stamp : Stamp) :
    Option LocalChange × Device :=
  match device.engine.onRemoteItem blake3 item with
  | (.write content, engine) =>
      { device with engine, writes := device.writes + 1 }.setClipboard blake3
        content stamp
  | (.ignore _, engine) => (none, { device with engine })

end Device

/-! ## The network and its history -/

structure Network (n : ℕ) where
  devices : Fin n → Device
  /-- Items on their way.  They stay here, so each can be delivered again. -/
  inFlight : List (Fin n × ClipboardItem)
  messagesSent : ℕ

namespace Network

variable {n : ℕ}

def new (ids : Fin n → DeviceId) : Network n :=
  { devices := fun index =>
      { engine := SyncEngine.new (ids index), clipboard := none, writes := 0 }
    inFlight := []
    messagesSent := 0 }

def others (source : Fin n) : List (Fin n) :=
  (List.finRange n).filter fun target => target ≠ source

def broadcast (network : Network n) (source : Fin n) (item : ClipboardItem) :
    Network n :=
  { network with
    inFlight := network.inFlight ++ (others source).map fun target =>
      (target, item)
    messagesSent := network.messagesSent + (others source).length }

/-- Puts a device's new state in place and broadcasts its copy, if it made one. -/
def update (network : Network n) (index : Fin n)
    (result : Option LocalChange × Device) : Network n :=
  let network :=
    { network with devices := Function.update network.devices index result.2 }
  match result.1 with
  | some (.copied item) => network.broadcast index item
  | _ => network

end Network

/-- The item of a `copied` result. -/
def copiedItem : Option LocalChange → List ClipboardItem
  | some (.copied item) => [item]
  | _ => []

structure Simulation (n : ℕ) where
  network : Network n
  /-- Every `copied` result so far. -/
  copied : List ClipboardItem
  /-- How many user copies changed a clipboard. -/
  userChanges : ℕ
  delivered : List (Fin n × ClipboardItem)

inductive Event (n : ℕ) where
  /-- The user copies `content`; `stamp` is what a new item would draw. -/
  | copy (index : Fin n) (content : ClipboardContent) (stamp : Stamp)
  /-- The network delivers an item. -/
  | deliver (index : Fin n) (item : ClipboardItem) (stamp : Stamp)

namespace Simulation

variable {n : ℕ} (blake3 : Blake3)

def new (ids : Fin n → DeviceId) : Simulation n :=
  { network := Network.new ids, copied := [], userChanges := 0, delivered := [] }

/-- A user copy draws an ID no copy had before and, together with its time, a
key above that of the device's current item. -/
def FreshStamp (sim : Simulation n) (index : Fin n) (stamp : Stamp) : Prop :=
  (∀ item ∈ sim.copied, item.id ≠ stamp.id) ∧
    ∀ current ∈ (sim.network.devices index).engine.current,
      current.key < stamp.key

instance (sim : Simulation n) (index : Fin n) (stamp : Stamp) :
    Decidable (sim.FreshStamp index stamp) :=
  inferInstanceAs (Decidable (_ ∧ _))

def afterCopy (sim : Simulation n) (index : Fin n) (content : ClipboardContent)
    (stamp : Stamp) : Simulation n :=
  let device := sim.network.devices index
  let result := device.setClipboard blake3 content stamp
  { sim with
    network := sim.network.update index result
    copied := sim.copied ++ copiedItem result.1
    userChanges := sim.userChanges +
      if device.clipboard = some content then 0 else 1 }

def afterDelivery (sim : Simulation n) (index : Fin n) (item : ClipboardItem)
    (stamp : Stamp) : Simulation n :=
  let result := (sim.network.devices index).receive blake3 item stamp
  { sim with
    network := sim.network.update index result
    copied := sim.copied ++ copiedItem result.1
    delivered := (index, item) :: sim.delivered }

def step (sim : Simulation n) : Event n → Option (Simulation n)
  | .copy index content stamp =>
      if sim.FreshStamp index stamp then
        some (sim.afterCopy blake3 index content stamp)
      else none
  | .deliver index item stamp =>
      if (index, item) ∈ sim.network.inFlight then
        some (sim.afterDelivery blake3 index item stamp)
      else none

def machine (n : ℕ) : Machine (Simulation n) (Event n) := ⟨step blake3⟩

end Simulation

end Cled.Sync
