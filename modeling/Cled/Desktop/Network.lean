import Mathlib.Logic.Function.Basic
import Cled.Core.Machine
import Cled.Desktop.ThroughRelay
import Cled.Desktop.Tunnels

/-!
# Two devices and the relay between them

Each device has a connection to the relay, which forwards its frames in the
order they were sent.  A device can lose its connection at any time: what was on
its way to it is lost, and its tunnels with it.  The relay may notice later, and
handle frames the device sent before that.  When the device connects again, it
starts with fresh tunnels.
-/

namespace Cled.Desktop

open Cled.Core Cled.Clipboard Cled.Sync

/-! ## Devices -/

inductive Side where
  | left
  | right
  deriving DecidableEq

namespace Side

def other : Side → Side
  | .left => .right
  | .right => .left

@[simp]
theorem other_other (side : Side) : side.other.other = side := by
  cases side <;> rfl

@[simp]
theorem other_ne (side : Side) : side.other ≠ side := by
  cases side <;> exact Side.noConfusion

theorem eq_or_eq_other (side which : Side) :
    which = side ∨ which = side.other := by
  cases side <;> cases which <;> simp [other]

end Side

/-- Two different devices. -/
structure Pair where
  name : Side → DeviceId
  distinct : name .left ≠ name .right

/-- The tunnel as the other end sees it. -/
def Key.across (key : Key) (sender : DeviceId) : Key :=
  ⟨sender, key.id, !key.openedHere⟩

/-- A frame on its way.  With an `open` goes the number of the sender's pipe. -/
structure Packet where
  frame : Frame
  source : ℕ
  deriving DecidableEq

namespace Packet

/-- The frame as the relay delivers it. -/
def across (packet : Packet) (sender : DeviceId) : Packet :=
  { packet with
    frame := { packet.frame with key := packet.frame.key.across sender } }

/-- A frame that opens nothing. -/
def plain (frame : Frame) : Packet := ⟨frame, 0⟩

end Packet

/-- A device with its connection to the relay. -/
structure Device where
  tunnels : Tunnels
  /-- What the reader tasks queued for the relay task. -/
  pumped : List Pumped
  connected : Bool
  /-- The relay has the device's connection in its registry. -/
  registered : Bool
  /-- Frames the device sent that the relay has not handled. -/
  uplink : List Packet
  /-- Frames the relay sent that the device has not handled. -/
  downlink : List Packet

namespace Device

def initial : Device := ⟨.initial, [], true, true, [], []⟩

inductive Move where
  | pipe (pipe : ℕ) (move : PipeMove)
  | openTunnel
  | handlePumped
  | handleFrame (node : Bool)
  /-- The relay handles the first frame of the device. -/
  | forward
  /-- The device's connection ends. -/
  | drop
  /-- The relay notices that. -/
  | forget
  | reconnect
  deriving DecidableEq

/-- A session or one of its tasks goes on. -/
def stepPipe (device : Device) (pipe : ℕ) (move : PipeMove) : Option Device :=
  device.tunnels.pipes[pipe]?.bind fun found =>
    (found.step move).map fun (found, pumped) =>
      { device with
        tunnels := device.tunnels.modifyPipe pipe fun _ => found
        pumped := device.pumped ++ pumped }

def openTunnel (device : Device) (peer : DeviceId) : Option Device :=
  if device.connected then
    let (tunnels, frame) := device.tunnels.openTo peer
    some { device with
      tunnels
      uplink := device.uplink ++ [⟨frame, device.tunnels.nextPipe⟩] }
  else none

def handlePumped (device : Device) : Option Device :=
  match device.pumped with
  | [] => none
  | first :: rest =>
      let (tunnels, frame) := device.tunnels.onPumped first
      some { device with
        tunnels
        pumped := rest
        uplink := device.uplink ++ frame.toList.map .plain }

def handleFrame (device : Device) (node : Bool) : Option Device :=
  match device.downlink with
  | [] => none
  | first :: rest =>
      let (tunnels, reply) :=
        device.tunnels.receive first.frame first.source node
      some { device with
        tunnels
        downlink := rest
        uplink := device.uplink ++ reply.toList.map .plain }

def drop (device : Device) : Option Device :=
  if device.connected then
    some { device with
      tunnels := device.tunnels.renew
      pumped := []
      connected := false
      downlink := [] }
  else none

def forget (device : Device) : Option Device :=
  if device.connected = false ∧ device.registered then
    some { device with registered := false, uplink := [] }
  else none

def reconnect (device : Device) : Option Device :=
  if device.connected then none
  else
    some { device with
      connected := true
      registered := true
      uplink := [] }

/-- What the relay sends reaches a device that still has its connection. -/
def arrive (device : Device) (packets : List Packet) : Device :=
  if device.connected then
    { device with downlink := device.downlink ++ packets }
  else device

@[simp]
theorem arrive_tunnels (device : Device) (packets : List Packet) :
    (device.arrive packets).tunnels = device.tunnels := by
  rw [arrive]
  split <;> rfl

@[simp]
theorem arrive_pumped (device : Device) (packets : List Packet) :
    (device.arrive packets).pumped = device.pumped := by
  rw [arrive]
  split <;> rfl

@[simp]
theorem arrive_connected (device : Device) (packets : List Packet) :
    (device.arrive packets).connected = device.connected := by
  rw [arrive]
  split <;> rfl

@[simp]
theorem arrive_registered (device : Device) (packets : List Packet) :
    (device.arrive packets).registered = device.registered := by
  rw [arrive]
  split <;> rfl

@[simp]
theorem arrive_uplink (device : Device) (packets : List Packet) :
    (device.arrive packets).uplink = device.uplink := by
  rw [arrive]
  split <;> rfl

theorem arrive_downlink (device : Device) (packets : List Packet) :
    (device.arrive packets).downlink =
      if device.connected then device.downlink ++ packets
      else device.downlink := by
  rw [arrive]
  split <;> rfl

theorem arrive_of_connected {device : Device}
    (hconnected : device.connected = true) (packets : List Packet) :
    device.arrive packets =
      { device with downlink := device.downlink ++ packets } :=
  if_pos hconnected

/-- What a device does by itself. -/
def step (device : Device) (peer : DeviceId) : Move → Option Device
  | .pipe pipe move => device.stepPipe pipe move
  | .openTunnel => device.openTunnel peer
  | .handlePumped => device.handlePumped
  | .handleFrame node => device.handleFrame node
  | .forward => none
  | .drop => device.drop
  | .forget => device.forget
  | .reconnect => device.reconnect

variable {device device' : Device}

theorem openTunnel_eq_some {peer : DeviceId}
    (hstep : device.openTunnel peer = some device') :
    device.connected = true ∧ device' =
      { device with
        tunnels :=
          { device.tunnels.create (device.tunnels.nextKey peer) none with
            nextId := device.tunnels.nextId + 1 }
        uplink := device.uplink ++
          [⟨⟨kindOpen, device.tunnels.nextKey peer, []⟩,
            device.tunnels.nextPipe⟩] } := by
  rw [openTunnel, Tunnels.openTo_eq] at hstep
  split at hstep
  · next hconnected => exact ⟨hconnected, (Option.some.inj hstep).symm⟩
  · cases hstep

theorem handlePumped_eq_some (hstep : device.handlePumped = some device') :
    ∃ event rest result, device.pumped = event :: rest ∧
      Tunnels.Taken device.tunnels event result ∧
      device' = { device with
        tunnels := result.1
        pumped := rest
        uplink := device.uplink ++ result.2.toList.map .plain } := by
  rw [handlePumped] at hstep
  split at hstep
  · cases hstep
  next event rest hpumped =>
  exact ⟨event, rest, _, hpumped, device.tunnels.onPumped_taken event,
    (Option.some.inj hstep).symm⟩

theorem handleFrame_eq_some {node : Bool}
    (hstep : device.handleFrame node = some device') :
    ∃ packet rest result, device.downlink = packet :: rest ∧
      Tunnels.Received device.tunnels packet.frame packet.source result ∧
      device' = { device with
        tunnels := result.1
        downlink := rest
        uplink := device.uplink ++ result.2.toList.map .plain } := by
  rw [handleFrame] at hstep
  split at hstep
  · cases hstep
  next packet rest hdownlink =>
  exact ⟨packet, rest, _, hdownlink,
    device.tunnels.receive_received packet.frame packet.source node,
    (Option.some.inj hstep).symm⟩

theorem stepPipe_eq_some {pipe : ℕ} {move : PipeMove}
    (hstep : device.stepPipe pipe move = some device') :
    ∃ found found' pumped, device.tunnels.pipes[pipe]? = some found ∧
      found.step move = some (found', pumped) ∧
      device' = { device with
        tunnels := device.tunnels.modifyPipe pipe fun _ => found'
        pumped := device.pumped ++ pumped } := by
  obtain ⟨found, hfound, hmap⟩ := Option.bind_eq_some_iff.mp hstep
  obtain ⟨⟨found', pumped⟩, hmove, rfl⟩ := Option.map_eq_some_iff.mp hmap
  exact ⟨found, found', pumped, hfound, hmove, rfl⟩

theorem drop_eq_some (hstep : device.drop = some device') :
    device.connected = true ∧ device' =
      { device with
        tunnels := device.tunnels.renew
        pumped := []
        connected := false
        downlink := [] } := by
  rw [drop] at hstep
  split at hstep
  · next hconnected => exact ⟨hconnected, (Option.some.inj hstep).symm⟩
  · cases hstep

theorem forget_eq_some (hstep : device.forget = some device') :
    device.connected = false ∧
      device' = { device with registered := false, uplink := [] } := by
  rw [forget] at hstep
  split at hstep
  · next hgone => exact ⟨hgone.1, (Option.some.inj hstep).symm⟩
  · cases hstep

theorem reconnect_eq_some (hstep : device.reconnect = some device') :
    device.connected = false ∧ device' =
      { device with
        connected := true
        registered := true
        uplink := [] } := by
  rw [reconnect] at hstep
  split at hstep
  · cases hstep
  · next hgone =>
    exact ⟨Bool.eq_false_iff.mpr hgone, (Option.some.inj hstep).symm⟩

end Device

/-! ## The network -/

structure Move where
  side : Side
  move : Device.Move
  deriving DecidableEq

abbrev Network := Side → Device

namespace Network

def initial : Network := fun _ => .initial

/-- What the relay sends on for a packet: to the device it is for, or back if
that is not connected. -/
def onward (pair : Pair) (side : Side) (recipient : Device) (packet : Packet) :
    List Packet × List Packet :=
  if packet.frame.key.peer = pair.name side.other ∧ recipient.registered then
    ([packet.across (pair.name side)], [])
  else if packet.frame.kind = kindClose then ([], [])
  else ([], [.plain ⟨kindClose, packet.frame.key, []⟩])

def forward (pair : Pair) (net : Network) (side : Side) : Option Network :=
  match (net side).uplink with
  | [] => none
  | packet :: rest =>
      let (there, back) := onward pair side (net side.other) packet
      some fun which =>
        if which = side then
          { net side with uplink := rest }.arrive back
        else (net side.other).arrive there

def machine (pair : Pair) : Machine Network Move where
  step net move :=
    match move.move with
    | .forward => net.forward pair move.side
    | own =>
        ((net move.side).step (pair.name move.side.other) own).map
          (Function.update net move.side)

variable {pair : Pair} {net next : Network} {side : Side}

theorem forward_eq_some (hstep : net.forward pair side = some next) :
    ∃ packet rest there back, (net side).uplink = packet :: rest ∧
      onward pair side (net side.other) packet = (there, back) ∧
      next side = { net side with uplink := rest }.arrive back ∧
      next side.other = (net side.other).arrive there := by
  rw [forward] at hstep
  split at hstep
  · cases hstep
  next packet rest huplink =>
  obtain rfl := Option.some.inj hstep
  exact ⟨packet, rest, _, _, huplink, rfl, if_pos rfl,
    if_neg side.other_ne⟩

/-- A step is one of the relay's, or one of a device by itself. -/
theorem step_cases {move : Move}
    (hstep : (machine pair).step net move = some next) :
    (move.move = .forward ∧ net.forward pair move.side = some next) ∨
      ∃ device, (net move.side).step (pair.name move.side.other) move.move =
        some device ∧ next move.side = device ∧
        next move.side.other = net move.side.other := by
  dsimp only [machine] at hstep
  split at hstep
  · next hforward => exact .inl ⟨hforward, hstep⟩
  · obtain ⟨device, hdevice, rfl⟩ := Option.map_eq_some_iff.mp hstep
    exact .inr ⟨device, hdevice, Function.update_self _ _ _,
      Function.update_of_ne move.side.other_ne _ _⟩

def examplePair : Pair where
  name
    | .left => ⟨1⟩
    | .right => ⟨2⟩
  distinct := by decide

end Network

end Cled.Desktop
