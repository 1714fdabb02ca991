import Cled.Core.Backoff
import Cled.Core.Holding
import Cled.Core.Machine
import Cled.Lan.PeerStore

/-!
# Dialing paired devices

A node dials the paired devices that are not connected: when the dial loop finds
them due, and at once when something new is known of them.  A dial takes several
locks in turn, with the rest of the node running in between, and whatever the
rest of the node does to the peers, the connections and the found addresses can
happen between any two blocks.  Connecting to an address and the handshake may
take only so long.  A device that could not be reached is left alone for a while,
which grows with each failure.

Times are in milliseconds.
-/

namespace Cled.Lan

open Cled.Core Cled.Sync

/-- `MAX_BACKOFF`. -/
def maxBackoff : ℕ := 30000

/-- The delay after a first failure. -/
def firstDelay : ℕ := 1000

/-- `FALLBACK_DIAL_INTERVALS`. -/
def fallbackDialIntervals : ℕ := 3

/-- `CONNECT_TIMEOUT`, for each address. -/
def connectTimeout : ℕ := 3000

/-- `HANDSHAKE_TIMEOUT`. -/
def handshakeTimeout : ℕ := 10000

structure Backoff where
  nextAttempt : ℕ
  delay : ℕ
  deriving DecidableEq

/-- The entry of a device after a dial failed. -/
def Backoff.failed (now : ℕ) (entry : Option Backoff) : Backoff :=
  let entry := entry.getD { nextAttempt := now, delay := firstDelay }
  { nextAttempt := now + entry.delay, delay := min (entry.delay * 2) maxBackoff }

/-- How far a `dial` is. -/
inductive DialPhase where
  /-- Before `is_connected`. -/
  | checking
  /-- Before `should_dial`. -/
  | deciding
  /-- Before it puts the device into `dialing`. -/
  | entering
  /-- Before it looks for the peer. -/
  | looking
  /-- In `connect`, before `addresses_of`. -/
  | addressing (peer : Peer)
  /-- In `connect_any`, with the addresses it has not tried, of which it tries the
  first one until the deadline. -/
  | trying (peer : Peer) (left : List SocketAddr) (lastError : LanError)
      (deadline : ℕ)
  /-- In `connect_over`, writing the preamble. -/
  | writing (peer : Peer) (address : SocketAddr)
  /-- In the handshake. -/
  | shaking (peer : Peer) (address : SocketAddr) (deadline : ℕ)
  /-- In `exchange_hellos`, which may take any time. -/
  | greeting (peer : Peer) (address : SocketAddr)
  /-- Before it takes the device out of `dialing`. -/
  | leaving (result : Except LanError Unit)
  /-- Before it takes the backoff table. -/
  | recording (result : Except LanError Unit)
  | done

/-- A running `dial`. -/
structure Dial where
  peer : DeviceId
  phase : DialPhase

/-- The device a dial has in `dialing`. -/
def Dial.holds (dial : Dial) : Option DeviceId :=
  match dial.phase with
  | .looking | .addressing _ | .trying _ _ _ _ | .writing _ _ | .shaking _ _ _
  | .greeting _ _ | .leaving _ => some dial.peer
  | .checking | .deciding | .entering | .recording _ | .done => none

structure Dialer where
  /-- The clock, and when the node started. -/
  now : ℕ
  started : ℕ
  store : PeerStore
  /-- The devices in the connection table. -/
  connected : DeviceId → Bool
  /-- What discovery knows of a device's addresses. -/
  discovered : DeviceId → List SocketAddr
  dialing : Finset DeviceId
  backoff : DeviceId → Option Backoff
  /-- When each device was last seen disconnecting. -/
  offlineSince : DeviceId → Option ℕ
  dials : List Dial
  /-- The next tick of the dial loop, and the devices it has still to look at
  since the last one. -/
  nextTick : ℕ
  due : List DeviceId
  /-- What happened to the backoff table, in no source. -/
  marks : List (Mark DeviceId)

/-- The last seven are blocks of the rest of the node. -/
inductive DialAction where
  | pass (ms : ℕ)
  /-- The dial loop's next tick. -/
  | tick
  /-- The dial loop looks at the next device that is due. -/
  | spawnDue
  /-- `trigger_dial`. -/
  | trigger (device : DeviceId)
  | onDiscovered (device : DeviceId)
  /-- The next block of a dial that waits for nothing. -/
  | advance (dial : ℕ)
  /-- The answer from the next address. -/
  | reached (dial : ℕ) (result : Except LanError Unit)
  /-- The preamble is written, or the connection fails. -/
  | written (dial : ℕ) (result : Except LanError Unit)
  /-- How the handshake ends. -/
  | shaken (dial : ℕ) (result : Except LanError Unit)
  /-- What a dial waits for under a deadline does not come. -/
  | timeOut (dial : ℕ)
  /-- How `exchange_hellos` ends, and with it `connect_over`. -/
  | greeted (dial : ℕ) (result : Except LanError Unit)
  /-- `register` forgets when the device was offline. -/
  | clearOffline (device : DeviceId)
  /-- `unregister` notes when the device went offline. -/
  | noteOffline (device : DeviceId)
  /-- The last block of `disconnect_removed`. -/
  | dropBackoff (device : DeviceId)
  /-- The last block of `leave_group`. -/
  | clearBackoff
  | setConnected (device : DeviceId) (connected : Bool)
  | setStore (store : PeerStore)
  | setDiscovered (device : DeviceId) (addresses : List SocketAddr)
  deriving DecidableEq

namespace Dialer

/-- A node at startup, whose first tick comes at once. -/
def start (now : ℕ) (store : PeerStore) : Dialer where
  now
  started := now
  store
  connected := fun _ => false
  discovered := fun _ => []
  dialing := ∅
  backoff := fun _ => none
  offlineSince := fun _ => none
  dials := []
  nextTick := now
  due := []
  marks := []

-- `me` and `redialInterval` are the node's configuration.
variable (me : DeviceId) (redialInterval : ℕ)

/-- The lower ID of a pair always dials; the higher one only as a fallback. -/
def ShouldDial (dialer : Dialer) (peer : DeviceId) : Prop :=
  me < peer ∨
    (dialer.offlineSince peer).getD dialer.started +
      redialInterval * fallbackDialIntervals ≤ dialer.now

instance (dialer : Dialer) (peer : DeviceId) :
    Decidable (dialer.ShouldDial me redialInterval peer) :=
  inferInstanceAs (Decidable (_ ∨ _))

/-- Freshly discovered addresses, then the last address that worked. -/
def addressesOf (dialer : Dialer) (peer : Peer) : List SocketAddr :=
  let addresses := dialer.discovered peer.deviceId
  match peer.lastAddress with
  | some last => if last ∈ addresses then addresses else addresses ++ [last]
  | none => addresses

/-- The backoff of the device does not hold the dial loop back. -/
def Ready (dialer : Dialer) (device : DeviceId) : Prop :=
  ∀ entry ∈ dialer.backoff device, entry.nextAttempt ≤ dialer.now

instance (dialer : Dialer) (device : DeviceId) :
    Decidable (dialer.Ready device) :=
  inferInstanceAs (Decidable (∀ entry ∈ _, _))

def spawn (dialer : Dialer) (device : DeviceId) : Dialer :=
  { dialer with dials := dialer.dials ++ [⟨device, .checking⟩] }

def forget (dialer : Dialer) (device : DeviceId) : Dialer :=
  { dialer with
    backoff := Function.update dialer.backoff device none
    marks := dialer.marks ++ [.forgotten device] }

def triggerDial (dialer : Dialer) (device : DeviceId) : Dialer :=
  (dialer.forget device).spawn device

/-- Dial `index`, to `peer`, gets as far as `phase`. -/
def move (dialer : Dialer) (index : ℕ) (peer : DeviceId) (phase : DialPhase) :
    Dialer :=
  { dialer with dials := dialer.dials.set index ⟨peer, phase⟩ }

/-- The next address, after this error at the last one. -/
def tryNext (dialer : Dialer) (index : ℕ) (peer : DeviceId) (found : Peer)
    (left : List SocketAddr) (error : LanError) : Dialer :=
  dialer.move index peer
    (.trying found left error (dialer.now + connectTimeout))

/-- What a dial notes about its result. -/
def record (dialer : Dialer) (peer : DeviceId) :
    Except LanError Unit → Dialer
  | .ok () => dialer.forget peer
  | .error _ =>
      { dialer with
        backoff := Function.update dialer.backoff peer
          (some (.failed dialer.now (dialer.backoff peer)))
        marks := dialer.marks ++ [.failed peer dialer.now] }

/-- The next block of a dial; none if it waits for the network or is done. -/
def advance (dialer : Dialer) (index : ℕ) (peer : DeviceId) :
    DialPhase → Option Dialer
  | .checking =>
      some (dialer.move index peer
        (if dialer.connected peer then .done else .deciding))
  | .deciding =>
      some (dialer.move index peer
        (if dialer.ShouldDial me redialInterval peer then .entering else .done))
  | .entering =>
      if peer ∈ dialer.dialing then some (dialer.move index peer .done)
      else
        some
          ({ dialer with dialing := insert peer dialer.dialing }.move index peer
            .looking)
  | .looking =>
      match dialer.store.get peer with
      | some found => some (dialer.move index peer (.addressing found))
      | none => some (dialer.move index peer (.leaving (.error .unknownPeer)))
  | .addressing found =>
      some (dialer.move index peer
        (.trying found (dialer.addressesOf found) .unknownPeer
          (dialer.now + connectTimeout)))
  | .trying _ [] lastError _ =>
      some (dialer.move index peer (.leaving (.error lastError)))
  | .trying _ (_ :: _) _ _ => none
  | .writing _ _ | .shaking _ _ _ | .greeting _ _ => none
  | .leaving result =>
      some
        ({ dialer with dialing := dialer.dialing.erase peer }.move index peer
          (.recording result))
  | .recording result => some ((dialer.record peer result).move index peer .done)
  | .done => none

def step (dialer : Dialer) : DialAction → Option Dialer
  | .pass ms => some { dialer with now := dialer.now + ms }
  | .tick =>
      if dialer.due = [] ∧ dialer.nextTick ≤ dialer.now then
        some
          { dialer with
            nextTick := dialer.nextTick + redialInterval
            due := (dialer.store.peers.map Peer.deviceId).filter fun device =>
              dialer.Ready device }
      else none
  | .spawnDue =>
      match dialer.due with
      | [] => none
      | device :: rest =>
          if dialer.connected device then some { dialer with due := rest }
          else some ({ dialer with due := rest }.spawn device)
  | .trigger device => some (dialer.triggerDial device)
  | .onDiscovered device =>
      if (dialer.store.get device).isSome ∧ dialer.connected device = false then
        some (dialer.triggerDial device)
      else some dialer
  | .advance index =>
      match dialer.dials[index]? with
      | some dial => dialer.advance me redialInterval index dial.peer dial.phase
      | none => none
  | .reached index result =>
      match dialer.dials[index]? with
      | some ⟨peer, .trying found (address :: left) _ _⟩ =>
          match result with
          | .ok () => some (dialer.move index peer (.writing found address))
          | .error error => some (dialer.tryNext index peer found left error)
      | _ => none
  | .written index result =>
      match dialer.dials[index]? with
      | some ⟨peer, .writing found address⟩ =>
          match result with
          | .ok () =>
              some (dialer.move index peer
                (.shaking found address (dialer.now + handshakeTimeout)))
          | .error error => some (dialer.move index peer (.leaving (.error error)))
      | _ => none
  | .shaken index result =>
      match dialer.dials[index]? with
      | some ⟨peer, .shaking found address _⟩ =>
          match result with
          | .ok () => some (dialer.move index peer (.greeting found address))
          | .error error => some (dialer.move index peer (.leaving (.error error)))
      | _ => none
  | .timeOut index =>
      match dialer.dials[index]? with
      | some ⟨peer, .trying found (_ :: left) _ deadline⟩ =>
          if deadline ≤ dialer.now then
            some (dialer.tryNext index peer found left .timeout)
          else none
      | some ⟨peer, .shaking _ _ deadline⟩ =>
          if deadline ≤ dialer.now then
            some (dialer.move index peer (.leaving (.error .timeout)))
          else none
      | _ => none
  | .greeted index result =>
      match dialer.dials[index]? with
      | some ⟨peer, .greeting _ _⟩ =>
          some (dialer.move index peer (.leaving result))
      | _ => none
  | .clearOffline device =>
      some { dialer with
        offlineSince := Function.update dialer.offlineSince device none }
  | .noteOffline device =>
      some { dialer with
        offlineSince :=
          Function.update dialer.offlineSince device (some dialer.now) }
  | .dropBackoff device => some (dialer.forget device)
  | .clearBackoff =>
      some { dialer with
        backoff := fun _ => none
        marks := dialer.marks ++ [.allForgotten] }
  | .setConnected device connected =>
      some { dialer with
        connected := Function.update dialer.connected device connected }
  | .setStore store => some { dialer with store }
  | .setDiscovered device addresses =>
      some { dialer with
        discovered := Function.update dialer.discovered device addresses }

/-- The node as a machine. -/
def machine : Machine Dialer DialAction where
  step := step me redialInterval

/-! ## What a step can do -/

/-- How a dial goes on without touching what other dials see. -/
inductive Follows (dialer : Dialer) (peer : DeviceId) :
    DialPhase → DialPhase → Prop
  | connected (hconnected : dialer.connected peer = true) :
      Follows dialer peer .checking .done
  | unconnected (hconnected : dialer.connected peer = false) :
      Follows dialer peer .checking .deciding
  | allowed (hdials : dialer.ShouldDial me redialInterval peer) :
      Follows dialer peer .deciding .entering
  | refused (hdials : ¬ dialer.ShouldDial me redialInterval peer) :
      Follows dialer peer .deciding .done
  | taken (hdialing : peer ∈ dialer.dialing) :
      Follows dialer peer .entering .done
  | found (found : Peer) : Follows dialer peer .looking (.addressing found)
  | unknown : Follows dialer peer .looking (.leaving (.error .unknownPeer))
  | listed (found : Peer) :
      Follows dialer peer (.addressing found)
        (.trying found (dialer.addressesOf found) .unknownPeer
          (dialer.now + connectTimeout))
  | exhausted (found : Peer) (lastError : LanError) (deadline : ℕ) :
      Follows dialer peer (.trying found [] lastError deadline)
        (.leaving (.error lastError))
  | reached (found : Peer) (address : SocketAddr) (left : List SocketAddr)
      (lastError : LanError) (deadline : ℕ) :
      Follows dialer peer (.trying found (address :: left) lastError deadline)
        (.writing found address)
  | unreachable (found : Peer) (address : SocketAddr) (left : List SocketAddr)
      (lastError error : LanError) (deadline : ℕ) :
      Follows dialer peer (.trying found (address :: left) lastError deadline)
        (.trying found left error (dialer.now + connectTimeout))
  | written (found : Peer) (address : SocketAddr) :
      Follows dialer peer (.writing found address)
        (.shaking found address (dialer.now + handshakeTimeout))
  | unwritten (found : Peer) (address : SocketAddr) (error : LanError) :
      Follows dialer peer (.writing found address) (.leaving (.error error))
  | shaken (found : Peer) (address : SocketAddr) (deadline : ℕ) :
      Follows dialer peer (.shaking found address deadline)
        (.greeting found address)
  | unshaken (found : Peer) (address : SocketAddr) (deadline : ℕ)
      (error : LanError) :
      Follows dialer peer (.shaking found address deadline)
        (.leaving (.error error))
  | greeted (found : Peer) (address : SocketAddr) (result : Except LanError Unit) :
      Follows dialer peer (.greeting found address) (.leaving result)

/-- A dial that goes on so keeps what it holds. -/
theorem Follows.holds_eq {dialer : Dialer} {peer : DeviceId}
    {old new : DialPhase} (hfollows : Follows me redialInterval dialer peer old new) :
    Dial.holds ⟨peer, new⟩ = Dial.holds ⟨peer, old⟩ := by
  cases hfollows <;> rfl

/-- The ways the node steps. -/
inductive Stepped (dialer : Dialer) : DialAction → Dialer → Prop
  | passed (ms : ℕ) :
      Stepped dialer (.pass ms) { dialer with now := dialer.now + ms }
  | ticked (hdue : dialer.due = []) (htime : dialer.nextTick ≤ dialer.now) :
      Stepped dialer .tick
        { dialer with
          nextTick := dialer.nextTick + redialInterval
          due := (dialer.store.peers.map Peer.deviceId).filter fun device =>
            dialer.Ready device }
  | skipped (device : DeviceId) (rest : List DeviceId)
      (hdue : dialer.due = device :: rest)
      (hconnected : dialer.connected device = true) :
      Stepped dialer .spawnDue { dialer with due := rest }
  | spawned (device : DeviceId) (rest : List DeviceId)
      (hdue : dialer.due = device :: rest)
      (hconnected : dialer.connected device = false) :
      Stepped dialer .spawnDue ({ dialer with due := rest }.spawn device)
  | triggered (action : DialAction) (device : DeviceId) :
      Stepped dialer action (dialer.triggerDial device)
  | ignored (device : DeviceId) : Stepped dialer (.onDiscovered device) dialer
  | moved (action : DialAction) (index : ℕ) (peer : DeviceId)
      (old new : DialPhase) (hdial : dialer.dials[index]? = some ⟨peer, old⟩)
      (hfollows : Follows me redialInterval dialer peer old new) :
      Stepped dialer action (dialer.move index peer new)
  | entered (index : ℕ) (peer : DeviceId)
      (hdial : dialer.dials[index]? = some ⟨peer, .entering⟩)
      (hfree : peer ∉ dialer.dialing) :
      Stepped dialer (.advance index)
        ({ dialer with dialing := insert peer dialer.dialing }.move index peer
          .looking)
  | left (index : ℕ) (peer : DeviceId) (result : Except LanError Unit)
      (hdial : dialer.dials[index]? = some ⟨peer, .leaving result⟩) :
      Stepped dialer (.advance index)
        ({ dialer with dialing := dialer.dialing.erase peer }.move index peer
          (.recording result))
  | recorded (index : ℕ) (peer : DeviceId) (result : Except LanError Unit)
      (hdial : dialer.dials[index]? = some ⟨peer, .recording result⟩) :
      Stepped dialer (.advance index)
        ((dialer.record peer result).move index peer .done)
  | offlineCleared (device : DeviceId) :
      Stepped dialer (.clearOffline device)
        { dialer with
          offlineSince := Function.update dialer.offlineSince device none }
  | offlineNoted (device : DeviceId) :
      Stepped dialer (.noteOffline device)
        { dialer with
          offlineSince :=
            Function.update dialer.offlineSince device (some dialer.now) }
  | backoffDropped (device : DeviceId) :
      Stepped dialer (.dropBackoff device) (dialer.forget device)
  | backoffCleared :
      Stepped dialer .clearBackoff
        { dialer with
          backoff := fun _ => none
          marks := dialer.marks ++ [.allForgotten] }
  | outside (action : DialAction) (connected : DeviceId → Bool)
      (store : PeerStore) : Stepped dialer action { dialer with connected, store }
  | discovered (device : DeviceId) (addresses : List SocketAddr) :
      Stepped dialer (.setDiscovered device addresses)
        { dialer with
          discovered := Function.update dialer.discovered device addresses }

variable {me redialInterval}

theorem stepped_advance {dialer next : Dialer} {index : ℕ} {dial : Dial}
    (hdial : dialer.dials[index]? = some dial)
    (hstep : dialer.advance me redialInterval index dial.peer dial.phase =
      some next) :
    Stepped me redialInterval dialer (.advance index) next := by
  obtain ⟨peer, phase⟩ := dial
  cases phase with
  | checking =>
      obtain rfl := Option.some.inj hstep
      cases hconnected : dialer.connected peer with
      | true => exact .moved _ index peer _ _ hdial (.connected hconnected)
      | false => exact .moved _ index peer _ _ hdial (.unconnected hconnected)
  | deciding =>
      obtain rfl := Option.some.inj hstep
      by_cases hdials : dialer.ShouldDial me redialInterval peer
      · rw [if_pos hdials]
        exact .moved _ index peer _ _ hdial (.allowed hdials)
      · rw [if_neg hdials]
        exact .moved _ index peer _ _ hdial (.refused hdials)
  | entering =>
      simp only [advance] at hstep
      split at hstep
      · next hdialing =>
        obtain rfl := Option.some.inj hstep
        exact .moved _ index peer _ _ hdial (.taken hdialing)
      · next hfree =>
        obtain rfl := Option.some.inj hstep
        exact .entered index peer hdial hfree
  | looking =>
      simp only [advance] at hstep
      split at hstep
      · next found _ =>
        obtain rfl := Option.some.inj hstep
        exact .moved _ index peer _ _ hdial (.found found)
      · obtain rfl := Option.some.inj hstep
        exact .moved _ index peer _ _ hdial .unknown
  | addressing found =>
      obtain rfl := Option.some.inj hstep
      exact .moved _ index peer _ _ hdial (.listed found)
  | trying found addresses lastError deadline =>
      cases addresses with
      | nil =>
          obtain rfl := Option.some.inj hstep
          exact .moved _ index peer _ _ hdial (.exhausted found lastError deadline)
      | cons address addresses => cases hstep
  | writing found address => cases hstep
  | shaking found address deadline => cases hstep
  | greeting found address => cases hstep
  | leaving result =>
      obtain rfl := Option.some.inj hstep
      exact .left index peer result hdial
  | recording result =>
      obtain rfl := Option.some.inj hstep
      exact .recorded index peer result hdial
  | done => cases hstep

theorem stepped {dialer next : Dialer} {action : DialAction}
    (hstep : (machine me redialInterval).step dialer action = some next) :
    Stepped me redialInterval dialer action next := by
  cases action with
  | pass ms =>
      obtain rfl := Option.some.inj hstep
      exact .passed ms
  | tick =>
      simp only [machine, step] at hstep
      split at hstep
      · next hready =>
        obtain rfl := Option.some.inj hstep
        exact .ticked hready.1 hready.2
      · cases hstep
  | spawnDue =>
      simp only [machine, step] at hstep
      split at hstep
      · cases hstep
      next device rest hdue =>
      split at hstep
      · next hconnected =>
        obtain rfl := Option.some.inj hstep
        exact .skipped device rest hdue hconnected
      · next hconnected =>
        obtain rfl := Option.some.inj hstep
        exact .spawned device rest hdue (Bool.eq_false_iff.mpr hconnected)
  | trigger device =>
      obtain rfl := Option.some.inj hstep
      exact .triggered _ device
  | onDiscovered device =>
      simp only [machine, step] at hstep
      split at hstep
      · obtain rfl := Option.some.inj hstep
        exact .triggered _ device
      · obtain rfl := Option.some.inj hstep
        exact .ignored device
  | advance index =>
      simp only [machine, step] at hstep
      split at hstep
      · next dial hdial => exact stepped_advance hdial hstep
      · cases hstep
  | reached index result =>
      simp only [machine, step] at hstep
      split at hstep
      · next peer found address left lastError deadline hdial =>
        split at hstep
        · obtain rfl := Option.some.inj hstep
          exact .moved _ index peer _ _ hdial
            (.reached found address left lastError deadline)
        · next error =>
          obtain rfl := Option.some.inj hstep
          exact .moved _ index peer _ _ hdial
            (.unreachable found address left lastError error deadline)
      · cases hstep
  | written index result =>
      simp only [machine, step] at hstep
      split at hstep
      · next peer found address hdial =>
        split at hstep
        · obtain rfl := Option.some.inj hstep
          exact .moved _ index peer _ _ hdial (.written found address)
        · next error =>
          obtain rfl := Option.some.inj hstep
          exact .moved _ index peer _ _ hdial (.unwritten found address error)
      · cases hstep
  | shaken index result =>
      simp only [machine, step] at hstep
      split at hstep
      · next peer found address deadline hdial =>
        split at hstep
        · obtain rfl := Option.some.inj hstep
          exact .moved _ index peer _ _ hdial (.shaken found address deadline)
        · next error =>
          obtain rfl := Option.some.inj hstep
          exact .moved _ index peer _ _ hdial
            (.unshaken found address deadline error)
      · cases hstep
  | timeOut index =>
      simp only [machine, step] at hstep
      split at hstep
      · next peer found address left lastError deadline hdial =>
        obtain ⟨_, hnext⟩ := Option.ite_none_right_eq_some.mp hstep
        obtain rfl := Option.some.inj hnext
        exact .moved _ index peer _ _ hdial
          (.unreachable found address left lastError .timeout deadline)
      · next peer found address deadline hdial =>
        obtain ⟨_, hnext⟩ := Option.ite_none_right_eq_some.mp hstep
        obtain rfl := Option.some.inj hnext
        exact .moved _ index peer _ _ hdial
          (.unshaken found address deadline .timeout)
      · cases hstep
  | greeted index result =>
      simp only [machine, step] at hstep
      split at hstep
      · next peer found address hdial =>
        obtain rfl := Option.some.inj hstep
        exact .moved _ index peer _ _ hdial (.greeted found address result)
      · cases hstep
  | clearOffline device =>
      obtain rfl := Option.some.inj hstep
      exact .offlineCleared device
  | noteOffline device =>
      obtain rfl := Option.some.inj hstep
      exact .offlineNoted device
  | dropBackoff device =>
      obtain rfl := Option.some.inj hstep
      exact .backoffDropped device
  | clearBackoff =>
      obtain rfl := Option.some.inj hstep
      exact .backoffCleared
  | setConnected device connected =>
      obtain rfl := Option.some.inj hstep
      exact .outside _ _ _
  | setStore store =>
      obtain rfl := Option.some.inj hstep
      exact .outside _ _ _
  | setDiscovered device addresses =>
      obtain rfl := Option.some.inj hstep
      exact .discovered device addresses

/-! ## One dial to a device at a time -/

/-- `dialing` has the devices that are being dialed, each by one dial. -/
def DialsOnce (dialer : Dialer) : Prop :=
  HeldOnce Dial.holds dialer.dialing dialer.dials

theorem dialsOnce_step (dialer : Dialer) (action : DialAction) (next : Dialer)
    (honce : dialer.DialsOnce)
    (hstep : (machine me redialInterval).step dialer action = some next) :
    next.DialsOnce := by
  cases stepped hstep with
  | spawned device rest hdue hconnected => exact honce.concat rfl
  | triggered action device => exact honce.concat rfl
  | moved action index peer old new hdial hfollows =>
      exact honce.set_same hdial hfollows.holds_eq
  | entered index peer hdial hfree => exact honce.take hdial rfl rfl hfree
  | left index peer result hdial => exact honce.release hdial rfl rfl
  | recorded index peer result hdial =>
      cases result with
      | ok _ => exact honce.set_same hdial rfl
      | error error => exact honce.set_same hdial rfl
  | _ => exact honce

end Dialer

end Cled.Lan
