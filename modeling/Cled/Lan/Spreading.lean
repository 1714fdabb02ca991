import Mathlib.Logic.Function.Basic
import Cled.Core.Tasks
import Cled.Lan.Gossip

/-!
# Rosters over sessions

The devices of a group with their sessions.  Each end of a session is opened and
closed on its own; what is on its way to an end is lost when that end closes.  A
device tells its roster to a peer when it opens its end of a session, and to all
peers after every change of who is in the group.  It does so in several steps,
between which any other device or thread can take steps: it disconnects devices,
then makes the message, then puts it in the queues of its connections.
-/

namespace Cled.Lan

open Cled.Core Cled.Sync

/-- How far one end of a session is. -/
inductive SessionEnd where
  | unopened
  | reading (peer : DeviceId)
  | over
  deriving DecidableEq

/-- What a thread of a device is still to do. -/
inductive Errand where
  /-- `apply_roster` after the merge, with devices left to disconnect. -/
  | disconnecting (me : DeviceId) (devices : List DeviceId)
  /-- `send_roster_to`, or `send_roster_to_all`, before `roster_message`. -/
  | telling (me : DeviceId) (only : Option DeviceId)
  /-- The same after `roster_message`. -/
  | sending (me : DeviceId) (only : Option DeviceId) (roster : Roster)
  /-- `remove_peer` after `disconnect_removed`. -/
  | removing (me id : DeviceId)
  /-- `leave_group` before it closes the connections. -/
  | leaving (me : DeviceId)
  | done
  deriving DecidableEq

namespace Errand

/-- The device whose thread it is. -/
def device : Errand → Option DeviceId
  | .disconnecting me _ => some me
  | .telling me _ => some me
  | .sending me _ _ => some me
  | .removing me _ => some me
  | .leaving me => some me
  | .done => none

end Errand

/-- A roster on its way over a session. -/
structure RosterLetter where
  session : ℕ
  sender : DeviceId
  receiver : DeviceId
  roster : Roster
  deriving DecidableEq

namespace RosterLetter

/-- The letter goes this way over this session. -/
def On (letter : RosterLetter) (session : ℕ) (sender receiver : DeviceId) :
    Prop :=
  letter.session = session ∧ letter.sender = sender ∧ letter.receiver = receiver

instance (letter : RosterLetter) (session : ℕ) (sender receiver : DeviceId) :
    Decidable (letter.On session sender receiver) :=
  inferInstanceAs (Decidable (_ ∧ _ ∧ _))

end RosterLetter

structure Spreading where
  stores : DeviceId → PeerStore
  /-- The connections of a device: the peer, and the session with it. -/
  conns : DeviceId → List (DeviceId × ℕ)
  ends : DeviceId → ℕ → SessionEnd
  errands : List Errand
  /-- In the order they were sent. -/
  inFlight : List RosterLetter

/-- One step.  `saved` is what saving the store answers. -/
inductive SpreadAction where
  /-- `register` of a session, which replaces an older one. -/
  | opened (me peer : DeviceId) (session : ℕ)
  /-- The end of `read_loop`, and `unregister`. -/
  | closed (me : DeviceId) (session : ℕ)
  /-- The next roster of a session reaches `apply_roster`. -/
  | delivered (me : DeviceId) (session : ℕ) (saved : Except LanError Unit)
  /-- `store_peer` after a pairing. -/
  | paired (me : DeviceId) (peer : Peer) (saved : Except LanError Unit)
  /-- `remove_peer`, up to `disconnect_removed`. -/
  | removePeer (me id : DeviceId)
  /-- A goodbye reaches `leave_group`. -/
  | dismissed (me sender : DeviceId) (saved : Except LanError Unit)
  /-- `seen`, when a session begins. -/
  | seen (me id : DeviceId) (name : String) (address : Option SocketAddr)
      (saved : Except LanError Unit)
  /-- `mark_notified`, when a removed device was told. -/
  | notified (me id : DeviceId) (saved : Except LanError Unit)
  /-- The next step of an errand; a removal reads the clock.  `result` is what
  saving the store answers, or encoding the message. -/
  | goesOn (errand : ℕ) (nowMs : ℕ) (result : Except LanError Unit)

namespace Spreading

/-- No device was ever paired. -/
def start : Spreading :=
  { stores := fun _ => PeerStore.empty
    conns := fun _ => []
    ends := fun _ _ => .unopened
    errands := []
    inFlight := [] }

def withStore (group : Spreading) (me : DeviceId) (store : PeerStore) :
    Spreading :=
  { group with stores := Function.update group.stores me store }

def withConns (group : Spreading) (me : DeviceId)
    (conns : List (DeviceId × ℕ)) : Spreading :=
  { group with conns := Function.update group.conns me conns }

def withEnd (group : Spreading) (me : DeviceId) (session : ℕ)
    (sessionEnd : SessionEnd) : Spreading :=
  { group with
    ends := Function.update group.ends me
      (Function.update (group.ends me) session sessionEnd) }

def spawn (group : Spreading) (errand : Errand) : Spreading :=
  { group with errands := group.errands ++ [errand] }

/-- The errand in this place gets as far as `errand`. -/
def advance (group : Spreading) (place : ℕ) (errand : Errand) : Spreading :=
  { group with errands := group.errands.set place errand }

/-- Takes the connection to `peer` out of the table. -/
def disconnect (group : Spreading) (me peer : DeviceId) : Spreading :=
  group.withConns me ((group.conns me).filter fun conn => conn.1 ≠ peer)

/-- The connection is with this peer, or any peer will do. -/
def goesTo (only : Option DeviceId) (conn : DeviceId × ℕ) : Bool :=
  only.all fun peer => conn.1 = peer

/-- `send_roster_to_all` and `send_roster_to`, with the message made. -/
def send (group : Spreading) (me : DeviceId) (only : Option DeviceId)
    (roster : Roster) : Spreading :=
  { group with
    inFlight := group.inFlight ++
      ((group.conns me).filter (goesTo only)).map fun conn =>
        { session := conn.2, sender := me, receiver := conn.1, roster } }

/-- `register` and what `start_session` does next. -/
def opened (group : Spreading) (me peer : DeviceId) (session : ℕ) :
    Spreading :=
  (((group.disconnect me peer).withConns me
    ((group.disconnect me peer).conns me ++ [(peer, session)])).withEnd me
      session (.reading peer)).spawn (.telling me (some peer))

/-- The end of `me` closes, with what was on its way to it. -/
def closed (group : Spreading) (me peer : DeviceId) (session : ℕ) :
    Spreading :=
  { (group.withConns me ((group.conns me).filter fun conn =>
      conn ≠ (peer, session))).withEnd me session .over with
    inFlight := group.inFlight.filter fun letter =>
      ¬ (letter.session = session ∧ letter.receiver = me) }

/-- `apply_roster`, up to the end of the merge. -/
def applyRoster (group : Spreading) (me sender : DeviceId) (roster : Roster)
    (saved : Except LanError Unit) : Spreading :=
  let (result, store) := (group.stores me).merge me sender roster saved
  match result with
  | .error _ => group.withStore me store
  | .ok change =>
      if change.isEmpty then group.withStore me store
      else
        (group.withStore me store).spawn
          (.disconnecting me (PeerStore.changedIds change))

/-- The next step of an errand. -/
def goesOn (group : Spreading) (place : ℕ) (nowMs : ℕ)
    (result : Except LanError Unit) : Errand → Option Spreading
  | .disconnecting me (id :: rest) =>
      some ((group.disconnect me id).advance place (.disconnecting me rest))
  | .disconnecting me [] => some (group.advance place (.telling me none))
  | .telling me only =>
      match result with
      -- The list of devices is not sent.
      | .error _ => some (group.advance place .done)
      | .ok _ =>
          some (group.advance place (.sending me only (group.stores me).roster))
  | .sending me only roster =>
      some ((group.send me only roster).advance place .done)
  | .removing me id =>
      let (removed, store) := (group.stores me).remove id nowMs result
      match removed with
      | .error _ => some ((group.withStore me store).advance place .done)
      | .ok _ =>
          some ((group.withStore me store).advance place (.telling me none))
  | .leaving me => some ((group.withConns me []).advance place .done)
  | .done => none

def step (group : Spreading) : SpreadAction → Option Spreading
  | .opened me peer session =>
      if group.ends me session = .unopened then
        some (group.opened me peer session)
      else none
  | .closed me session =>
      match group.ends me session with
      | .reading peer => some (group.closed me peer session)
      | _ => none
  | .delivered me session saved =>
      match group.ends me session with
      | .reading peer =>
          (group.inFlight.find? fun letter =>
              letter.On session peer me).map fun letter =>
            { group with
              inFlight := group.inFlight.erase letter }.applyRoster me peer
                letter.roster saved
      | _ => none
  | .paired me peer saved =>
      let (result, store) := (group.stores me).upsert peer saved
      match result with
      | .error _ => some (group.withStore me store)
      | .ok _ => some ((group.withStore me store).spawn (.telling me none))
  | .removePeer me id =>
      some ((group.disconnect me id).spawn (.removing me id))
  | .dismissed me sender saved =>
      -- Whether saving works is only logged.
      if ((group.stores me).get sender).isSome then
        some ((group.withStore me ((group.stores me).clear saved).2).spawn
          (.leaving me))
      else none
  | .seen me id name address saved =>
      some (group.withStore me
        ((group.stores me).seen id name address saved).2)
  | .notified me id saved =>
      some (group.withStore me ((group.stores me).markNotified id saved).2)
  | .goesOn place nowMs result =>
      group.errands[place]?.bind (group.goesOn place nowMs result)

def machine : Machine Spreading SpreadAction := ⟨step⟩

end Spreading

end Cled.Lan
