import Cled.Desktop.ThroughRelay
import Cled.Relay.Answering

/-!
# A session with the relay

Once registered, the desktop sends test messages, requests for the devices and
tunnel frames over one connection, and reads what the relay sends, in order.
Replies carry nothing that says what they reply to: confirmations and errors are
matched with the test messages that wait, first in, first out.  The other
sockets of the relay do as they like.
-/

namespace Cled.Desktop

open Cled.Core Cled.Clipboard Cled.Sync Cled.Relay

/-- The JSON that the session sends. -/
structure Wording where
  test : String → Bytes
  devices : Bytes

/-- The relay takes a request for the devices as one, and a test message as one
unless it refuses it, for one that is too long. -/
structure Wording.Understood (wording : Wording) (schema : ClientSchema) :
    Prop where
  test : ∀ body, parseClientMessage schema (wording.test body) =
      .ok (.message body) ∨
    ∃ error, parseClientMessage schema (wording.test body) = .error error
  devices : parseClientMessage schema wording.devices = .ok .devices

/-- What the session sends.  A test message carries the number of its reply
channel here. -/
inductive Request where
  | test (ticket : ℕ) (body : String)
  | devices
  | frame (data : Bytes)
  deriving DecidableEq

namespace Request

def event (wording : Wording) : Request → Relay.Event
  | .test _ body => .message (wording.test body) false
  | .devices => .message wording.devices false
  | .frame data => .message data true

/-- The reply channel that the request leaves waiting. -/
def ticket : Request → Option ℕ
  | .test ticket _ => some ticket
  | _ => none

end Request

/-! ## The session -/

/-- What a test message is reported to have done: how many devices received it,
or an error. -/
abbrev Reply := Except String ℕ

structure RelaySession where
  running : Bool
  /-- Test messages that wait for their reply, the oldest first. -/
  pending : List ℕ
  /-- A pairing request that waits for the list of devices. -/
  pairing : Option ℕ
  /-- The other devices of the account, as last heard. -/
  online : List DeviceId
  /-- Replies so far. -/
  reported : List (ℕ × Reply)
  /-- Test messages from other devices. -/
  received : List (Identifier × String)
  deriving DecidableEq

/-- The reply that a message of the relay is for a test message that waits.  A
number too large for its type is no message at all. -/
def replyOf : ServerMessage → Option Reply
  | .sent recipients =>
      if recipients < 4294967296 then some (.ok recipients) else none
  | .error code message =>
      some (.error
        (if code = .noOtherDevices then
          "No other devices are signed in to this account right now."
        else message))
  | _ => none

def replyIn : Output → Option Reply
  | .text message => replyOf message
  | _ => none

namespace RelaySession

/-- The session loop once the relay has confirmed the registration. -/
def start : RelaySession :=
  { running := true, pending := [], pairing := none, online := []
    reported := [], received := [] }

/-- The first test message that waits gets the reply, if one waits. -/
def reply (session : RelaySession) (reply : Reply) : RelaySession :=
  match session.pending with
  | [] => session
  | ticket :: pending =>
      { session with
        pending
        reported := session.reported ++ [(ticket, reply)] }

/-- A text frame of the relay. -/
def onMessage (format : UuidFormat) (session : RelaySession)
    (message : ServerMessage) : RelaySession :=
  match message with
  | .message _ fromDevice body =>
      { session with received := session.received ++ [(fromDevice, body)] }
  | .sent _ => (replyOf message).elim session session.reply
  | .error _ _ => (replyOf message).elim session session.reply
  | .devices deviceIds =>
      { session with
        online := deviceIds.filterMap fun id => parseDevice format id.text
        pairing := none }
  | .registered _ _ => session

/-- Whether it can send tunnel frames when it has read this: a `close` for a
stray frame, or the tunnels it pairs through. -/
def mayAnswer (session : RelaySession) : Output → Bool
  | .binary _ => true
  | .text (.devices _) => session.pairing.isSome
  | _ => false

/-- What the session loop does with what the relay sends. -/
def onOutput (format : UuidFormat) (session : RelaySession) :
    Output → RelaySession
  | .text message => session.onMessage format message
  | .binary _ => session
  | .close _ _ => { session with running := false }

end RelaySession

/-! ## The session and the relay -/

/-- A session, the relay and what is on its way between them. -/
structure RelayLink where
  relay : Server
  session : RelaySession
  /-- Requests that the relay has not handled yet. -/
  requests : List Request
  /-- How much the relay had sent when the session loop began. -/
  skipped : ℕ
  /-- How much the session has read since. -/
  read : ℕ
  /-- The reply channels of all test messages, in the order they were sent. -/
  asked : List ℕ
  /-- What the relay answered to which test message. -/
  answers : List (ℕ × Reply)

inductive LinkAction where
  /-- `send_relay_test`. -/
  | ask (ticket : ℕ) (body : String)
  /-- `pair_through_relay`. -/
  | pair (ticket : ℕ)
  /-- A tick of the dial timer, with the `open` frames of the tunnels. -/
  | dial (frames : List Bytes)
  /-- What a tunnel's session wrote, as a frame. -/
  | pumped (frame : Bytes)
  /-- Reads what the relay sent next, and sends these frames because of it. -/
  | next (frames : List Bytes)
  /-- The session ends: a send fails, or the settings change. -/
  | ended
  /-- The relay handles the next request. -/
  | handled
  /-- Any event of another socket, or of this one but a message. -/
  | other (action : Relay.Action)
  deriving DecidableEq

namespace RelayLink

variable (schema : ClientSchema) (wording : Wording) (format : UuidFormat)
  (socket : Socket)

/-- What the relay has sent since the session loop began. -/
def inbox (link : RelayLink) : List Output :=
  (link.relay.outputOf socket).drop link.skipped

def start (relay : Server) : RelayLink :=
  { relay
    session := .start
    requests := []
    skipped := (relay.outputOf socket).length
    read := 0
    asked := []
    answers := [] }

def send (link : RelayLink) (requests : List Request) : RelayLink :=
  { link with requests := link.requests ++ requests }

/-- The answers that a reaction has for the socket. -/
def answersIn (reaction : Reaction) : List Reply :=
  (Server.outputsFor reaction.effects socket).filterMap replyIn

def step (link : RelayLink) : LinkAction → Option RelayLink
  | .ask ticket body =>
      if link.session.running then
        some
          { link.send [.test ticket body] with
            session :=
              { link.session with pending := link.session.pending ++ [ticket] }
            asked := link.asked ++ [ticket] }
      else none
  | .pair ticket =>
      if link.session.running then
        match link.session.pairing with
        -- Refused: a pairing request waits already.
        | some _ => some link
        | none =>
            some
              { link.send [.devices] with
                session := { link.session with pairing := some ticket } }
      else none
  | .dial frames =>
      if link.session.running then
        some (link.send (frames.map .frame ++ [.devices]))
      else none
  | .pumped frame =>
      if link.session.running then some (link.send [.frame frame]) else none
  | .next frames =>
      if link.session.running then
        ((link.inbox socket)[link.read]?).bind fun output =>
          if frames = [] ∨ link.session.mayAnswer output then
            some
              { link.send (frames.map .frame) with
                session := link.session.onOutput format output
                read := link.read + 1 }
          else none
      else none
  | .ended => some { link with session := { link.session with running := false } }
  | .handled =>
      match link.requests with
      | [] => none
      | request :: requests =>
          let action : Relay.Action := ⟨socket, request.event wording⟩
          (link.relay.reaction schema action).map fun reaction =>
            { link with
              relay := link.relay.after socket reaction
              requests
              answers := link.answers ++ request.ticket.toList.flatMap fun ticket =>
                (answersIn socket reaction).map (ticket, ·) }
  | .other action =>
      if action.socket = socket ∧ action.event.isMessage then none
      else
        ((Server.machine schema).step link.relay action).map fun relay =>
          { link with relay }

def machine : Machine RelayLink LinkAction :=
  ⟨step schema wording format socket⟩

end RelayLink

end Cled.Desktop
