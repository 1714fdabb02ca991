import Mathlib.Logic.Function.Basic
import Cled.Core.Machine
import Cled.Relay.Registry

/-!
# The relay's WebSocket handlers

A connection starts unauthenticated and can only send `register`.  The handlers
of one socket overlap only where one of them waits for a token to be verified:
everything else is one step.  The shape of control messages and the verification
of tokens belong to other libraries; both are parameters.
-/

namespace Cled.Relay

open Cled.Core Cled.Clipboard

/-! ## Messages -/

inductive ClientMessage where
  | register (accessToken : String) (deviceId : Identifier)
  | message (body : String)
  | devices
  deriving DecidableEq

inductive ErrorCode where
  | invalidJson
  | invalidFrame
  | invalidMessage
  | unauthorized
  | notRegistered
  | alreadyRegistered
  | noOtherDevices
  | internalError
  deriving DecidableEq

inductive ServerMessage where
  | registered (userId deviceId : Identifier)
  | message (fromUser fromDevice : Identifier) (body : String)
  | devices (deviceIds : List Identifier)
  | sent (recipients : ℕ)
  | error (code : ErrorCode) (message : String)
  deriving DecidableEq

/-- `JSON.parse` and the schema of client messages. -/
structure ClientSchema where
  Json : Type
  parseJson : Bytes → Option Json
  safeParse : Json → Option ClientMessage

/-- Parses one incoming text frame; failures come back as the error to send. -/
def parseClientMessage (schema : ClientSchema) (data : Bytes) :
    Except ServerMessage ClientMessage :=
  match schema.parseJson data with
  | none => .error (.error .invalidJson "message is not valid JSON")
  | some json =>
      match schema.safeParse json with
      | none =>
          .error (.error .invalidMessage
            "message does not match the relay protocol")
      | some message => .ok message

/-- A protocol whose text frames are one byte each. -/
def wordSchema (deviceId : Identifier) : ClientSchema where
  Json := Bytes
  parseJson := some
  safeParse
    | [0] => some (.register "token" deviceId)
    | [1] => some .devices
    | [2] => some (.message "hello")
    | _ => none

def exampleUser : Identifier := ⟨"user", by decide⟩

def exampleDevice : Identifier := ⟨"laptop", by decide⟩

/-- How `verifier.verify` ends. -/
inductive VerifyResult where
  | ok (userId : Identifier)
  | rejected
  | throws
  deriving DecidableEq

/-! ## Sockets -/

inductive ReadyState where
  | open
  | closing
  | closed
  deriving DecidableEq

/-- What a socket is sent. -/
inductive Output where
  | text (message : ServerMessage)
  | binary (frame : Bytes)
  | close (code : ℕ) (reason : String)
  deriving DecidableEq

/-- The state of an open socket once it has been sent this. -/
def Output.leaves : Output → ReadyState
  | .text _ => .open
  | .binary _ => .open
  | .close _ _ => .closing

/-- One socket with the state its handlers keep for it. -/
structure Client where
  readyState : ReadyState
  /-- A token is being verified. -/
  authenticating : Bool
  /-- The registration timer is set. -/
  authTimer : Bool
  /-- The `register` calls that wait for their token to be verified. -/
  verifying : List (String × Identifier)
  /-- Everything sent so far. -/
  output : List Output
  deriving DecidableEq

namespace Client

def opened : Client where
  readyState := .open
  authenticating := false
  authTimer := true
  verifying := []
  output := []

/-- `socket.send` and `socket.close`; neither does anything unless the socket is
open. -/
def put (client : Client) (output : Output) : Client :=
  if client.readyState = .open then
    { client with
      output := client.output ++ [output]
      readyState := output.leaves }
  else client

def putAll (client : Client) (outputs : List Output) : Client :=
  outputs.foldl put client

@[simp]
theorem put_verifying (client : Client) (output : Output) :
    (client.put output).verifying = client.verifying := by
  rw [put]
  split <;> rfl

@[simp]
theorem put_authenticating (client : Client) (output : Output) :
    (client.put output).authenticating = client.authenticating := by
  rw [put]
  split <;> rfl

/-- Only an open socket is sent anything. -/
theorem put_of_ne_open {client : Client} (hstate : client.readyState ≠ .open)
    (output : Output) : client.put output = client := if_neg hstate

theorem put_output (client : Client) (output : Output) :
    (client.put output).output = client.output ++ [output] ∨
      (client.put output).output = client.output := by
  rw [put]
  split
  · exact .inl rfl
  · exact .inr rfl

theorem put_readyState_ne_closed {client : Client}
    (hstate : client.readyState ≠ .closed) (output : Output) :
    (client.put output).readyState ≠ .closed := by
  rw [put]
  split
  · cases output <;> exact ReadyState.noConfusion
  · exact hstate

@[simp]
theorem putAll_verifying (client : Client) (outputs : List Output) :
    (client.putAll outputs).verifying = client.verifying := by
  induction outputs generalizing client with
  | nil => rfl
  | cons output outputs ih =>
      rw [putAll, List.foldl_cons, ← putAll, ih, put_verifying]

@[simp]
theorem putAll_authenticating (client : Client) (outputs : List Output) :
    (client.putAll outputs).authenticating = client.authenticating := by
  induction outputs generalizing client with
  | nil => rfl
  | cons output outputs ih =>
      rw [putAll, List.foldl_cons, ← putAll, ih, put_authenticating]

theorem putAll_of_ne_open {client : Client} (hstate : client.readyState ≠ .open)
    (outputs : List Output) : client.putAll outputs = client := by
  induction outputs with
  | nil => rfl
  | cons output outputs ih =>
      rw [putAll, List.foldl_cons, put_of_ne_open hstate, ← putAll, ih]

theorem putAll_readyState_ne_closed {client : Client}
    (hstate : client.readyState ≠ .closed) (outputs : List Output) :
    (client.putAll outputs).readyState ≠ .closed := by
  induction outputs generalizing client with
  | nil => exact hstate
  | cons output outputs ih => exact ih (put_readyState_ne_closed hstate output)

/-- A socket that is told to close does not stay open. -/
theorem putAll_close_ne_open (client : Client) {outputs : List Output}
    {code : ℕ} {reason : String} (hclose : .close code reason ∈ outputs) :
    (client.putAll outputs).readyState ≠ .open := by
  induction outputs generalizing client with
  | nil => cases hclose
  | cons output outputs ih =>
      rcases List.mem_cons.mp hclose with rfl | hlater
      · have hclosed : (client.put (.close code reason)).readyState ≠ .open := by
          rw [put]
          split
          · exact ReadyState.noConfusion
          · assumption
        rw [putAll, List.foldl_cons, ← putAll, putAll_of_ne_open hclosed]
        exact hclosed
      · exact ih (client.put output) hlater

/-- What a socket has been sent only grows, by some of what it is sent now. -/
theorem putAll_output (client : Client) (outputs : List Output) :
    ∃ added, (client.putAll outputs).output = client.output ++ added ∧
      added ⊆ outputs := by
  induction outputs generalizing client with
  | nil => exact ⟨[], (List.append_nil _).symm, List.nil_subset _⟩
  | cons output outputs ih =>
      obtain ⟨added, hadded, hsubset⟩ := ih (client.put output)
      rcases put_output client output with hput | hput
      · refine ⟨output :: added, ?_, List.cons_subset_cons _ hsubset⟩
        rw [putAll, List.foldl_cons, ← putAll, hadded, hput, List.append_assoc,
          List.singleton_append]
      · refine ⟨added, ?_, List.subset_cons_of_subset _ hsubset⟩
        rw [putAll, List.foldl_cons, ← putAll, hadded, hput]

end Client

def replacedCloseCode : ℕ := 4001

def unauthorizedCloseCode : ℕ := 4401

def authTimeoutCloseCode : ℕ := 4408

/-! ## Handlers -/

/-- What a handler does to a socket. -/
structure Effect where
  socket : Socket
  output : Output
  deriving DecidableEq

def send (socket : Socket) (message : ServerMessage) : Effect :=
  ⟨socket, .text message⟩

def sendError (socket : Socket) (code : ErrorCode) (message : String) : Effect :=
  send socket (.error code message)

def sendBinary (socket : Socket) (frame : Bytes) : Effect :=
  ⟨socket, .binary frame⟩

def closeSocket (socket : Socket) (code : ℕ) (reason : String) : Effect :=
  ⟨socket, .close code reason⟩

/-- Routes a tunnel frame to the device it names, another connected device of
the sender's own user.  The relay swaps the destination for the sender's
registered device ID. -/
def forwardTunnelFrame (connections : ConnectionRegistry) (sender : Connection)
    (data : Bytes) : List Effect :=
  match parseTunnelFrame data with
  | none =>
      [sendError sender.socket .invalidFrame "not a valid tunnel frame"]
  | some frame =>
      if frame.deviceId = sender.deviceId then
        [sendError sender.socket .invalidFrame "not a valid tunnel frame"]
      else
        match connections.getConnection sender.userId frame.deviceId with
        | none =>
            if frame.kind = .close then []
            else
              [sendBinary sender.socket
                (encodeTunnelFrame (undeliverable frame))]
        | some recipient =>
            [sendBinary recipient.socket
              (encodeTunnelFrame { frame with deviceId := sender.deviceId })]

/-- The other connected devices of the sender's user. -/
def otherConnections (connections : ConnectionRegistry) (sender : Connection) :
    List Connection :=
  (connections.getUserConnections sender.userId).filter (· ≠ sender)

/-- The `devices` request of a registered socket. -/
def listDevices (connections : ConnectionRegistry) (sender : Connection) :
    List Effect :=
  [send sender.socket
    (.devices ((otherConnections connections sender).map Connection.deviceId))]

/-- The test message of a registered socket. -/
def deliverMessage (connections : ConnectionRegistry) (sender : Connection)
    (body : String) : List Effect :=
  let recipients := otherConnections connections sender
  if recipients = [] then
    [sendError sender.socket .noOtherDevices "no other devices are connected"]
  else
    (recipients.map fun recipient =>
        send recipient.socket (.message sender.userId sender.deviceId body)) ++
      [send sender.socket (.sent recipients.length)]

/-- What a handler leaves: the registry, its own socket's state, what it does to
sockets, and the connection it registered, if any. -/
structure Reaction where
  connections : ConnectionRegistry
  client : Client
  effects : List Effect
  registered : Option Connection

/-- A handler that changes nothing but what sockets are sent. -/
def answer (connections : ConnectionRegistry) (client : Client)
    (effects : List Effect) : Reaction :=
  ⟨connections, client, effects, none⟩

/-- `handleFrame`, up to where `register` waits. -/
def handleFrame (schema : ClientSchema) (connections : ConnectionRegistry)
    (socket : Socket) (client : Client) (data : Bytes) (isBinary : Bool) :
    Reaction :=
  let sender := connections.getBySocket socket
  if isBinary then
    match sender with
    | none =>
        answer connections client
          [sendError socket .notRegistered "register before opening tunnels"]
    | some sender =>
        answer connections client (forwardTunnelFrame connections sender data)
  else
    match parseClientMessage schema data with
    | .error error => answer connections client [send socket error]
    | .ok (.register accessToken deviceId) =>
        if sender.isSome || client.authenticating then
          answer connections client
            [sendError socket .alreadyRegistered
              "this connection is already registered"]
        else
          answer connections
            { client with
              authenticating := true
              verifying := client.verifying ++ [(accessToken, deviceId)] } []
    | .ok .devices =>
        match sender with
        | none =>
            answer connections client
              [sendError socket .notRegistered
                "register before listing devices"]
        | some sender =>
            answer connections client (listDevices connections sender)
    | .ok (.message body) =>
        match sender with
        | none =>
            answer connections client
              [sendError socket .notRegistered
                "register before sending messages"]
        | some sender =>
            answer connections client (deliverMessage connections sender body)

/-- The rest of `register`, once the token is verified.  Whatever is thrown is
answered with an internal error. -/
def finishRegister (connections : ConnectionRegistry) (socket : Socket)
    (client : Client) (deviceId : Identifier) (result : VerifyResult) :
    Reaction :=
  let client := { client with authenticating := false }
  match result with
  | .throws =>
      answer connections client
        [sendError socket .internalError
          "the relay could not process the message"]
  | .rejected =>
      answer connections client
        [sendError socket .unauthorized "Authentication failed",
          closeSocket socket unauthorizedCloseCode "unauthorized"]
  | .ok userId =>
      -- A closed socket must never enter the registry: its close event has
      -- already fired, so nothing would remove it.
      if client.readyState ≠ .open then answer connections client []
      else
        let client := { client with authTimer := false }
        let connection : Connection := { userId, deviceId, socket }
        match connections.add connection with
        | none =>
            answer connections client
              [sendError socket .internalError
                "the relay could not process the message"]
        | some (connections, replaced) =>
            { connections, client
              effects :=
                (replaced.toList.map fun replaced =>
                  closeSocket replaced.socket replacedCloseCode
                    "replaced by a newer connection") ++
                  [send socket (.registered userId deviceId)]
              registered := some connection }

/-! ## The machine -/

inductive Event where
  | connect
  | message (data : Bytes) (isBinary : Bool)
  /-- The verification that a waiting `register` call started has ended. -/
  | verified (index : ℕ) (result : VerifyResult)
  /-- The registration timer fires. -/
  | timeout
  /-- The other end starts to close, or the connection fails. -/
  | leave
  /-- The socket's `close` event. -/
  | close
  deriving DecidableEq

/-- An event of one socket. -/
structure Action where
  socket : Socket
  event : Event
  deriving DecidableEq

/-- What an event of a socket leads to, if it can happen. -/
def react (schema : ClientSchema) (connections : ConnectionRegistry)
    (client : Option Client) (action : Action) : Option Reaction :=
  match action.event, client with
  | .connect, none => some (answer connections .opened [])
  | .connect, some _ => none
  | _, none => none
  | .message data isBinary, some client =>
      if client.readyState = .closed then none
      else
        some (handleFrame schema connections action.socket client data isBinary)
  | .verified index result, some client =>
      client.verifying[index]?.map fun (_, deviceId) =>
        finishRegister connections action.socket
          { client with verifying := client.verifying.eraseIdx index } deviceId
          result
  | .timeout, some client =>
      if client.authTimer then
        some (answer connections { client with authTimer := false }
          (if (connections.getBySocket action.socket).isNone then
            [closeSocket action.socket authTimeoutCloseCode
              "registration timed out"]
          else []))
      else none
  | .leave, some client =>
      if client.readyState = .open then
        some (answer connections { client with readyState := .closing } [])
      else none
  | .close, some client =>
      if client.readyState = .closed then none
      else
        some (answer (connections.removeBySocket action.socket)
          { client with readyState := .closed, authTimer := false } [])

structure Server where
  connections : ConnectionRegistry
  clients : Socket → Option Client
  /-- Every connection ever registered, oldest first. -/
  registrations : List Connection

namespace Server

def initial : Server := ⟨.empty, fun _ => none, []⟩

/-- What a socket has been sent. -/
def outputOf (relay : Server) (socket : Socket) : List Output :=
  (relay.clients socket).elim [] Client.output

def setClient (clients : Socket → Option Client) (socket : Socket)
    (client : Client) : Socket → Option Client :=
  Function.update clients socket (some client)

/-- What an effect does to the socket it is meant for. -/
def perform (clients : Socket → Option Client) (effect : Effect) :
    Socket → Option Client :=
  Function.update clients effect.socket
    ((clients effect.socket).map fun client => client.put effect.output)

/-- What the effects send to one socket. -/
def outputsFor (effects : List Effect) (socket : Socket) : List Output :=
  (effects.filter (·.socket = socket)).map Effect.output

theorem foldl_perform (clients : Socket → Option Client)
    (effects : List Effect) (socket : Socket) :
    effects.foldl perform clients socket =
      (clients socket).map fun client =>
        client.putAll (outputsFor effects socket) := by
  induction effects generalizing clients with
  | nil => exact Option.map_id'.symm
  | cons effect effects ih =>
      rw [List.foldl_cons, ih, perform]
      by_cases hsocket : effect.socket = socket
      · have hfirst : outputsFor (effect :: effects) socket =
            effect.output :: outputsFor effects socket :=
          congrArg (List.map Effect.output)
            (List.filter_cons_of_pos (decide_eq_true hsocket))
        rw [hsocket, Function.update_self, Option.map_map, hfirst]
        rfl
      · rw [Function.update_of_ne (Ne.symm hsocket), outputsFor, outputsFor,
          List.filter_cons_of_neg (by simpa using hsocket)]

theorem mem_outputsFor {effects : List Effect} {socket : Socket}
    {output : Output} :
    output ∈ outputsFor effects socket ↔ ⟨socket, output⟩ ∈ effects := by
  simp only [outputsFor, List.mem_map, List.mem_filter, decide_eq_true_eq]
  constructor
  · rintro ⟨effect, ⟨hmem, rfl⟩, rfl⟩
    exact hmem
  · exact fun hmem => ⟨_, ⟨hmem, rfl⟩, rfl⟩

/-- The state a handler leaves. -/
def after (relay : Server) (socket : Socket) (reaction : Reaction) : Server where
  connections := reaction.connections
  clients :=
    reaction.effects.foldl perform
      (setClient relay.clients socket reaction.client)
  registrations := relay.registrations ++ reaction.registered.toList

theorem after_clients (relay : Server) (socket : Socket) (reaction : Reaction)
    (other : Socket) :
    (relay.after socket reaction).clients other =
      (if other = socket then some reaction.client
        else relay.clients other).map fun client =>
          client.putAll (outputsFor reaction.effects other) := by
  have hclients := foldl_perform
    (setClient relay.clients socket reaction.client) reaction.effects other
  rw [after]
  dsimp only
  rw [hclients, setClient]
  split
  · next heq => rw [heq, Function.update_self]
  · next hne => rw [Function.update_of_ne hne]

/-- The reaction to an action in a state. -/
def reaction (schema : ClientSchema) (relay : Server) (action : Action) :
    Option Reaction :=
  react schema relay.connections (relay.clients action.socket) action

def machine (schema : ClientSchema) : Machine Server Action where
  step relay action :=
    (relay.reaction schema action).map (relay.after action.socket)

end Server

end Cled.Relay
