import Cled.Relay.Sound

/-!
# What a registered socket is answered

Confirmations and errors only ever go to the socket whose frame caused them.  A
test message of a registered socket is answered with exactly one of them, a
request for the devices with none, and neither is a tunnel frame that leads to
another device.
-/

namespace Cled.Relay

open Cled.Core Cled.Clipboard

variable {schema : ClientSchema}

/-- The event is a message of the socket's client. -/
def Event.isMessage : Event → Bool
  | .message _ _ => true
  | _ => false

/-! ## Answers go to whoever asked -/

/-- A confirmation or an error. -/
def Output.IsAnswer : Output → Prop
  | .text (.sent _) => True
  | .text (.error _ _) => True
  | _ => False

/-- Answers among these go to this socket. -/
def AnswersOnly (socket : Socket) (effects : List Effect) : Prop :=
  ∀ effect ∈ effects, effect.output.IsAnswer → effect.socket = socket

theorem answersOnly_nil (socket : Socket) : AnswersOnly socket [] := nofun

theorem answersOnly_self (socket : Socket) (output : Output) :
    AnswersOnly socket [⟨socket, output⟩] := fun effect hmem _ => by
  rw [List.mem_singleton.mp hmem]

theorem AnswersOnly.append {socket : Socket} {front back : List Effect}
    (hfront : AnswersOnly socket front) (hback : AnswersOnly socket back) :
    AnswersOnly socket (front ++ back) := fun effect hmem =>
  (List.mem_append.mp hmem).elim (hfront effect) (hback effect)

variable {connections : ConnectionRegistry} {socket : Socket}

theorem answersOnly_forwardTunnelFrame {sender : Connection}
    (hsender : connections.getBySocket socket = some sender) (data : Bytes) :
    AnswersOnly socket (forwardTunnelFrame connections sender data) := by
  have hself := ConnectionRegistry.socket_eq hsender
  unfold forwardTunnelFrame
  rw [hself]
  split
  · exact answersOnly_self _ _
  · split
    · exact answersOnly_self _ _
    · split
      · split
        · exact answersOnly_nil _
        · exact answersOnly_self _ _
      · intro effect hmem hanswer
        rw [List.mem_singleton.mp hmem] at hanswer
        exact hanswer.elim

theorem answersOnly_deliverMessage {sender : Connection}
    (hsender : connections.getBySocket socket = some sender) (body : String) :
    AnswersOnly socket (deliverMessage connections sender body) := by
  have hself := ConnectionRegistry.socket_eq hsender
  unfold deliverMessage
  rw [hself]
  dsimp only
  split
  · exact answersOnly_self _ _
  · refine AnswersOnly.append (fun effect hmem hanswer => ?_)
      (answersOnly_self _ _)
    obtain ⟨recipient, _, rfl⟩ := List.mem_map.mp hmem
    exact hanswer.elim

theorem answersOnly_handleFrame (client : Client) (data : Bytes)
    (isBinary : Bool) :
    AnswersOnly socket
      (handleFrame schema connections socket client data isBinary).effects := by
  unfold handleFrame
  cases isBinary with
  | true =>
      cases hsender : connections.getBySocket socket with
      | none => exact answersOnly_self _ _
      | some sender => exact answersOnly_forwardTunnelFrame hsender data
  | false =>
      cases parseClientMessage schema data with
      | error error => exact answersOnly_self _ _
      | ok message =>
          cases hsender : connections.getBySocket socket with
          | none =>
              cases message with
              | register accessToken deviceId =>
                  cases client.authenticating with
                  | true => exact answersOnly_self _ _
                  | false => exact answersOnly_nil _
              | message body => exact answersOnly_self _ _
              | devices => exact answersOnly_self _ _
          | some sender =>
              cases message with
              | register accessToken deviceId => exact answersOnly_self _ _
              | message body => exact answersOnly_deliverMessage hsender body
              | devices =>
                  rw [← ConnectionRegistry.socket_eq hsender]
                  exact answersOnly_self _ _

theorem answersOnly_finishRegister (client : Client) (deviceId : Identifier)
    (result : VerifyResult) :
    AnswersOnly socket
      (finishRegister connections socket client deviceId result).effects := by
  cases result with
  | throws => exact answersOnly_self _ _
  | rejected =>
      intro effect hmem _
      rcases List.mem_cons.mp hmem with rfl | hlast
      · rfl
      · rw [List.mem_singleton.mp hlast]
        rfl
  | ok userId =>
      dsimp only [finishRegister]
      split
      · exact answersOnly_nil _
      · split
        · exact answersOnly_self _ _
        · refine AnswersOnly.append (fun effect hmem hanswer => ?_)
            (answersOnly_self _ _)
          obtain ⟨replaced, _, rfl⟩ := List.mem_map.mp hmem
          exact hanswer.elim

theorem answersOnly_react {client : Option Client} {action : Action}
    {reaction : Reaction}
    (hreact : react schema connections client action = some reaction) :
    AnswersOnly action.socket reaction.effects := by
  obtain ⟨socket, event⟩ := action
  cases client with
  | none =>
      cases event with
      | connect =>
          obtain rfl := Option.some.inj hreact
          exact answersOnly_nil _
      | message | verified | timeout | leave | close => cases hreact
  | some client =>
      cases event with
      | connect => cases hreact
      | message data isBinary =>
          dsimp only [react] at hreact
          split at hreact
          · cases hreact
          obtain rfl := Option.some.inj hreact
          exact answersOnly_handleFrame client data isBinary
      | verified index result =>
          obtain ⟨⟨accessToken, deviceId⟩, _, rfl⟩ :=
            Option.map_eq_some_iff.mp hreact
          exact answersOnly_finishRegister _ deviceId result
      | timeout =>
          dsimp only [react] at hreact
          split at hreact
          · obtain rfl := Option.some.inj hreact
            dsimp only [answer]
            split
            · exact answersOnly_self _ _
            · exact answersOnly_nil _
          · cases hreact
      | leave | close =>
          dsimp only [react] at hreact
          split at hreact
          all_goals first
            | cases hreact; done
            | obtain rfl := Option.some.inj hreact
              exact answersOnly_nil _

/-! ## One answer for each test message -/

/-- What `handleFrame` tells the sender of a test message. -/
def testAnswer (connections : ConnectionRegistry) (sender : Connection) :
    ServerMessage :=
  let recipients := otherConnections connections sender
  if recipients = [] then
    .error .noOtherDevices "no other devices are connected"
  else .sent recipients.length

theorem socket_ne_of_other {sender recipient : Connection}
    (hsender : connections.getBySocket sender.socket = some sender)
    (hother : recipient ∈ otherConnections connections sender) :
    recipient.socket ≠ sender.socket := by
  obtain ⟨hlisted, hne⟩ := List.mem_filter.mp hother
  obtain ⟨device, hdevice⟩ := InsertionMap.mem_values_iff.mp hlisted
  intro hsame
  have hheld := connections.agree.getBySocket_of hdevice
  rw [hsame] at hheld
  exact of_decide_eq_true hne (Option.some.inj (hheld.symm.trans hsender))

theorem outputsFor_self (socket : Socket) (output : Output) :
    Server.outputsFor [⟨socket, output⟩] socket = [output] := by
  simp [Server.outputsFor]

theorem outputsFor_other {socket target : Socket} (hne : target ≠ socket)
    (output : Output) : Server.outputsFor [⟨target, output⟩] socket = [] := by
  simp [Server.outputsFor, hne]

theorem outputsFor_deliverMessage {sender : Connection}
    (hsender : connections.getBySocket sender.socket = some sender)
    (body : String) :
    Server.outputsFor (deliverMessage connections sender body) sender.socket =
      [.text (testAnswer connections sender)] := by
  unfold deliverMessage testAnswer
  dsimp only
  split
  · exact outputsFor_self _ _
  · have hothers : ((otherConnections connections sender).map fun recipient =>
        send recipient.socket
          (.message sender.userId sender.deviceId body)).filter
            (·.socket = sender.socket) = [] := by
      refine List.filter_eq_nil_iff.mpr fun effect hmem hsocket => ?_
      obtain ⟨recipient, hother, rfl⟩ := List.mem_map.mp hmem
      exact socket_ne_of_other hsender hother (of_decide_eq_true hsocket)
    rw [Server.outputsFor, List.filter_append, hothers, List.nil_append]
    exact outputsFor_self _ _

/-- The bytes are a tunnel frame for another device than this one. -/
def LeadsAway (mine : Identifier) (data : Bytes) : Prop :=
  ∃ frame ∈ parseTunnelFrame data, frame.deviceId ≠ mine

instance (mine : Identifier) (data : Bytes) : Decidable (LeadsAway mine data) :=
  inferInstanceAs (Decidable (∃ frame ∈ parseTunnelFrame data, _))

/-- A tunnel frame that leads away is answered with a frame at most. -/
theorem outputsFor_forwardTunnelFrame {sender : Connection}
    (hsender : connections.getBySocket sender.socket = some sender)
    {data : Bytes} (haway : LeadsAway sender.deviceId data) :
    ∀ output ∈ Server.outputsFor (forwardTunnelFrame connections sender data)
      sender.socket, ∃ frame, output = .binary frame := by
  obtain ⟨frame, hparse, hother⟩ := haway
  unfold forwardTunnelFrame
  rw [Option.mem_def.mp hparse]
  dsimp only
  rw [if_neg hother]
  cases hrecipient : connections.getConnection sender.userId frame.deviceId with
  | none =>
      dsimp only
      split
      · exact nofun
      · intro output hmem
        rw [sendBinary, outputsFor_self] at hmem
        exact ⟨_, List.mem_singleton.mp hmem⟩
  | some recipient =>
      dsimp only
      have hne : recipient.socket ≠ sender.socket := by
        intro hsame
        have hheld := connections.agree.getBySocket_of hrecipient
        rw [hsame] at hheld
        obtain rfl := Option.some.inj (hheld.symm.trans hsender)
        exact hother (connections.agree.keys hrecipient).2.symm
      rw [sendBinary, outputsFor_other hne]
      exact nofun

/-! ## A socket that keeps its seat -/

/-- The socket is open. -/
def IsOpen (relay : Server) (socket : Socket) : Prop :=
  ∃ client ∈ relay.clients socket, client.readyState = .open

instance (relay : Server) (socket : Socket) :
    Decidable (IsOpen relay socket) :=
  inferInstanceAs (Decidable (∃ client ∈ relay.clients socket, _))

/-- The socket waits for no verification, and is registered as this connection
as long as it is open. -/
def Seated (relay : Server) (mine : Connection) : Prop :=
  ∃ client ∈ relay.clients mine.socket, client.verifying = [] ∧
    (relay.connections.getBySocket mine.socket = some mine ∨
      client.readyState ≠ .open)

theorem Seated.registered {relay : Server} {mine : Connection}
    (hseated : Seated relay mine) (hopen : IsOpen relay mine.socket) :
    relay.connections.getBySocket mine.socket = some mine := by
  obtain ⟨client, hclient, _, hheld⟩ := hseated
  obtain ⟨other, hother, hstate⟩ := hopen
  obtain rfl := Option.some.inj (hclient.symm.trans hother)
  exact hheld.resolve_right (not_not.mpr hstate)

/-- A turn of the seated socket itself. -/
theorem Turn.seated {client : Client} {event : Event} {reaction : Reaction}
    {mine : Connection}
    (hturn : Turn schema connections mine.socket (some client) event reaction)
    (hverifying : client.verifying = [])
    (hheld : connections.getBySocket mine.socket = some mine ∨
      client.readyState ≠ .open)
    (hevent : ∀ data accessToken deviceId, event = .message data false →
      parseClientMessage schema data ≠ .ok (.register accessToken deviceId)) :
    reaction.client.verifying = [] ∧
      (reaction.connections.getBySocket mine.socket = some mine ∨
        reaction.client.readyState ≠ .open) := by
  cases hturn with
  | answered => exact ⟨hverifying, hheld⟩
  | asked _ hparse => exact absurd hparse (hevent _ _ _ rfl)
  | refused _ _ _ hindex => rw [hverifying] at hindex; cases hindex
  | registered hindex => rw [hverifying] at hindex; cases hindex
  | timedOut => exact ⟨hverifying, hheld⟩
  | left => exact ⟨hverifying, .inr ReadyState.noConfusion⟩
  | closed => exact ⟨hverifying, .inr ReadyState.noConfusion⟩

/-- A step keeps the seat, unless the socket registers again. -/
theorem Seated.step {relay : Server} {mine : Connection} {action : Action}
    {reaction : Reaction} (hseated : Seated relay mine)
    (hturn : Turn schema relay.connections action.socket
      (relay.clients action.socket) action.event reaction)
    (hevent : action.socket = mine.socket → ∀ data accessToken deviceId,
      action.event = .message data false →
        parseClientMessage schema data ≠ .ok (.register accessToken deviceId)) :
    Seated (relay.after action.socket reaction) mine := by
  obtain ⟨client, hclient, hverifying, hheld⟩ := hseated
  have hput : ∀ (client : Client) (outputs : List Output),
      client.verifying = [] ∧
          (reaction.connections.getBySocket mine.socket = some mine ∨
            client.readyState ≠ .open) →
        (client.putAll outputs).verifying = [] ∧
          (reaction.connections.getBySocket mine.socket = some mine ∨
            (client.putAll outputs).readyState ≠ .open) := by
    rintro client outputs ⟨hnone, hkept⟩
    exact ⟨by rw [Client.putAll_verifying, hnone],
      hkept.imp_right (ne_open_putAll client outputs)⟩
  by_cases hself : mine.socket = action.socket
  · refine after_of_put hput (fun _ => ?_) (absurd hself ·)
    rw [← hself] at hturn
    exact (hturn.of_mem hclient).seated hverifying hheld (hevent hself.symm)
  · by_cases hkept : reaction.connections.getBySocket mine.socket = some mine ∨
        client.readyState ≠ .open
    · exact after_of_put hput (absurd · hself)
        fun _ => ⟨client, hclient, hverifying, hkept⟩
    · -- The connection was replaced, so the socket is told to close.
      obtain ⟨hgone, hopen⟩ := not_or.mp hkept
      have hbefore := hheld.resolve_right hopen
      obtain ⟨reason, hclose⟩ : ∃ reason,
          closeSocket mine.socket replacedCloseCode reason ∈
            reaction.effects :=
        ((hturn.still hbefore).resolve_left hgone).resolve_left
          fun hboth => hself hboth.1
      refine ⟨client.putAll (Server.outputsFor reaction.effects mine.socket), ?_,
        by rw [Client.putAll_verifying, hverifying], .inr ?_⟩
      · rw [after_clients_of_ne hself, hclient]
        rfl
      · exact client.putAll_close_ne_open (Server.mem_outputsFor.mpr hclose)

/-- A socket that is open was open before. -/
theorem Seated.isOpen_before {relay : Server} {mine : Connection}
    {action : Action} {reaction : Reaction} (hseated : Seated relay mine)
    (hturn : Turn schema relay.connections action.socket
      (relay.clients action.socket) action.event reaction)
    (hopen : IsOpen (relay.after action.socket reaction) mine.socket) :
    IsOpen relay mine.socket := by
  obtain ⟨client, hclient, _⟩ := hseated
  refine ⟨client, hclient, ?_⟩
  by_contra hstate
  obtain ⟨other, hother, hnot⟩ :
      ∃ client ∈ (relay.after action.socket reaction).clients mine.socket,
        client.readyState ≠ .open :=
    after_of_put ne_open_putAll
      (fun hself => (hself ▸ hturn).of_mem hclient |>.ne_open hstate)
      fun _ => ⟨client, hclient, hstate⟩
  obtain ⟨last, hlast, hlastOpen⟩ := hopen
  obtain rfl := Option.some.inj (hother.symm.trans hlast)
  exact hnot hlastOpen

/-- Nothing is added to what a socket that is not open was sent. -/
theorem Seated.outputOf_of_not_open {relay : Server} {mine : Connection}
    {action : Action} {reaction : Reaction} (hseated : Seated relay mine)
    (hturn : Turn schema relay.connections action.socket
      (relay.clients action.socket) action.event reaction)
    (hclosed : ¬ IsOpen relay mine.socket) :
    (relay.after action.socket reaction).outputOf mine.socket =
      relay.outputOf mine.socket := by
  obtain ⟨added, hadded, _⟩ := outputOf_after hturn mine.socket
  suffices hnone : added = [] by rw [hadded, hnone, List.append_nil]
  refine List.eq_nil_iff_forall_not_mem.mpr fun output hmem => ?_
  have hdelivered : output ∈ delivered relay
      (relay.after action.socket reaction) mine.socket := by
    rwa [delivered, hadded, List.drop_left]
  obtain ⟨_, client, hstate, ⟨hself, rfl⟩ | ⟨_, hclient⟩⟩ :=
    mem_delivered hturn hdelivered
  · obtain ⟨before, hbefore, _⟩ := hseated
    rw [← hself] at hturn
    refine hclosed ⟨before, hbefore, ?_⟩
    by_contra hnot
    exact (hturn.of_mem hbefore).ne_open hnot hstate
  · exact hclosed ⟨client, hclient, hstate⟩

end Cled.Relay
