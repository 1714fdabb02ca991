import Cled.Relay.Sound

/-!
# Only live, verified sockets act

Whatever the relay forwards or delivers comes from a frame of a socket that was
registered when the frame was handled, and a socket that is out of the registry
stays out.
-/

namespace Cled.Relay

open Cled.Core Cled.Clipboard

variable {schema : ClientSchema}

/-! ## What is sent comes from a registered socket -/

/-- Forwarded frames, device lists and test messages come from a frame of a
registered socket, in its name and with its data. -/
def Caused (schema : ClientSchema) (connections : ConnectionRegistry)
    (action : Action) (target : Socket) : Output → Prop
  | .binary frame =>
      ∃ data sender parsed, action.event = .message data true ∧
        connections.getBySocket action.socket = some sender ∧
        parseTunnelFrame data = some parsed ∧
        ((∃ recipient ≠ sender,
            connections.getConnection sender.userId parsed.deviceId =
              some recipient ∧
            target = recipient.socket ∧
            frame =
              encodeTunnelFrame { parsed with deviceId := sender.deviceId }) ∨
          target = action.socket ∧
            frame = encodeTunnelFrame (undeliverable parsed))
  | .text (.message fromUser fromDevice body) =>
      ∃ data sender recipient, action.event = .message data false ∧
        connections.getBySocket action.socket = some sender ∧
        parseClientMessage schema data = .ok (.message body) ∧
        fromUser = sender.userId ∧ fromDevice = sender.deviceId ∧
        recipient ∈ otherConnections connections sender ∧
        target = recipient.socket
  | .text (.devices deviceIds) =>
      ∃ data sender, action.event = .message data false ∧
        connections.getBySocket action.socket = some sender ∧
        parseClientMessage schema data = .ok .devices ∧
        target = action.socket ∧
        deviceIds =
          (otherConnections connections sender).map Connection.deviceId
  | _ => True

theorem forwardTunnelFrame_caused {connections : ConnectionRegistry}
    {socket : Socket} {sender : Connection} {data : Bytes}
    (hsender : connections.getBySocket socket = some sender) {effect : Effect}
    (heffect : effect ∈ forwardTunnelFrame connections sender data) :
    Caused schema connections ⟨socket, .message data true⟩ effect.socket
      effect.output := by
  have hself := ConnectionRegistry.socket_eq hsender
  unfold forwardTunnelFrame at heffect
  cases hparse : parseTunnelFrame data with
  | none =>
      rw [hparse] at heffect
      obtain rfl := List.mem_singleton.mp heffect
      trivial
  | some parsed =>
      rw [hparse] at heffect
      dsimp only at heffect
      split at heffect
      · obtain rfl := List.mem_singleton.mp heffect
        trivial
      next hother =>
      split at heffect
      · split at heffect
        · cases heffect
        · obtain rfl := List.mem_singleton.mp heffect
          exact ⟨data, sender, parsed, rfl, hsender, hparse, .inr ⟨hself, rfl⟩⟩
      · next recipient hrecipient =>
        obtain rfl := List.mem_singleton.mp heffect
        have hne : recipient ≠ sender := by
          rintro rfl
          exact hother (connections.agree.keys hrecipient).2.symm
        exact ⟨data, sender, parsed, rfl, hsender, hparse,
          .inl ⟨recipient, hne, hrecipient, rfl, rfl⟩⟩

theorem parseClientMessage_error {data : Bytes} {error : ServerMessage}
    (hparse : parseClientMessage schema data = .error error) :
    ∃ code text, error = .error code text := by
  unfold parseClientMessage at hparse
  split at hparse
  · exact ⟨_, _, (Except.error.inj hparse).symm⟩
  · split at hparse
    · exact ⟨_, _, (Except.error.inj hparse).symm⟩
    · cases hparse

theorem deliverMessage_caused {connections : ConnectionRegistry}
    {socket : Socket} {sender : Connection} {data : Bytes} {body : String}
    (hsender : connections.getBySocket socket = some sender)
    (hparse : parseClientMessage schema data = .ok (.message body))
    {effect : Effect}
    (heffect : effect ∈ deliverMessage connections sender body) :
    Caused schema connections ⟨socket, .message data false⟩ effect.socket
      effect.output := by
  dsimp only [deliverMessage] at heffect
  split at heffect
  · obtain rfl := List.mem_singleton.mp heffect
    trivial
  · rcases List.mem_append.mp heffect with hdelivery | hsent
    · obtain ⟨recipient, hrecipient, rfl⟩ := List.mem_map.mp hdelivery
      exact ⟨data, sender, recipient, rfl, hsender, hparse, rfl, rfl,
        hrecipient, rfl⟩
    · obtain rfl := List.mem_singleton.mp hsent
      trivial

theorem handleFrame_caused {connections : ConnectionRegistry} {socket : Socket}
    {client : Client} {data : Bytes} {isBinary : Bool} {effect : Effect}
    (heffect : effect ∈ (handleFrame schema connections socket client data
      isBinary).effects) :
    Caused schema connections ⟨socket, .message data isBinary⟩ effect.socket
      effect.output := by
  unfold handleFrame at heffect
  cases isBinary with
  | true =>
      cases hsender : connections.getBySocket socket with
      | none =>
          rw [hsender] at heffect
          obtain rfl := List.mem_singleton.mp heffect
          trivial
      | some sender =>
          rw [hsender] at heffect
          exact forwardTunnelFrame_caused hsender heffect
  | false =>
      cases hparse : parseClientMessage schema data with
      | error error =>
          rw [hparse] at heffect
          obtain rfl := List.mem_singleton.mp heffect
          obtain ⟨code, text, rfl⟩ := parseClientMessage_error hparse
          trivial
      | ok message =>
          rw [hparse] at heffect
          cases hsender : connections.getBySocket socket with
          | none =>
              rw [hsender] at heffect
              cases message with
              | register accessToken deviceId =>
                  cases hauthenticating : client.authenticating with
                  | true =>
                      simp only [hauthenticating] at heffect
                      obtain rfl := List.mem_singleton.mp heffect
                      trivial
                  | false =>
                      simp [hauthenticating, answer] at heffect
              | message | devices =>
                  obtain rfl := List.mem_singleton.mp heffect
                  trivial
          | some sender =>
              rw [hsender] at heffect
              have hself := ConnectionRegistry.socket_eq hsender
              cases message with
              | register accessToken deviceId =>
                  obtain rfl := List.mem_singleton.mp heffect
                  trivial
              | devices =>
                  obtain rfl := List.mem_singleton.mp heffect
                  exact ⟨data, sender, rfl, hsender, hparse, hself, rfl⟩
              | message body =>
                  exact deliverMessage_caused hsender hparse heffect

theorem finishRegister_caused {connections : ConnectionRegistry}
    {socket : Socket} {client : Client} {deviceId : Identifier}
    {result : VerifyResult} {action : Action} {effect : Effect}
    (heffect : effect ∈ (finishRegister connections socket client deviceId
      result).effects) :
    Caused schema connections action effect.socket effect.output := by
  cases result with
  | throws =>
      obtain rfl := List.mem_singleton.mp heffect
      trivial
  | rejected =>
      rcases List.mem_cons.mp heffect with rfl | hlast
      · trivial
      · obtain rfl := List.mem_singleton.mp hlast
        trivial
  | ok userId =>
      dsimp only [finishRegister] at heffect
      split at heffect
      · cases heffect
      · split at heffect
        · obtain rfl := List.mem_singleton.mp heffect
          trivial
        · rcases List.mem_append.mp heffect with hclose | hlast
          · obtain ⟨replaced, -, rfl⟩ := List.mem_map.mp hclose
            trivial
          · obtain rfl := List.mem_singleton.mp hlast
            trivial

theorem react_caused {connections : ConnectionRegistry} {client : Option Client}
    {action : Action} {reaction : Reaction}
    (hreact : react schema connections client action = some reaction)
    {effect : Effect} (heffect : effect ∈ reaction.effects) :
    Caused schema connections action effect.socket effect.output := by
  obtain ⟨socket, event⟩ := action
  cases client with
  | none =>
      cases event with
      | connect =>
          obtain rfl := Option.some.inj hreact
          cases heffect
      | message | verified | timeout | leave | close => cases hreact
  | some client =>
      cases event with
      | connect => cases hreact
      | message data isBinary =>
          dsimp only [react] at hreact
          split at hreact
          · cases hreact
          obtain rfl := Option.some.inj hreact
          exact handleFrame_caused heffect
      | verified index result =>
          obtain ⟨⟨accessToken, deviceId⟩, -, rfl⟩ :=
            Option.map_eq_some_iff.mp hreact
          exact finishRegister_caused heffect
      | timeout =>
          dsimp only [react] at hreact
          split at hreact
          · obtain rfl := Option.some.inj hreact
            dsimp only [answer] at heffect
            split at heffect
            · obtain rfl := List.mem_singleton.mp heffect
              trivial
            · cases heffect
          · cases hreact
      | leave | close =>
          dsimp only [react] at hreact
          split at hreact
          all_goals first
            | cases hreact; done
            | obtain rfl := Option.some.inj hreact
              cases heffect

/-- Whatever a step sends is caused by its action. -/
theorem delivered_caused {relay next : Server} {action : Action}
    (hstep : (Server.machine schema).step relay action = some next)
    {target : Socket} {output : Output}
    (houtput : output ∈ delivered relay next target) :
    Caused schema relay.connections action target output := by
  obtain ⟨reaction, hreaction, hturn, rfl⟩ := step_eq_some hstep
  obtain ⟨added, hadded, hsubset⟩ := outputOf_after hturn target
  rw [delivered, hadded, List.drop_left] at houtput
  exact react_caused hreaction (Server.mem_outputsFor.mp (hsubset houtput))

/-! ## A socket that is out stays out -/

/-- The socket is neither registered nor open. -/
def Out (relay : Server) (socket : Socket) : Prop :=
  relay.connections.getBySocket socket = none ∧
    ∃ client ∈ relay.clients socket, client.readyState ≠ .open

/-- The socket is replaced or closed, or its registration times out. -/
def Leaves (relay next : Server) (action : Action) (socket : Socket) : Prop :=
  (relay.connections.getBySocket socket ≠ none ∧
      next.connections.getBySocket socket = none) ∨
    (action = ⟨socket, .timeout⟩ ∧
      relay.connections.getBySocket socket = none) ∨
    action = ⟨socket, .close⟩

theorem Out.step {relay next : Server} {action : Action} {socket : Socket}
    (hout : Out relay socket)
    (hstep : (Server.machine schema).step relay action = some next) :
    Out next socket := by
  obtain ⟨reaction, -, hturn, rfl⟩ := step_eq_some hstep
  obtain ⟨hnone, client, hclient, hstate⟩ := hout
  constructor
  · rw [Option.eq_none_iff_forall_ne_some]
    intro connection hheld
    rcases hturn.getBySocket hheld with ⟨hbefore, -⟩ | ⟨rfl, hnew⟩
    · rw [hnone] at hbefore
      cases hbefore
    · have hself := hturn.of_mem hclient
      generalize action.event = event at hself
      cases hself with
      | registered _ hopen => exact hstate hopen
      | answered | asked | refused | timedOut | left | closed => cases hnew
  · refine after_of_put ne_open_putAll ?_ (fun _ => ⟨client, hclient, hstate⟩)
    rintro rfl
    exact (hturn.of_mem hclient).ne_open hstate

theorem Leaves.out {past : List Action} {relay next : Server} {action : Action}
    {socket : Socket} (hleaves : Leaves relay next action socket)
    (hsound : Sound schema past relay)
    (hstep : (Server.machine schema).step relay action = some next) :
    Out next socket := by
  have hnext := hsound.step hstep
  obtain ⟨reaction, -, hturn, rfl⟩ := step_eq_some hstep
  rcases hleaves with ⟨hheld, hnone⟩ | ⟨rfl, hnone⟩ | rfl
  · obtain ⟨connection, hconnection⟩ := Option.ne_none_iff_exists'.mp hheld
    have hsocket := ConnectionRegistry.socket_eq hconnection
    have hmem : connection ∈
        (relay.after action.socket reaction).registrations :=
      List.mem_append_left _ (hsound.settled hconnection).1
    have hgone := hnext.gone connection hmem
    rw [hsocket, hnone] at hgone
    exact ⟨hnone, hgone.resolve_left (fun h => by cases h)⟩
  · generalize relay.clients socket = client at hturn
    cases hturn with
    | timedOut effects heffects =>
        rw [hnone] at heffects
        subst heffects
        refine ⟨hnone, _, after_clients_self relay socket _, ?_⟩
        have hclose : closeSocket socket authTimeoutCloseCode
            "registration timed out" ∈
            [closeSocket socket authTimeoutCloseCode
              "registration timed out"] := List.mem_singleton_self _
        exact Client.putAll_close_ne_open _ (Server.mem_outputsFor.mpr hclose)
  · generalize relay.clients socket = client at hturn
    cases hturn with
    | closed =>
        refine ⟨(ConnectionRegistry.getBySocket_removeBySocket _ _ _).trans
          (if_pos rfl), after_of_put ne_open_putAll (fun _ => ?_)
            (absurd rfl ·)⟩
        exact ReadyState.noConfusion

/-! ## Only live, verified sockets act -/

/-- In every run: a registered socket had its token verified as its user and
has not closed; no socket registers twice; what a step forwards, lists or
delivers is caused by a frame of a registered socket; and a socket that is
replaced or closed, or whose registration times out, is never registered
again. -/
theorem only_live_verified_sockets_act {actions : List Action} {relay : Server}
    (hrun : (Server.machine schema).run Server.initial actions = some relay) :
    (∀ socket connection,
      relay.connections.getBySocket socket = some connection →
        connection.socket = socket ∧ VerifiedAs schema actions connection ∧
          ⟨socket, .close⟩ ∉ actions) ∧
    (relay.registrations.map Connection.socket).Nodup ∧
    ∀ action next, (Server.machine schema).step relay action = some next →
      (∀ target, ∀ output ∈ delivered relay next target,
        Caused schema relay.connections action target output) ∧
      ∀ socket, Leaves relay next action socket →
        ∀ later final, (Server.machine schema).run next later = some final →
          final.connections.getBySocket socket = none := by
  have hsound := sound_of_run hrun
  refine ⟨fun socket connection hheld => ?_, hsound.once,
    fun action next hstep => ⟨fun target output => delivered_caused hstep, ?_⟩⟩
  · obtain ⟨hmem, client, hclient, hopen, -⟩ := hsound.settled hheld
    refine ⟨ConnectionRegistry.socket_eq hheld, hsound.verified _ hmem, ?_⟩
    intro hclose
    obtain ⟨other, hother, hclosed⟩ := hsound.closed hclose
    obtain rfl := Option.some.inj (hclient.symm.trans hother)
    exact hopen hclosed
  · intro socket hleaves later final hlater
    have hout := hleaves.out hsound hstep
    have hkeeps : ∀ state action next, Out state socket →
        (Server.machine schema).step state action = some next →
          Out next socket := fun _ _ _ hstate hnext => hstate.step hnext
    exact (Machine.run_of_step_invariant hkeeps hout hlater).1

/-- A device registers, and registers again on another socket. -/
def twoRegistrations : List Action :=
  [⟨1, .connect⟩, ⟨1, .message [0] false⟩, ⟨1, .verified 0 (.ok exampleUser)⟩,
    ⟨2, .connect⟩, ⟨2, .message [0] false⟩, ⟨2, .verified 0 (.ok exampleUser)⟩]

theorem only_live_verified_sockets_act_replaced :
    ∃ relay, (Server.machine (wordSchema exampleDevice)).run Server.initial
        twoRegistrations = some relay ∧
      relay.registrations.map Connection.socket = [1, 2] ∧
      (relay.registrations.map Connection.socket).Nodup ∧
      ∃ connection, relay.connections.getBySocket 2 = some connection ∧
        VerifiedAs (wordSchema exampleDevice) twoRegistrations connection := by
  have hruns : ((Server.machine (wordSchema exampleDevice)).run Server.initial
      twoRegistrations).isSome := by decide
  obtain ⟨relay, hrun⟩ := Option.isSome_iff_exists.mp hruns
  have hregistrations : (((Server.machine (wordSchema exampleDevice)).run
      Server.initial twoRegistrations).map fun relay =>
        relay.registrations.map Connection.socket) = some [1, 2] := by decide
  have hheld : (((Server.machine (wordSchema exampleDevice)).run
      Server.initial twoRegistrations).bind fun relay =>
        relay.connections.getBySocket 2) =
        some ⟨exampleUser, exampleDevice, 2⟩ := by decide
  rw [hrun] at hregistrations hheld
  have hlive := only_live_verified_sockets_act hrun
  exact ⟨relay, hrun, Option.some.inj hregistrations, hlive.2.1, _, hheld,
    (hlive.1 2 _ hheld).2.1⟩

end Cled.Relay
