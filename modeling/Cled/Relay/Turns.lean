import Cled.Relay.Routes

/-!
# What one event can do

Everything the handlers do falls into a few cases.  The invariants of the relay
are proved from these, without looking into the handlers again.
-/

namespace Cled.Relay

open Cled.Core Cled.Clipboard

variable {schema : ClientSchema}

/-- The connection a verified `register` call asks for. -/
def newConnection (socket : Socket) (userId deviceId : Identifier) :
    Connection := ⟨userId, deviceId, socket⟩

/-- The sockets that a frame of a socket can reach: the socket itself and, if it
is registered, those of its user's connected devices. -/
def InReach (connections : ConnectionRegistry) (socket target : Socket) : Prop :=
  target = socket ∨
    ∃ sender recipient : Connection,
      connections.getBySocket socket = some sender ∧
      connections.getConnection sender.userId recipient.deviceId =
        some recipient ∧
      recipient.socket = target

theorem forwardTunnelFrame_inReach {connections : ConnectionRegistry}
    {socket : Socket} {sender : Connection} {data : Bytes}
    (hsender : connections.getBySocket socket = some sender) {effect : Effect}
    (heffect : effect ∈ forwardTunnelFrame connections sender data) :
    InReach connections socket effect.socket := by
  have hself : InReach connections socket sender.socket :=
    .inl (ConnectionRegistry.socket_eq hsender)
  unfold forwardTunnelFrame at heffect
  split at heffect
  · obtain rfl := List.mem_singleton.mp heffect
    exact hself
  · split at heffect
    · obtain rfl := List.mem_singleton.mp heffect
      exact hself
    · split at heffect
      · split at heffect
        · cases heffect
        · obtain rfl := List.mem_singleton.mp heffect
          exact hself
      · next recipient hrecipient =>
        obtain rfl := List.mem_singleton.mp heffect
        have hkeys := connections.agree.keys hrecipient
        exact .inr ⟨sender, recipient, hsender, by rwa [hkeys.2], rfl⟩

theorem deliverMessage_inReach {connections : ConnectionRegistry}
    {socket : Socket} {sender : Connection} {body : String}
    (hsender : connections.getBySocket socket = some sender) {effect : Effect}
    (heffect : effect ∈ deliverMessage connections sender body) :
    InReach connections socket effect.socket := by
  have hself : InReach connections socket sender.socket :=
    .inl (ConnectionRegistry.socket_eq hsender)
  dsimp only [deliverMessage] at heffect
  split at heffect
  · obtain rfl := List.mem_singleton.mp heffect
    exact hself
  · rcases List.mem_append.mp heffect with hdelivery | hsent
    · obtain ⟨recipient, hrecipient, rfl⟩ := List.mem_map.mp hdelivery
      have hlisted := (List.mem_filter.mp hrecipient).1
      obtain ⟨device, hdevice⟩ := InsertionMap.mem_values_iff.mp hlisted
      have hkeys := connections.agree.keys hdevice
      refine .inr ⟨sender, recipient, hsender, ?_, rfl⟩
      rw [hkeys.2]
      exact hdevice
    · obtain rfl := List.mem_singleton.mp hsent
      exact hself

/-- The state a successful `register` leaves its socket in. -/
def Client.admitted (client : Client) (index : ℕ) : Client :=
  { client with
    verifying := client.verifying.eraseIdx index
    authenticating := false
    authTimer := false }

/-- The reactions to the events of a socket. -/
inductive Turn (schema : ClientSchema) (connections : ConnectionRegistry)
    (socket : Socket) : Option Client → Event → Reaction → Prop
  | opened :
      Turn schema connections socket none .connect
        (answer connections .opened [])
  /-- A message that is answered at once. -/
  | answered {client : Client} (data : Bytes) (isBinary : Bool)
      (effects : List Effect) (hstate : client.readyState ≠ .closed)
      (hreach : ∀ effect ∈ effects, InReach connections socket effect.socket) :
      Turn schema connections socket (some client) (.message data isBinary)
        (answer connections client effects)
  /-- A `register` message that starts a verification. -/
  | asked {client : Client} {data : Bytes} {accessToken : String}
      {deviceId : Identifier} (hstate : client.readyState ≠ .closed)
      (hparse : parseClientMessage schema data =
        .ok (.register accessToken deviceId))
      (hsender : connections.getBySocket socket = none)
      (hauthenticating : client.authenticating = false) :
      Turn schema connections socket (some client) (.message data false)
        (answer connections
          { client with
            authenticating := true
            verifying := client.verifying ++ [(accessToken, deviceId)] } [])
  /-- A verification that does not lead to a registration. -/
  | refused {client : Client} {index : ℕ} {accessToken : String}
      {deviceId : Identifier} (result : VerifyResult) (authTimer : Bool)
      (effects : List Effect)
      (hverifying : client.verifying[index]? = some (accessToken, deviceId))
      (hreason : result = .throws ∨ result = .rejected ∨
        client.readyState ≠ .open ∨ connections.getBySocket socket ≠ none)
      (howns : ∀ effect ∈ effects, effect.socket = socket) :
      Turn schema connections socket (some client) (.verified index result)
        (answer connections
          { client with
            verifying := client.verifying.eraseIdx index
            authenticating := false
            authTimer } effects)
  /-- A verification that leads to a registration. -/
  | registered {client : Client} {index : ℕ} {accessToken : String}
      {userId deviceId : Identifier} {connections' : ConnectionRegistry}
      {replaced : Option Connection}
      (hverifying : client.verifying[index]? = some (accessToken, deviceId))
      (hstate : client.readyState = .open)
      (hadd : connections.add (newConnection socket userId deviceId) =
        some (connections', replaced)) :
      Turn schema connections socket (some client) (.verified index (.ok userId))
        ⟨connections', client.admitted index,
          (replaced.toList.map fun replaced =>
            closeSocket replaced.socket replacedCloseCode
              "replaced by a newer connection") ++
            [send socket (.registered userId deviceId)],
          some (newConnection socket userId deviceId)⟩
  | timedOut {client : Client} (effects : List Effect)
      (heffects : effects =
        if (connections.getBySocket socket).isNone then
          [closeSocket socket authTimeoutCloseCode "registration timed out"]
        else []) :
      Turn schema connections socket (some client) .timeout
        (answer connections { client with authTimer := false } effects)
  | left {client : Client} (hstate : client.readyState = .open) :
      Turn schema connections socket (some client) .leave
        (answer connections { client with readyState := .closing } [])
  | closed {client : Client} (hstate : client.readyState ≠ .closed) :
      Turn schema connections socket (some client) .close
        (answer (connections.removeBySocket socket)
          { client with readyState := .closed, authTimer := false } [])

theorem inReach_self {connections : ConnectionRegistry} {socket : Socket}
    {output : Output} :
    ∀ effect ∈ [(⟨socket, output⟩ : Effect)],
      InReach connections socket effect.socket := by
  intro effect heffect
  obtain rfl := List.mem_singleton.mp heffect
  exact .inl rfl

theorem handleFrame_turn {connections : ConnectionRegistry} {socket : Socket}
    {client : Client} (data : Bytes) (isBinary : Bool)
    (hstate : client.readyState ≠ .closed) :
    Turn schema connections socket (some client) (.message data isBinary)
      (handleFrame schema connections socket client data isBinary) := by
  unfold handleFrame
  cases isBinary with
  | true =>
      cases hsender : connections.getBySocket socket with
      | none => exact .answered data true _ hstate inReach_self
      | some sender =>
          exact .answered data true _ hstate fun _ =>
            forwardTunnelFrame_inReach hsender
  | false =>
      cases hparse : parseClientMessage schema data with
      | error error => exact .answered data false _ hstate inReach_self
      | ok message =>
          cases hsender : connections.getBySocket socket with
          | none =>
              cases message with
              | register accessToken deviceId =>
                  cases hauthenticating : client.authenticating with
                  | true => exact .answered data false _ hstate inReach_self
                  | false => exact .asked hstate hparse hsender hauthenticating
              | message | devices =>
                  exact .answered data false _ hstate inReach_self
          | some sender =>
              have hself := ConnectionRegistry.socket_eq hsender
              cases message with
              | register accessToken deviceId =>
                  exact .answered data false _ hstate inReach_self
              | message body =>
                  exact .answered data false _ hstate fun _ =>
                    deliverMessage_inReach hsender
              | devices =>
                  exact .answered data false _ hstate (hself ▸ inReach_self)

/-- A message does not change the registry. -/
theorem Turn.message_connections {connections : ConnectionRegistry}
    {socket : Socket} {client : Option Client} {data : Bytes} {isBinary : Bool}
    {reaction : Reaction}
    (hturn : Turn schema connections socket client (.message data isBinary)
      reaction) : reaction.connections = connections := by
  cases hturn <;> rfl

/-- Whoever is registered registered for the socket that acts. -/
theorem Turn.registered_socket {connections : ConnectionRegistry}
    {socket : Socket} {client : Option Client} {event : Event}
    {reaction : Reaction}
    (hturn : Turn schema connections socket client event reaction)
    {connection : Connection} (hnew : connection ∈ reaction.registered) :
    connection.socket = socket := by
  cases hturn with
  | registered =>
      obtain rfl := Option.some.inj hnew
      rfl
  | opened | answered | asked | refused | timedOut | left | closed => cases hnew

theorem finishRegister_turn {connections : ConnectionRegistry} {socket : Socket}
    {client : Client} {index : ℕ} {accessToken : String} {deviceId : Identifier}
    (hverifying : client.verifying[index]? = some (accessToken, deviceId))
    (result : VerifyResult) :
    Turn schema connections socket (some client) (.verified index result)
      (finishRegister connections socket
        { client with verifying := client.verifying.eraseIdx index } deviceId
        result) := by
  cases result with
  | throws =>
      refine .refused .throws client.authTimer _ hverifying (.inl rfl) ?_
      simp [sendError, send]
  | rejected =>
      refine .refused .rejected client.authTimer _ hverifying (.inr (.inl rfl)) ?_
      simp [sendError, send, closeSocket]
  | ok userId =>
      by_cases hstate : client.readyState = .open
      · have hopen : ¬ client.readyState ≠ .open := not_not.mpr hstate
        dsimp only [finishRegister]
        rw [if_neg hopen]
        cases hadd : connections.add (newConnection socket userId deviceId) with
        | none =>
            have hheld : connections.getBySocket socket ≠ none :=
              ConnectionRegistry.add_eq_none_iff.mp hadd
            dsimp only [newConnection] at hadd
            rw [hadd]
            refine .refused (.ok userId) false _ hverifying
              (.inr (.inr (.inr hheld))) ?_
            simp [sendError, send]
        | some added =>
            have hturn : Turn schema connections socket (some client) _ _ :=
              .registered hverifying hstate hadd
            dsimp only [newConnection] at hadd
            rw [hadd]
            exact hturn
      · dsimp only [finishRegister]
        rw [if_pos hstate]
        refine .refused (.ok userId) client.authTimer [] hverifying
          (.inr (.inr (.inl hstate))) ?_
        simp

/-- An event that can happen takes one of these turns. -/
theorem react_turn {connections : ConnectionRegistry} {client : Option Client}
    {action : Action} {reaction : Reaction}
    (hreact : react schema connections client action = some reaction) :
    Turn schema connections action.socket client action.event reaction := by
  obtain ⟨socket, event⟩ := action
  cases client with
  | none =>
      cases event with
      | connect =>
          obtain rfl := Option.some.inj hreact
          exact .opened
      | message | verified | timeout | leave | close => cases hreact
  | some client =>
      cases event with
      | connect => cases hreact
      | message data isBinary =>
          dsimp only [react] at hreact
          split at hreact
          · cases hreact
          next hstate =>
          obtain rfl := Option.some.inj hreact
          exact handleFrame_turn data isBinary hstate
      | verified index result =>
          obtain ⟨⟨accessToken, deviceId⟩, hverifying, rfl⟩ :=
            Option.map_eq_some_iff.mp hreact
          exact finishRegister_turn hverifying result
      | timeout =>
          dsimp only [react] at hreact
          split at hreact
          · obtain rfl := Option.some.inj hreact
            exact .timedOut _ rfl
          · cases hreact
      | leave =>
          dsimp only [react] at hreact
          split at hreact
          · next hstate =>
            obtain rfl := Option.some.inj hreact
            exact .left hstate
          · cases hreact
      | close =>
          dsimp only [react] at hreact
          split at hreact
          · cases hreact
          next hstate =>
          obtain rfl := Option.some.inj hreact
          exact .closed hstate

end Cled.Relay
