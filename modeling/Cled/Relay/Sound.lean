import Cled.Relay.Turns

/-!
# What the events so far say about the relay

A socket enters the registry at most once, after a token it sent was verified,
and it leaves for good.  The guards against a second registration are one flag,
the registry itself and the state of the socket; the invariant says why they are
enough in whatever order the handlers run.
-/

namespace Cled.Relay

open Cled.Core Cled.Clipboard

variable {schema : ClientSchema}

/-! ## Steps -/

theorem step_eq_some {relay next : Server} {action : Action}
    (hstep : (Server.machine schema).step relay action = some next) :
    ∃ reaction, relay.reaction schema action = some reaction ∧
      Turn schema relay.connections action.socket
        (relay.clients action.socket) action.event reaction ∧
      next = relay.after action.socket reaction := by
  obtain ⟨reaction, hreaction, hnext⟩ := Option.map_eq_some_iff.mp hstep
  exact ⟨reaction, hreaction, react_turn hreaction, hnext.symm⟩

/-- A socket other than the acting one. -/
theorem after_clients_of_ne {relay : Server} {socket other : Socket}
    {reaction : Reaction} (hne : other ≠ socket) :
    (relay.after socket reaction).clients other =
      (relay.clients other).map fun client =>
        client.putAll (Server.outputsFor reaction.effects other) := by
  rw [Server.after_clients, if_neg hne]

/-- The acting socket. -/
theorem after_clients_self (relay : Server) (socket : Socket)
    (reaction : Reaction) :
    (relay.after socket reaction).clients socket =
      some (reaction.client.putAll
        (Server.outputsFor reaction.effects socket)) := by
  rw [Server.after_clients, if_pos rfl]
  rfl

/-- A property of a socket that sending keeps holds after a step if it holds of
what the handler leaves. -/
theorem after_of_put {relay : Server} {socket other : Socket}
    {reaction : Reaction} {P : Client → Prop}
    (hput : ∀ client outputs, P client → P (client.putAll outputs))
    (hself : other = socket → P reaction.client)
    (hother : other ≠ socket → ∃ client ∈ relay.clients other, P client) :
    ∃ client ∈ (relay.after socket reaction).clients other, P client := by
  by_cases heq : other = socket
  · subst heq
    exact ⟨_, after_clients_self relay other reaction, hput _ _ (hself rfl)⟩
  · obtain ⟨client, hclient, hP⟩ := hother heq
    refine ⟨client.putAll (Server.outputsFor reaction.effects other), ?_,
      hput _ _ hP⟩
    rw [after_clients_of_ne heq, hclient]
    rfl

theorem mem_after_clients {relay : Server} {socket other : Socket}
    {reaction : Reaction} {client : Client}
    (hclient : client ∈ (relay.after socket reaction).clients other) :
    ∃ before outputs, client = before.putAll outputs ∧
      (other = socket ∧ before = reaction.client ∨
        other ≠ socket ∧ before ∈ relay.clients other) := by
  by_cases heq : other = socket
  · subst heq
    rw [after_clients_self, Option.mem_some_iff] at hclient
    exact ⟨_, _, hclient.symm, .inl ⟨rfl, rfl⟩⟩
  · rw [after_clients_of_ne heq] at hclient
    obtain ⟨before, hbefore, rfl⟩ := Option.map_eq_some_iff.mp hclient
    exact ⟨_, _, rfl, .inr ⟨heq, hbefore⟩⟩

/-- What a step sends to a socket. -/
def delivered (relay next : Server) (socket : Socket) : List Output :=
  (next.outputOf socket).drop (relay.outputOf socket).length

/-- A handler does not change what its socket has been sent. -/
theorem Turn.output {relay : Server} {action : Action} {reaction : Reaction}
    (hturn : Turn schema relay.connections action.socket
      (relay.clients action.socket) action.event reaction) :
    reaction.client.output = relay.outputOf action.socket := by
  rw [Server.outputOf]
  generalize relay.clients action.socket = client at hturn
  generalize action.event = event at hturn
  cases hturn <;> rfl

/-- A step adds to what a socket has been sent, by some of its effects. -/
theorem outputOf_after {relay : Server} {action : Action} {reaction : Reaction}
    (hturn : Turn schema relay.connections action.socket
      (relay.clients action.socket) action.event reaction) (target : Socket) :
    ∃ added, (relay.after action.socket reaction).outputOf target =
        relay.outputOf target ++ added ∧
      added ⊆ Server.outputsFor reaction.effects target := by
  by_cases hself : target = action.socket
  · subst hself
    have hafter : (relay.after action.socket reaction).outputOf action.socket =
        (reaction.client.putAll
          (Server.outputsFor reaction.effects action.socket)).output := by
      rw [Server.outputOf, after_clients_self]
      rfl
    rw [hafter, ← hturn.output]
    exact Client.putAll_output _ _
  · have hafter : (relay.after action.socket reaction).outputOf target =
        ((relay.clients target).map fun client => client.putAll
          (Server.outputsFor reaction.effects target)).elim []
            Client.output := by
      rw [Server.outputOf, after_clients_of_ne hself]
    rw [hafter, Server.outputOf]
    cases relay.clients target with
    | none => exact ⟨[], rfl, List.nil_subset _⟩
    | some client => exact client.putAll_output _

/-- Only an open socket is sent what a step sends it. -/
theorem mem_delivered {relay : Server} {action : Action} {reaction : Reaction}
    (hturn : Turn schema relay.connections action.socket
      (relay.clients action.socket) action.event reaction) {target : Socket}
    {output : Output}
    (houtput : output ∈
      delivered relay (relay.after action.socket reaction) target) :
    output ∈ Server.outputsFor reaction.effects target ∧
      ∃ client, client.readyState = .open ∧
        (target = action.socket ∧ client = reaction.client ∨
          target ≠ action.socket ∧ client ∈ relay.clients target) := by
  obtain ⟨added, hadded, hsubset⟩ := outputOf_after hturn target
  have hmem : output ∈ added := by
    rwa [delivered, hadded, List.drop_left] at houtput
  refine ⟨hsubset hmem, ?_⟩
  have hgrows : (relay.after action.socket reaction).outputOf target ≠
      relay.outputOf target := by
    rw [hadded]
    exact fun h => List.ne_nil_of_mem hmem (List.append_right_eq_self.mp h)
  by_cases hself : target = action.socket
  · refine ⟨reaction.client, ?_, .inl ⟨hself, rfl⟩⟩
    by_contra hstate
    apply hgrows
    rw [hself, Server.outputOf, after_clients_self,
      Client.putAll_of_ne_open hstate, ← hturn.output]
    rfl
  · cases hclient : relay.clients target with
    | none =>
        rw [Server.outputOf, Server.outputOf, after_clients_of_ne hself,
          hclient] at hgrows
        exact absurd rfl hgrows
    | some client =>
        refine ⟨client, ?_, .inr ⟨hself, rfl⟩⟩
        by_contra hstate
        apply hgrows
        rw [Server.outputOf, Server.outputOf, after_clients_of_ne hself,
          hclient, Option.map_some, Client.putAll_of_ne_open hstate]

/-- An open socket other than the acting one is sent the first thing that is
meant for it. -/
theorem head_delivered {relay : Server} {socket target : Socket}
    {reaction : Reaction} {output : Output} {rest : List Output}
    (hne : target ≠ socket) {client : Client}
    (hclient : client ∈ relay.clients target)
    (hstate : client.readyState = .open)
    (hmeant : Server.outputsFor reaction.effects target = output :: rest) :
    output ∈ delivered relay (relay.after socket reaction) target := by
  have hput : (client.put output).output = client.output ++ [output] := by
    rw [Client.put, if_pos hstate]
  have hbefore : relay.outputOf target = client.output := by
    rw [Server.outputOf, hclient]
    rfl
  obtain ⟨added, hadded, -⟩ := (client.put output).putAll_output rest
  have hafter : (relay.after socket reaction).outputOf target =
      client.output ++ ([output] ++ added) := by
    rw [Server.outputOf, after_clients_of_ne hne, hclient, hmeant,
      ← List.append_assoc, ← hput, ← hadded]
    rfl
  rw [delivered, hafter, hbefore, List.drop_left]
  exact List.mem_append_left _ (List.mem_singleton_self _)

/-! ## The invariant -/

/-- The socket sent a `register` message that is still being verified. -/
def AskedFor (schema : ClientSchema) (past : List Action) (socket : Socket)
    (accessToken : String) (deviceId : Identifier) : Prop :=
  ∃ before between data,
    past = before ++ ⟨socket, .message data false⟩ :: between ∧
    parseClientMessage schema data = .ok (.register accessToken deviceId) ∧
    ∀ index result, ⟨socket, .verified index result⟩ ∉ between

/-- The socket sent a `register` message for the connection's device, and the
verification it started found the token to be the connection's user's. -/
def VerifiedAs (schema : ClientSchema) (past : List Action)
    (connection : Connection) : Prop :=
  ∃ before after accessToken index,
    past = before ++ ⟨connection.socket, .verified index
      (.ok connection.userId)⟩ :: after ∧
    AskedFor schema before connection.socket accessToken connection.deviceId

/-- A registered socket: its `close` event has not fired, and it waits for no
verification. -/
def Client.Settled (client : Client) : Prop :=
  client.readyState ≠ .closed ∧ client.verifying = []

theorem Client.Settled.putAll {client : Client} (outputs : List Output)
    (hsettled : client.Settled) : (client.putAll outputs).Settled :=
  ⟨putAll_readyState_ne_closed hsettled.1 outputs, by
    rw [putAll_verifying, hsettled.2]⟩

/-- What the events so far say about the state they lead to. -/
structure Sound (schema : ClientSchema) (past : List Action) (relay : Server) :
    Prop where
  settled : ∀ {socket connection},
    relay.connections.getBySocket socket = some connection →
      connection ∈ relay.registrations ∧
        ∃ client ∈ relay.clients socket, client.Settled
  single : ∀ {socket}, ∀ client ∈ relay.clients socket,
    client.verifying.length ≤ 1 ∧
      (client.authenticating = false → client.verifying = [])
  asked : ∀ {socket}, ∀ client ∈ relay.clients socket,
    ∀ call ∈ client.verifying, AskedFor schema past socket call.1 call.2
  gone : ∀ connection ∈ relay.registrations,
    relay.connections.getBySocket connection.socket = some connection ∨
      ∃ client ∈ relay.clients connection.socket, client.readyState ≠ .open
  verified : ∀ connection ∈ relay.registrations,
    VerifiedAs schema past connection
  once : (relay.registrations.map Connection.socket).Nodup
  closed : ∀ {socket}, (⟨socket, .close⟩ : Action) ∈ past →
    ∃ client ∈ relay.clients socket, client.readyState = .closed

theorem sound_initial : Sound schema [] Server.initial where
  settled h := by cases h
  single _ h := by cases h
  asked _ h := by cases h
  gone _ h := by cases h
  verified _ h := by cases h
  once := List.nodup_nil
  closed h := by cases h

theorem AskedFor.concat {past : List Action} {socket : Socket}
    {accessToken : String} {deviceId : Identifier}
    (hasked : AskedFor schema past socket accessToken deviceId)
    {action : Action}
    (hquiet : ∀ index result, action ≠ ⟨socket, .verified index result⟩) :
    AskedFor schema (past ++ [action]) socket accessToken deviceId := by
  obtain ⟨before, between, data, rfl, hparse, hbetween⟩ := hasked
  refine ⟨before, between ++ [action], data, ?_, hparse, ?_⟩
  · rw [List.append_assoc, List.cons_append]
  · intro index result hmem
    rcases List.mem_append.mp hmem with hmem | hmem
    · exact hbetween index result hmem
    · exact hquiet index result (List.mem_singleton.mp hmem).symm

theorem VerifiedAs.concat {past : List Action} {connection : Connection}
    (hverified : VerifiedAs schema past connection) (action : Action) :
    VerifiedAs schema (past ++ [action]) connection := by
  obtain ⟨before, after, accessToken, index, rfl, hasked⟩ := hverified
  refine ⟨before, after ++ [action], accessToken, index, ?_, hasked⟩
  rw [List.append_assoc, List.cons_append]

/-! ## Every step keeps the invariant -/

section Step

variable {past : List Action} {relay : Server} {action : Action}
  {reaction : Reaction}

/-- Who is registered after a step: who was, or the socket just registered. -/
theorem Turn.getBySocket {connections : ConnectionRegistry} {socket : Socket}
    {client : Option Client} {event : Event}
    (hturn : Turn schema connections socket client event reaction)
    {other : Socket} {connection : Connection}
    (hheld : reaction.connections.getBySocket other = some connection) :
    connections.getBySocket other = some connection ∧
        (other = socket → event ≠ .close) ∨
      other = socket ∧ reaction.registered = some connection := by
  cases hturn with
  | opened => exact .inl ⟨hheld, fun _ => Event.noConfusion⟩
  | answered data isBinary effects => exact .inl ⟨hheld, fun _ => Event.noConfusion⟩
  | asked => exact .inl ⟨hheld, fun _ => Event.noConfusion⟩
  | refused => exact .inl ⟨hheld, fun _ => Event.noConfusion⟩
  | @registered _ _ _ userId deviceId _ _ _ _ hadd =>
      dsimp only at hheld
      rw [ConnectionRegistry.getBySocket_of_add hadd] at hheld
      split at hheld
      · next heq => exact .inr ⟨heq, hheld⟩
      · split at hheld
        · cases hheld
        · exact .inl ⟨hheld, fun _ => Event.noConfusion⟩
  | timedOut => exact .inl ⟨hheld, fun _ => Event.noConfusion⟩
  | left => exact .inl ⟨hheld, fun _ => Event.noConfusion⟩
  | closed =>
      dsimp only [answer] at hheld
      rw [ConnectionRegistry.getBySocket_removeBySocket] at hheld
      split at hheld
      · cases hheld
      · next hne => exact .inl ⟨hheld, fun heq => absurd heq hne⟩

/-- A socket that is settled stays so, unless it closes. -/
theorem Turn.settled {connections : ConnectionRegistry} {socket : Socket}
    {client : Client} {event : Event}
    (hturn : Turn schema connections socket (some client) event reaction)
    (hsettled : client.Settled)
    (hheld : connections.getBySocket socket ≠ none)
    (hevent : event ≠ .close) : reaction.client.Settled := by
  obtain ⟨hstate, hverifying⟩ := hsettled
  cases hturn with
  | answered => exact ⟨hstate, hverifying⟩
  | asked _ _ hsender => exact absurd hsender hheld
  | refused _ _ _ hindex => rw [hverifying] at hindex; cases hindex
  | registered hindex => rw [hverifying] at hindex; cases hindex
  | timedOut => exact ⟨hstate, hverifying⟩
  | left => exact ⟨ReadyState.noConfusion, hverifying⟩
  | closed => exact absurd rfl hevent

/-- A registered socket stays registered unless it closes or its device's newer
connection closes it. -/
theorem Turn.still {connections : ConnectionRegistry} {socket : Socket}
    {client : Option Client} {event : Event}
    (hturn : Turn schema connections socket client event reaction)
    {other : Socket} {connection : Connection}
    (hheld : connections.getBySocket other = some connection) :
    reaction.connections.getBySocket other = some connection ∨
      other = socket ∧ event = .close ∨
      ∃ reason, closeSocket other replacedCloseCode reason ∈
        reaction.effects := by
  cases hturn with
  | @registered _ _ _ userId deviceId _ replaced _ _ hadd =>
      have hnew := (ConnectionRegistry.add_eq_some hadd).1
      dsimp only
      rw [ConnectionRegistry.getBySocket_of_add hadd]
      split
      · next heq =>
        rw [heq, hnew] at hheld
        cases hheld
      · split
        · next hreplaced =>
          obtain ⟨old, hold, rfl⟩ := hreplaced
          exact .inr (.inr ⟨"replaced by a newer connection",
            List.mem_append_left _ (List.mem_map.mpr
              ⟨old, Option.mem_toList.mpr hold, rfl⟩)⟩)
        · exact .inl hheld
  | closed =>
      dsimp only [answer]
      rw [ConnectionRegistry.getBySocket_removeBySocket]
      split
      · next heq => exact .inr (.inl ⟨heq, rfl⟩)
      · exact .inl hheld
  | opened | answered | asked | refused | timedOut | left => exact .inl hheld

/-- A socket that is not open any more does not open again. -/
theorem Turn.ne_open {connections : ConnectionRegistry} {socket : Socket}
    {client : Client} {event : Event}
    (hturn : Turn schema connections socket (some client) event reaction)
    (hstate : client.readyState ≠ .open) :
    reaction.client.readyState ≠ .open := by
  cases hturn with
  | registered _ hopen => exact absurd hopen hstate
  | left => exact ReadyState.noConfusion
  | closed => exact ReadyState.noConfusion
  | answered | asked | refused | timedOut => exact hstate

theorem Turn.closed_of_closed {connections : ConnectionRegistry}
    {socket : Socket} {client : Client} {event : Event}
    (hturn : Turn schema connections socket (some client) event reaction)
    (hstate : client.readyState = .closed) :
    reaction.client.readyState = .closed := by
  cases hturn with
  | registered _ hopen => rw [hstate] at hopen; cases hopen
  | left hopen => rw [hstate] at hopen; cases hopen
  | closed => rfl
  | answered _ _ _ hne => exact absurd hstate hne
  | asked hne => exact absurd hstate hne
  | refused | timedOut => exact hstate

theorem ne_open_putAll (client : Client) (outputs : List Output)
    (hstate : client.readyState ≠ .open) :
    (client.putAll outputs).readyState ≠ .open := by
  rwa [Client.putAll_of_ne_open hstate]

theorem closed_putAll (client : Client) (outputs : List Output)
    (hstate : client.readyState = .closed) :
    (client.putAll outputs).readyState = .closed := by
  have hopen : client.readyState ≠ .open := hstate ▸ ReadyState.noConfusion
  rwa [Client.putAll_of_ne_open hopen]

theorem eraseIdx_single {A : Type*} {list : List A} (hlength : list.length ≤ 1)
    {index : ℕ} {value : A} (hindex : list[index]? = some value) :
    list.eraseIdx index = [] := by
  obtain ⟨hlt, -⟩ := List.getElem?_eq_some_iff.mp hindex
  apply List.eq_nil_of_length_eq_zero
  rw [List.length_eraseIdx_of_lt hlt]
  omega

/-- The client of a socket that was there before the step. -/
theorem Turn.of_mem {connections : ConnectionRegistry} {socket : Socket}
    {clients : Socket → Option Client} {event : Event} {client : Client}
    (hturn : Turn schema connections socket (clients socket) event reaction)
    (hclient : client ∈ clients socket) :
    Turn schema connections socket (some client) event reaction := by
  rwa [Option.mem_def.mp hclient] at hturn

theorem Sound.settled_step (hsound : Sound schema past relay)
    (hturn : Turn schema relay.connections action.socket
      (relay.clients action.socket) action.event reaction)
    {socket : Socket} {connection : Connection}
    (hheld : reaction.connections.getBySocket socket = some connection) :
    connection ∈ (relay.after action.socket reaction).registrations ∧
      ∃ client ∈ (relay.after action.socket reaction).clients socket,
        client.Settled := by
  rcases hturn.getBySocket hheld with ⟨hbefore, hclose⟩ | ⟨rfl, hnew⟩
  · obtain ⟨hmem, client, hclient, hsettled⟩ := hsound.settled hbefore
    refine ⟨List.mem_append_left _ hmem,
      after_of_put (fun _ outputs h => h.putAll outputs) ?_
        (fun _ => ⟨client, hclient, hsettled⟩)⟩
    rintro rfl
    exact (hturn.of_mem hclient).settled hsettled (hbefore ▸ Option.some_ne_none _)
      (hclose rfl)
  · refine ⟨List.mem_append_right _ (by rw [hnew]; exact List.mem_singleton_self _),
      after_of_put (fun _ outputs h => h.putAll outputs) (fun _ => ?_)
        (absurd rfl ·)⟩
    generalize hclient : relay.clients action.socket = client at hturn
    generalize action.event = event at hturn
    cases hturn with
    | registered hindex hstate =>
        refine ⟨?_, eraseIdx_single (hsound.single _ hclient).1 hindex⟩
        dsimp only [Client.admitted]
        rw [hstate]
        exact ReadyState.noConfusion
    | opened | answered | asked | refused | timedOut | left | closed => cases hnew

theorem Sound.single_step (hsound : Sound schema past relay)
    (hturn : Turn schema relay.connections action.socket
      (relay.clients action.socket) action.event reaction)
    {socket : Socket} {client : Client}
    (hclient : client ∈ (relay.after action.socket reaction).clients socket) :
    client.verifying.length ≤ 1 ∧
      (client.authenticating = false → client.verifying = []) := by
  obtain ⟨before, outputs, rfl, ⟨rfl, rfl⟩ | ⟨-, hbefore⟩⟩ :=
    mem_after_clients hclient
  swap
  · rw [Client.putAll_verifying, Client.putAll_authenticating]
    exact hsound.single before hbefore
  rw [Client.putAll_verifying, Client.putAll_authenticating]
  generalize hself : relay.clients action.socket = old at hturn
  generalize action.event = event at hturn
  cases hturn with
  | opened => exact ⟨Nat.zero_le _, fun _ => rfl⟩
  | asked _ _ _ hauthenticating =>
      have hnone := (hsound.single _ hself).2 hauthenticating
      simp [answer, hnone]
  | refused _ _ _ hindex =>
      have hempty := eraseIdx_single (hsound.single _ hself).1 hindex
      simp [answer, hempty]
  | registered hindex =>
      have hempty := eraseIdx_single (hsound.single _ hself).1 hindex
      simp [Client.admitted, hempty]
  | answered | timedOut | left | closed =>
      have hsame := hsound.single _ hself
      exact hsame

theorem Sound.asked_step (hsound : Sound schema past relay)
    (hturn : Turn schema relay.connections action.socket
      (relay.clients action.socket) action.event reaction)
    {socket : Socket} {client : Client}
    (hclient : client ∈ (relay.after action.socket reaction).clients socket)
    {call : String × Identifier} (hcall : call ∈ client.verifying) :
    AskedFor schema (past ++ [action]) socket call.1 call.2 := by
  obtain ⟨before, outputs, rfl, ⟨rfl, rfl⟩ | ⟨hne, hbefore⟩⟩ :=
    mem_after_clients hclient
  swap
  · rw [Client.putAll_verifying] at hcall
    refine (hsound.asked before hbefore call hcall).concat ?_
    rintro index result rfl
    exact hne rfl
  rw [Client.putAll_verifying] at hcall
  have hkeep {old : Client} (hself : old ∈ relay.clients action.socket)
      (hquiet : ∀ index result, action.event ≠ .verified index result)
      (hcall : call ∈ old.verifying) :
      AskedFor schema (past ++ [action]) action.socket call.1 call.2 := by
    refine (hsound.asked old hself call hcall).concat ?_
    intro index result heq
    exact hquiet index result (congrArg Action.event heq)
  generalize hself : relay.clients action.socket = old at hturn
  generalize hevent : action.event = event at hturn
  cases hturn with
  | opened => cases hcall
  | @asked _ data accessToken deviceId _ hparse _ hauthenticating =>
      have hnone := (hsound.single _ hself).2 hauthenticating
      simp only [answer, hnone, List.nil_append, List.mem_singleton] at hcall
      subst hcall
      have haction : action = ⟨action.socket, .message data false⟩ := by
        rw [← hevent]
      exact ⟨past, [], data, by rw [← haction], hparse, by simp⟩
  | refused _ _ _ hindex =>
      have hempty := eraseIdx_single (hsound.single _ hself).1 hindex
      simp [answer, hempty] at hcall
  | registered hindex =>
      have hempty := eraseIdx_single (hsound.single _ hself).1 hindex
      simp [Client.admitted, hempty] at hcall
  | answered | timedOut | left | closed =>
      exact hkeep hself (by rw [hevent]; simp) hcall

theorem Sound.gone_step (hsound : Sound schema past relay)
    (hturn : Turn schema relay.connections action.socket
      (relay.clients action.socket) action.event reaction)
    {connection : Connection}
    (hmem : connection ∈ (relay.after action.socket reaction).registrations) :
    reaction.connections.getBySocket connection.socket = some connection ∨
      ∃ client ∈ (relay.after action.socket reaction).clients connection.socket,
        client.readyState ≠ .open := by
  have hstays (hbefore : ∃ client ∈ relay.clients connection.socket,
      client.readyState ≠ .open) :
      ∃ client ∈ (relay.after action.socket reaction).clients connection.socket,
        client.readyState ≠ .open := by
    refine after_of_put ne_open_putAll (fun heq => ?_) (fun _ => hbefore)
    obtain ⟨client, hclient, hstate⟩ := hbefore
    rw [heq] at hclient
    exact (hturn.of_mem hclient).ne_open hstate
  rcases List.mem_append.mp hmem with hold | hnew
  · rcases hsound.gone connection hold with hheld | hstate
    swap
    · exact .inr (hstays hstate)
    rcases hturn.still hheld with hstill | ⟨heq, hclose⟩ | ⟨reason, hclose⟩
    · exact .inl hstill
    · right
      refine after_of_put ne_open_putAll (fun _ => ?_) (absurd heq ·)
      rw [hclose] at hturn
      generalize relay.clients action.socket = client at hturn
      cases hturn with
      | closed => exact ReadyState.noConfusion
    · right
      obtain ⟨-, client, hclient, -⟩ := hsound.settled hheld
      have hput : ∃ before, (relay.after action.socket reaction).clients
          connection.socket = some (Client.putAll before
            (Server.outputsFor reaction.effects connection.socket)) := by
        rw [Server.after_clients]
        split
        · exact ⟨_, rfl⟩
        · rw [hclient]
          exact ⟨_, rfl⟩
      obtain ⟨before, hbefore⟩ := hput
      exact ⟨_, hbefore, Client.putAll_close_ne_open before
        (Server.mem_outputsFor.mpr hclose)⟩
  · left
    generalize relay.clients action.socket = client at hturn
    generalize action.event = event at hturn
    cases hturn with
    | registered _ _ hadd =>
        obtain rfl := List.mem_singleton.mp hnew
        exact (ConnectionRegistry.getBySocket_of_add hadd _).trans (if_pos rfl)
    | opened | answered | asked | refused | timedOut | left | closed => cases hnew

theorem Sound.verified_step (hsound : Sound schema past relay)
    (hturn : Turn schema relay.connections action.socket
      (relay.clients action.socket) action.event reaction)
    {connection : Connection}
    (hmem : connection ∈ (relay.after action.socket reaction).registrations) :
    VerifiedAs schema (past ++ [action]) connection := by
  rcases List.mem_append.mp hmem with hold | hnew
  · exact (hsound.verified connection hold).concat action
  · generalize hself : relay.clients action.socket = client at hturn
    generalize hevent : action.event = event at hturn
    cases hturn with
    | @registered _ index accessToken userId _ _ _ hindex =>
        obtain rfl := List.mem_singleton.mp hnew
        have hasked := hsound.asked _ hself _ (List.mem_of_getElem? hindex)
        have haction : action =
            ⟨action.socket, .verified index (.ok userId)⟩ := by rw [← hevent]
        refine ⟨past, [], accessToken, index, ?_, hasked⟩
        rw [newConnection, ← haction]
    | opened | answered | asked | refused | timedOut | left | closed => cases hnew

theorem Sound.once_step (hsound : Sound schema past relay)
    (hturn : Turn schema relay.connections action.socket
      (relay.clients action.socket) action.event reaction) :
    ((relay.after action.socket reaction).registrations.map
      Connection.socket).Nodup := by
  have hunchanged (hnone : reaction.registered = none) :
      ((relay.after action.socket reaction).registrations.map
        Connection.socket).Nodup := by
    rw [Server.after, hnone, Option.toList_none, List.append_nil]
    exact hsound.once
  generalize hself : relay.clients action.socket = client at hturn
  generalize action.event = event at hturn
  cases hturn with
  | registered _ hstate hadd =>
      rw [Server.after, Option.toList_some, List.map_append, List.map_singleton,
        List.nodup_append_comm]
      refine List.nodup_cons.mpr ⟨?_, hsound.once⟩
      intro hmem
      obtain ⟨old, hold, hsocket⟩ := List.mem_map.mp hmem
      have hnew := (ConnectionRegistry.add_eq_some hadd).1
      rcases hsound.gone old hold with hheld | ⟨other, hother, hclosed⟩
      · rw [hsocket, hnew] at hheld
        cases hheld
      · rw [hsocket] at hother
        obtain rfl := Option.some.inj (hself.symm.trans hother)
        exact hclosed hstate
  | opened | answered | asked | refused | timedOut | left | closed =>
      exact hunchanged rfl

theorem Sound.closed_step (hsound : Sound schema past relay)
    (hturn : Turn schema relay.connections action.socket
      (relay.clients action.socket) action.event reaction)
    {socket : Socket} (hmem : ⟨socket, .close⟩ ∈ past ++ [action]) :
    ∃ client ∈ (relay.after action.socket reaction).clients socket,
      client.readyState = .closed := by
  rcases List.mem_append.mp hmem with hold | hnew
  · obtain ⟨client, hclient, hstate⟩ := hsound.closed hold
    refine after_of_put closed_putAll ?_ (fun _ => ⟨client, hclient, hstate⟩)
    rintro rfl
    exact (hturn.of_mem hclient).closed_of_closed hstate
  · obtain rfl := List.mem_singleton.mp hnew
    refine after_of_put closed_putAll (fun _ => ?_) (absurd rfl ·)
    generalize relay.clients socket = client at hturn
    cases hturn with
    | closed => rfl

/-- Every step keeps what the events so far say about the state. -/
theorem Sound.step {next : Server} (hsound : Sound schema past relay)
    (hstep : (Server.machine schema).step relay action = some next) :
    Sound schema (past ++ [action]) next := by
  obtain ⟨reaction, -, hturn, rfl⟩ := step_eq_some hstep
  exact
    { settled := hsound.settled_step hturn
      single := fun _ => hsound.single_step hturn
      asked := fun _ hclient _ => hsound.asked_step hturn hclient
      gone := fun _ => hsound.gone_step hturn
      verified := fun _ => hsound.verified_step hturn
      once := hsound.once_step hturn
      closed := hsound.closed_step hturn }

end Step

theorem sound_of_run {actions : List Action} {relay : Server}
    (hrun : (Server.machine schema).run Server.initial actions = some relay) :
    Sound schema actions relay :=
  Machine.run_of_history (fun _ _ _ _ hsound hstep => hsound.step hstep)
    sound_initial hrun

end Cled.Relay
