import Mathlib.Data.List.Nodup
import Cled.Relay.Sound

/-!
# The newer registration of a device

Connections of one user's device each send one `register` message.  Their tokens
are verified independently, so the registrations can take place in another order
than the messages arrived in.  The connection that is registered last stays; it
is the newest one exactly if no verification of an older one ends after that of
a newer one that is still open.
-/

namespace Cled.Relay

open Cled.Core Cled.Clipboard

variable {schema : ClientSchema}

/-- The relay and the sockets whose `register` message has arrived, oldest
first. -/
structure Race where
  relay : Server
  arrived : List Socket

/-- The message registers the device. -/
def asksFor (schema : ClientSchema) (device : Identifier) (data : Bytes) : Bool :=
  match parseClientMessage schema data with
  | .ok (.register _ deviceId) => deviceId = device
  | _ => false

namespace Race

def initial : Race := ⟨.initial, []⟩

/-- Each socket sends one `register` message, for the device, and each token is
found to be the user's. -/
def machine (schema : ClientSchema) (user device : Identifier) :
    Machine Race Action where
  step race action :=
    match action.event with
    | .message data isBinary =>
        if isBinary = false ∧ asksFor schema device data ∧
            action.socket ∉ race.arrived then
          ((Server.machine schema).step race.relay action).map fun relay =>
            ⟨relay, race.arrived ++ [action.socket]⟩
        else none
    | .verified _ result =>
        if result = .ok user then
          ((Server.machine schema).step race.relay action).map fun relay =>
            ⟨relay, race.arrived⟩
        else none
    | .connect | .timeout | .leave | .close =>
        ((Server.machine schema).step race.relay action).map fun relay =>
          ⟨relay, race.arrived⟩

def IsOpen (race : Race) (socket : Socket) : Prop :=
  ∃ client ∈ race.relay.clients socket, client.readyState = .open

/-- The first socket's message arrived before the second's. -/
def ArrivedBefore (race : Race) (first second : Socket) : Prop :=
  race.arrived.idxOf first < race.arrived.idxOf second

/-- When no verification is pending, the device's registered connection is the
open one whose message arrived last, if there is an open one. -/
def NewestHolds (user device : Identifier) (race : Race) : Prop :=
  (∀ socket, ∀ client ∈ race.relay.clients socket, client.verifying = []) →
    ∀ socket ∈ race.arrived, race.IsOpen socket →
      (∀ other ∈ race.arrived, race.ArrivedBefore socket other →
        ¬ race.IsOpen other) →
      race.relay.connections.getConnection user device =
        some ⟨user, device, socket⟩

/-- Whoever this step closes as replaced is older than the socket it closes it
for. -/
def ReplacesOlder (schema : ClientSchema) (user device : Identifier)
    (race : Race) (action : Action) : Prop :=
  ∀ next ∈ (machine schema user device).step race action, ∀ socket reason,
    .close replacedCloseCode reason ∈
        delivered race.relay next.relay socket →
      race.ArrivedBefore socket action.socket

/-- When a verification of an open socket ends, every open socket whose message
arrived later is still waiting for its own. -/
def LaterStillVerifying (race : Race) (action : Action) : Prop :=
  ∀ index result, action.event = .verified index result →
    race.IsOpen action.socket →
    ∀ later ∈ race.arrived, race.ArrivedBefore action.socket later →
      ∀ client ∈ race.relay.clients later, client.readyState = .open →
        client.verifying ≠ []

variable {user device : Identifier} {race next : Race} {action : Action}

theorem asksFor_iff {data : Bytes} :
    asksFor schema device data = true ↔
      ∃ accessToken, parseClientMessage schema data =
        .ok (.register accessToken device) := by
  unfold asksFor
  split
  · next hparse => simp [hparse]
  · next hother =>
    constructor
    · intro h
      cases h
    · rintro ⟨accessToken, hparse⟩
      exact absurd hparse (hother _ _)

/-- What a step does: a step of the relay, which a first `register` message or
an event that is no message leads to. -/
theorem step_cases (hstep : (machine schema user device).step race action =
    some next) :
    (Server.machine schema).step race.relay action = some next.relay ∧
      (next.arrived = race.arrived ∧
          (∀ data isBinary, action.event ≠ .message data isBinary) ∧
          (∀ index result, action.event = .verified index result →
            result = .ok user) ∨
        ∃ data accessToken, action.event = .message data false ∧
          parseClientMessage schema data = .ok (.register accessToken device) ∧
          action.socket ∉ race.arrived ∧
          next.arrived = race.arrived ++ [action.socket]) := by
  obtain ⟨socket, event⟩ := action
  have hquiet (hmap : ((Server.machine schema).step race.relay
      ⟨socket, event⟩).map (fun relay => (⟨relay, race.arrived⟩ : Race)) =
        some next) :
      (Server.machine schema).step race.relay ⟨socket, event⟩ =
          some next.relay ∧ next.arrived = race.arrived := by
    obtain ⟨relay, hrelay, rfl⟩ := Option.map_eq_some_iff.mp hmap
    exact ⟨hrelay, rfl⟩
  cases event with
  | message data isBinary =>
      dsimp only [machine] at hstep
      split at hstep
      · next hasks =>
        obtain ⟨rfl, hasks, hnew⟩ := hasks
        obtain ⟨accessToken, hparse⟩ := asksFor_iff.mp hasks
        obtain ⟨relay, hrelay, rfl⟩ := Option.map_eq_some_iff.mp hstep
        exact ⟨hrelay, .inr ⟨data, accessToken, rfl, hparse, hnew, rfl⟩⟩
      · cases hstep
  | verified index result =>
      dsimp only [machine] at hstep
      split at hstep
      · next hresult =>
        obtain ⟨hrelay, harrived⟩ := hquiet hstep
        refine ⟨hrelay, .inl ⟨harrived, by simp, ?_⟩⟩
        rintro _ _ ⟨rfl, rfl⟩
        exact hresult
      · cases hstep
  | connect | timeout | leave | close =>
      obtain ⟨hrelay, harrived⟩ := hquiet hstep
      exact ⟨hrelay, .inl ⟨harrived, by simp, by simp⟩⟩

/-! ## The invariant -/

/-- A socket whose message arrived, and no other, is verifying or registered,
as the device; while it is open it is one of the two. -/
structure Inv (schema : ClientSchema) (user device : Identifier)
    (race : Race) : Prop where
  sound : ∃ past, Sound schema past race.relay
  present : ∀ socket ∈ race.arrived, race.relay.clients socket ≠ none
  asked : ∀ {socket}, ∀ client ∈ race.relay.clients socket,
    client.verifying ≠ [] ∨ client.authenticating = true →
      socket ∈ race.arrived
  calls : ∀ {socket}, ∀ client ∈ race.relay.clients socket,
    ∀ call ∈ client.verifying, call.2 = device
  registered : ∀ {socket connection},
    race.relay.connections.getBySocket socket = some connection →
      connection = ⟨user, device, socket⟩ ∧ socket ∈ race.arrived
  admitted : ∀ socket ∈ race.arrived,
    ∀ client ∈ race.relay.clients socket, client.readyState = .open →
      client.verifying = [] →
        race.relay.connections.getBySocket socket =
          some ⟨user, device, socket⟩

theorem inv_initial : Inv schema user device initial where
  sound := ⟨[], sound_initial⟩
  present _ h := by cases h
  asked _ h := by cases h
  calls _ h := by cases h
  registered h := by cases h
  admitted _ h := by cases h

/-- The first `register` message of a socket starts a verification. -/
theorem Inv.asked_reaction (hinv : Inv schema user device race)
    {socket : Socket} (hnew : socket ∉ race.arrived) {client : Client}
    (hclient : client ∈ race.relay.clients socket) {data : Bytes}
    {accessToken : String}
    (hparse : parseClientMessage schema data =
      .ok (.register accessToken device)) :
    handleFrame schema race.relay.connections socket client data false =
      answer race.relay.connections
        { client with
          authenticating := true
          verifying := client.verifying ++ [(accessToken, device)] } [] := by
  have hsender : race.relay.connections.getBySocket socket = none := by
    rw [Option.eq_none_iff_forall_ne_some]
    exact fun connection hheld => hnew (hinv.registered hheld).2
  have hauthenticating : client.authenticating = false := by
    rw [← Bool.not_eq_true]
    exact fun htrue => hnew (hinv.asked client hclient (.inr htrue))
  simp [handleFrame, hparse, hsender, hauthenticating]

/-- What a `register` message leaves. -/
theorem Inv.asked_after (hinv : Inv schema user device race)
    {socket : Socket} (hnew : socket ∉ race.arrived) {data : Bytes}
    {accessToken : String} {relay : Server}
    (hparse : parseClientMessage schema data =
      .ok (.register accessToken device))
    (hstep : (Server.machine schema).step race.relay
      ⟨socket, .message data false⟩ = some relay) :
    ∃ client ∈ race.relay.clients socket, ∃ reaction,
      reaction = answer race.relay.connections
        { client with
          authenticating := true
          verifying := client.verifying ++ [(accessToken, device)] } [] ∧
      Turn schema race.relay.connections socket (race.relay.clients socket)
        (.message data false) reaction ∧
      relay = race.relay.after socket reaction := by
  obtain ⟨reaction, hreaction, hturn, rfl⟩ := step_eq_some hstep
  rw [Server.reaction] at hreaction
  cases hclient : race.relay.clients socket with
  | none =>
      rw [hclient] at hreaction
      cases hreaction
  | some client =>
      rw [hclient] at hreaction
      dsimp only [react] at hreaction
      split at hreaction
      · cases hreaction
      · obtain rfl := Option.some.inj hreaction
        exact ⟨client, rfl, _, hinv.asked_reaction hnew hclient hparse,
          hclient ▸ hturn, rfl⟩

theorem mem_of_putAll_open {client : Client} {outputs : List Output}
    (hstate : (client.putAll outputs).readyState = .open) :
    client.readyState = .open := by
  by_contra hne
  exact ne_open_putAll client outputs hne hstate

/-- A socket that was there stays there. -/
theorem present_after {relay : Server} {socket other : Socket}
    (reaction : Reaction) (hpresent : relay.clients other ≠ none) :
    (relay.after socket reaction).clients other ≠ none := by
  by_cases hself : other = socket
  · rw [hself, after_clients_self]
    exact Option.some_ne_none _
  · rw [after_clients_of_ne hself]
    exact fun h => hpresent (Option.map_eq_none_iff.mp h)

theorem Inv.step_asked (hinv : Inv schema user device race)
    {socket : Socket} (hnew : socket ∉ race.arrived) {data : Bytes}
    {accessToken : String}
    (hparse : parseClientMessage schema data =
      .ok (.register accessToken device))
    (hrelay : (Server.machine schema).step race.relay
      ⟨socket, .message data false⟩ = some next.relay)
    (harrived : next.arrived = race.arrived ++ [socket]) :
    Inv schema user device next := by
  obtain ⟨past, hsound⟩ := hinv.sound
  have hnext := hsound.step hrelay
  obtain ⟨client, hclient, reaction, hreaction, -, hafter⟩ :=
    hinv.asked_after hnew hparse hrelay
  obtain ⟨relay, arrived⟩ := next
  subst hafter harrived hreaction
  refine ⟨⟨_, hnext⟩, ?_, ?_, ?_, ?_, ?_⟩
  · intro other hother
    rcases List.mem_append.mp hother with hold | hself
    · exact present_after _ (hinv.present other hold)
    · obtain rfl := List.mem_singleton.mp hself
      rw [after_clients_self]
      exact Option.some_ne_none _
  · intro other found hfound hasked
    obtain ⟨before, outputs, rfl, ⟨rfl, -⟩ | ⟨-, hbefore⟩⟩ :=
      mem_after_clients hfound
    · exact List.mem_append_right _ (List.mem_singleton_self _)
    · rw [Client.putAll_verifying, Client.putAll_authenticating] at hasked
      exact List.mem_append_left _ (hinv.asked before hbefore hasked)
  · intro other found hfound call hcall
    obtain ⟨before, outputs, rfl, ⟨rfl, rfl⟩ | ⟨-, hbefore⟩⟩ :=
      mem_after_clients hfound
    · rw [Client.putAll_verifying] at hcall
      rcases List.mem_append.mp hcall with hold | hself
      · exact hinv.calls client hclient call hold
      · rw [List.mem_singleton.mp hself]
    · rw [Client.putAll_verifying] at hcall
      exact hinv.calls before hbefore call hcall
  · intro other connection hheld
    obtain ⟨hself, hmem⟩ := hinv.registered hheld
    exact ⟨hself, List.mem_append_left _ hmem⟩
  · intro other hother found hfound hstate hverifying
    obtain ⟨before, outputs, rfl, ⟨rfl, rfl⟩ | ⟨hne, hbefore⟩⟩ :=
      mem_after_clients hfound
    · rw [Client.putAll_verifying] at hverifying
      exact absurd hverifying (List.append_ne_nil_of_right_ne_nil _
        (List.cons_ne_nil _ _))
    · rw [Client.putAll_verifying] at hverifying
      rcases List.mem_append.mp hother with hold | hself
      · exact hinv.admitted other hold before hbefore
          (mem_of_putAll_open hstate) hverifying
      · exact absurd (List.mem_singleton.mp hself) hne

section Quiet

variable {past : List Action} {reaction : Reaction}

/-- A token of an open socket that is found to be the user's registers the
socket. -/
theorem Inv.verified_turn (hinv : Inv schema user device race)
    (hsound : Sound schema past race.relay) {client : Client}
    (hclient : client ∈ race.relay.clients action.socket)
    (hstate : client.readyState = .open) {index : ℕ}
    (hturn : Turn schema race.relay.connections action.socket (some client)
      (.verified index (.ok user)) reaction) :
    ∃ connections' replaced,
      race.relay.connections.add (newConnection action.socket user device) =
        some (connections', replaced) ∧
      reaction = ⟨connections', client.admitted index,
        (replaced.toList.map fun replaced =>
          closeSocket replaced.socket replacedCloseCode
            "replaced by a newer connection") ++
          [send action.socket (.registered user device)],
        some (newConnection action.socket user device)⟩ := by
  cases hturn with
  | refused _ _ _ hindex hreason =>
      rcases hreason with h | h | h | hheld
      · cases h
      · cases h
      · exact absurd hstate h
      · obtain ⟨connection, hconnection⟩ := Option.ne_none_iff_exists'.mp hheld
        obtain ⟨-, settled, hsettled, -, hverifying⟩ :=
          hsound.settled hconnection
        obtain rfl := Option.some.inj (hclient.symm.trans hsettled)
        rw [hverifying] at hindex
        cases hindex
  | @registered _ _ _ _ deviceId connections' replaced hindex _ hadd =>
      have hdevice : deviceId = device :=
        hinv.calls client hclient _ (List.mem_of_getElem? hindex)
      rw [hdevice] at hadd
      exact ⟨connections', replaced, hadd, by rw [hdevice]⟩

theorem Inv.asked_quiet (hinv : Inv schema user device race)
    (hsound : Sound schema past race.relay)
    (hturn : Turn schema race.relay.connections action.socket
      (race.relay.clients action.socket) action.event reaction)
    (hquiet : ∀ data isBinary, action.event ≠ .message data isBinary)
    (hwaits : reaction.client.verifying ≠ [] ∨
      reaction.client.authenticating = true) :
    action.socket ∈ race.arrived := by
  generalize hself : race.relay.clients action.socket = client at hturn
  generalize action.event = event at hturn hquiet
  cases hturn with
  | opened => simp [answer, Client.opened] at hwaits
  | answered data isBinary | @asked _ data => exact absurd rfl (hquiet _ _)
  | refused _ _ _ hindex =>
      have hempty := eraseIdx_single (hsound.single _ hself).1 hindex
      simp [answer, hempty] at hwaits
  | registered hindex =>
      have hempty := eraseIdx_single (hsound.single _ hself).1 hindex
      simp [Client.admitted, hempty] at hwaits
  | timedOut | left | closed => exact hinv.asked _ hself hwaits

theorem Inv.calls_quiet (hinv : Inv schema user device race)
    (hturn : Turn schema race.relay.connections action.socket
      (race.relay.clients action.socket) action.event reaction)
    (hquiet : ∀ data isBinary, action.event ≠ .message data isBinary)
    {call : String × Identifier} (hcall : call ∈ reaction.client.verifying) :
    call.2 = device := by
  generalize hself : race.relay.clients action.socket = client at hturn
  generalize action.event = event at hturn hquiet
  cases hturn with
  | opened => cases hcall
  | answered data isBinary | @asked _ data => exact absurd rfl (hquiet _ _)
  | refused | registered =>
      exact hinv.calls _ hself call (List.mem_of_mem_eraseIdx hcall)
  | timedOut | left | closed => exact hinv.calls _ hself call hcall

theorem Inv.registered_quiet (hinv : Inv schema user device race)
    (hturn : Turn schema race.relay.connections action.socket
      (race.relay.clients action.socket) action.event reaction)
    (hresult : ∀ index result, action.event = .verified index result →
      result = .ok user)
    {socket : Socket} {connection : Connection}
    (hheld : reaction.connections.getBySocket socket = some connection) :
    connection = ⟨user, device, socket⟩ ∧ socket ∈ race.arrived := by
  rcases hturn.getBySocket hheld with ⟨hbefore, -⟩ | ⟨rfl, hnew⟩
  · exact hinv.registered hbefore
  · generalize hself : race.relay.clients action.socket = client at hturn
    generalize action.event = event at hturn hresult
    cases hturn with
    | @registered _ index _ userId _ _ _ hindex =>
        have huser := VerifyResult.ok.inj (hresult index (.ok userId) rfl)
        have hcall := List.mem_of_getElem? hindex
        have hdevice := hinv.calls _ hself _ hcall
        obtain rfl := Option.some.inj hnew
        dsimp only at hdevice
        subst huser hdevice
        exact ⟨rfl, hinv.asked _ hself (.inl (List.ne_nil_of_mem hcall))⟩
    | opened | answered | asked | refused | timedOut | left | closed =>
        cases hnew

/-- The socket that acts is registered afterwards, if its message arrived, it is
open and it waits for no verification. -/
theorem Inv.admitted_quiet (hinv : Inv schema user device race)
    (hsound : Sound schema past race.relay)
    (hturn : Turn schema race.relay.connections action.socket
      (race.relay.clients action.socket) action.event reaction)
    (hquiet : ∀ data isBinary, action.event ≠ .message data isBinary)
    (hresult : ∀ index result, action.event = .verified index result →
      result = .ok user)
    (harrived : action.socket ∈ race.arrived)
    (hstate : reaction.client.readyState = .open)
    (hverifying : reaction.client.verifying = []) :
    reaction.connections.getBySocket action.socket =
      some ⟨user, device, action.socket⟩ := by
  obtain ⟨client, hself⟩ :=
    Option.ne_none_iff_exists'.mp (hinv.present _ harrived)
  replace hturn := hturn.of_mem hself
  generalize action.event = event at hturn hquiet hresult
  cases event with
  | connect => cases hturn
  | message data isBinary => exact absurd rfl (hquiet data isBinary)
  | verified index result =>
      obtain rfl := hresult index result rfl
      have hbefore : client.readyState = .open := by
        by_contra hne
        exact hturn.ne_open hne hstate
      obtain ⟨connections', replaced, hadd, rfl⟩ :=
        hinv.verified_turn hsound hself hbefore hturn
      exact (ConnectionRegistry.getBySocket_of_add hadd _).trans (if_pos rfl)
  | timeout =>
      cases hturn with
      | timedOut => exact hinv.admitted _ harrived client hself hstate hverifying
  | leave =>
      cases hturn with
      | left => cases hstate
  | close =>
      cases hturn with
      | closed => cases hstate

theorem Inv.step_quiet (hinv : Inv schema user device race)
    (hquiet : ∀ data isBinary, action.event ≠ .message data isBinary)
    (hresult : ∀ index result, action.event = .verified index result →
      result = .ok user)
    (hrelay : (Server.machine schema).step race.relay action =
      some next.relay)
    (harrived : next.arrived = race.arrived) :
    Inv schema user device next := by
  obtain ⟨past, hsound⟩ := hinv.sound
  have hnext := hsound.step hrelay
  obtain ⟨reaction, -, hturn, hafter⟩ := step_eq_some hrelay
  obtain ⟨relay, arrived⟩ := next
  subst hafter harrived
  refine ⟨⟨_, hnext⟩, fun other hother => present_after _
    (hinv.present other hother), ?_, ?_,
    fun hheld => hinv.registered_quiet hturn hresult hheld, ?_⟩
  · intro other found hfound hasked
    obtain ⟨before, outputs, rfl, ⟨rfl, rfl⟩ | ⟨-, hbefore⟩⟩ :=
      mem_after_clients hfound
    all_goals
      rw [Client.putAll_verifying, Client.putAll_authenticating] at hasked
    · exact hinv.asked_quiet hsound hturn hquiet hasked
    · exact hinv.asked before hbefore hasked
  · intro other found hfound call hcall
    obtain ⟨before, outputs, rfl, ⟨rfl, rfl⟩ | ⟨-, hbefore⟩⟩ :=
      mem_after_clients hfound
    all_goals rw [Client.putAll_verifying] at hcall
    · exact hinv.calls_quiet hturn hquiet hcall
    · exact hinv.calls before hbefore call hcall
  · intro other hother found hfound hstate hverifying
    obtain ⟨before, outputs, hputs, hcases⟩ := mem_after_clients hfound
    have hbeforeOpen : before.readyState = .open :=
      mem_of_putAll_open (hputs ▸ hstate)
    have hbeforeDone : before.verifying = [] := by
      rwa [hputs, Client.putAll_verifying] at hverifying
    rcases hcases with ⟨rfl, rfl⟩ | ⟨hne, hbefore⟩
    · exact hinv.admitted_quiet hsound hturn hquiet hresult hother
        hbeforeOpen hbeforeDone
    · have hheld := hinv.admitted other hother before hbefore hbeforeOpen
        hbeforeDone
      rcases hturn.still hheld with hstill | ⟨hself, -⟩ | ⟨reason, hclose⟩
      · exact hstill
      · exact absurd hself hne
      · refine absurd hstate ?_
        rw [after_clients_of_ne hne, hbefore] at hfound
        obtain rfl := Option.some.inj hfound
        exact Client.putAll_close_ne_open before
          (Server.mem_outputsFor.mpr hclose)

end Quiet

theorem Inv.step (hinv : Inv schema user device race)
    (hstep : (machine schema user device).step race action = some next) :
    Inv schema user device next := by
  obtain ⟨hrelay, ⟨harrived, hquiet, hresult⟩ |
    ⟨data, accessToken, hevent, hparse, hnew, harrived⟩⟩ := step_cases hstep
  · exact hinv.step_quiet hquiet hresult hrelay harrived
  · have haction : action = ⟨action.socket, .message data false⟩ := by
      rw [← hevent]
    rw [haction] at hrelay
    exact hinv.step_asked hnew hparse hrelay harrived

/-! ## The newest connection -/

theorem Inv.newestHolds (hinv : Inv schema user device race) :
    NewestHolds user device race := by
  rintro hnone socket harrived ⟨client, hclient, hstate⟩ -
  have hheld := hinv.admitted socket harrived client hclient hstate
    (hnone socket client hclient)
  exact race.relay.connections.agree.getConnection_of hheld

/-- A socket that a step closes as replaced. -/
theorem Inv.replaced_of_delivered (hinv : Inv schema user device race)
    (hstep : (machine schema user device).step race action = some next)
    {socket : Socket} {reason : String}
    (hclose : .close replacedCloseCode reason ∈
      delivered race.relay next.relay socket) :
    (∃ index result, action.event = .verified index result) ∧
      race.IsOpen action.socket ∧ socket ≠ action.socket ∧
      socket ∈ race.arrived ∧ ∃ client ∈ race.relay.clients socket,
        client.readyState = .open ∧ client.verifying = [] := by
  obtain ⟨past, hsound⟩ := hinv.sound
  obtain ⟨hrelay, ⟨-, hquiet, hresult⟩ |
    ⟨data, accessToken, hevent, hparse, hnew, -⟩⟩ := step_cases hstep
  swap
  · have haction : action = ⟨action.socket, .message data false⟩ := by
      rw [← hevent]
    rw [haction] at hrelay
    obtain ⟨client, -, reaction, rfl, hturn, hafter⟩ :=
      hinv.asked_after hnew hparse hrelay
    rw [hafter] at hclose
    rw [← hevent] at hturn
    obtain ⟨hmeant, -⟩ := mem_delivered hturn hclose
    cases Server.mem_outputsFor.mp hmeant
  obtain ⟨reaction, -, hturn, hafter⟩ := step_eq_some hrelay
  rw [hafter] at hclose
  obtain ⟨hmeant, target, hopen, hwho⟩ := mem_delivered hturn hclose
  have heffect := Server.mem_outputsFor.mp hmeant
  generalize hself : race.relay.clients action.socket = acting at hturn
  cases hevent : action.event with
  | connect | leave | close =>
      rw [hevent] at hturn
      cases hturn
      cases heffect
  | message data isBinary => exact absurd hevent (hquiet data isBinary)
  | timeout =>
      rw [hevent] at hturn
      cases hturn with
      | timedOut effects heffects =>
          dsimp only [answer] at heffect
          rw [heffects] at heffect
          split at heffect
          · cases List.mem_singleton.mp heffect
          · cases heffect
  | verified index result =>
      rw [hevent] at hturn
      obtain rfl := hresult index result hevent
      cases acting with
      | none => cases hturn
      | some acting =>
          by_cases hstate : acting.readyState = .open
          · obtain ⟨connections', replaced, hadd, rfl⟩ :=
              hinv.verified_turn hsound hself hstate hturn
            obtain ⟨hnew, -, rfl⟩ := ConnectionRegistry.add_eq_some hadd
            rcases List.mem_append.mp heffect with hreplaced | hsent
            · obtain ⟨old, hold, heq⟩ := List.mem_map.mp hreplaced
              have hkeys := Option.mem_toList.mp hold
              have hheld := race.relay.connections.agree.getBySocket_of hkeys
              obtain rfl : old.socket = socket := congrArg Effect.socket heq
              obtain ⟨-, client, hclient, -, hverifying⟩ :=
                hsound.settled hheld
              have hne : old.socket ≠ action.socket := by
                intro heq
                rw [heq] at hheld
                exact Option.some_ne_none _ (hheld.symm.trans hnew)
              rcases hwho with ⟨h, -⟩ | ⟨-, htarget⟩
              · exact absurd h hne
              · obtain rfl := Option.some.inj (hclient.symm.trans htarget)
                exact ⟨⟨index, _, rfl⟩, ⟨acting, hself, hstate⟩, hne,
                  (hinv.registered hheld).2, client, hclient, hopen, hverifying⟩
            · cases List.mem_singleton.mp hsent
          · exfalso
            cases hturn with
            | refused _ _ _ _ _ howns =>
                have hsocket := howns _ heffect
                rcases hwho with ⟨-, rfl⟩ | ⟨hne, -⟩
                · exact hstate hopen
                · exact hne hsocket
            | registered _ hopen => exact hstate hopen

/-- An open socket that is not waiting for its verification is closed as
replaced when that of another open socket ends. -/
theorem Inv.delivered_replaced (hinv : Inv schema user device race)
    (hstep : (machine schema user device).step race action = some next)
    {index : ℕ} {result : VerifyResult}
    (hevent : action.event = .verified index result)
    (hacting : race.IsOpen action.socket) {socket : Socket}
    (hne : socket ≠ action.socket) (harrived : socket ∈ race.arrived)
    {client : Client} (hclient : client ∈ race.relay.clients socket)
    (hstate : client.readyState = .open) (hverifying : client.verifying = []) :
    .close replacedCloseCode "replaced by a newer connection" ∈
      delivered race.relay next.relay socket := by
  obtain ⟨past, hsound⟩ := hinv.sound
  have hheld := hinv.admitted socket harrived client hclient hstate hverifying
  have hdevice : race.relay.connections.getConnection user device =
      some ⟨user, device, socket⟩ :=
    race.relay.connections.agree.getConnection_of hheld
  obtain ⟨hrelay, ⟨-, -, hresult⟩ | ⟨data, _, hmessage, -⟩⟩ := step_cases hstep
  swap
  · rw [hevent] at hmessage
    cases hmessage
  obtain rfl := hresult index result hevent
  obtain ⟨reaction, -, hturn, hafter⟩ := step_eq_some hrelay
  obtain ⟨acting, hself, hopen⟩ := hacting
  replace hturn := hturn.of_mem hself
  rw [hevent] at hturn
  obtain ⟨connections', replaced, hadd, rfl⟩ :=
    hinv.verified_turn hsound hself hopen hturn
  obtain ⟨-, -, hreplaced⟩ := ConnectionRegistry.add_eq_some hadd
  have hold : replaced = some ⟨user, device, socket⟩ := hreplaced.trans hdevice
  subst hold
  have hmeant : Server.outputsFor
      ([closeSocket socket replacedCloseCode "replaced by a newer connection"] ++
        [send action.socket (.registered user device)]) socket =
      [.close replacedCloseCode "replaced by a newer connection"] := by
    simp [Server.outputsFor, closeSocket, send, Ne.symm hne]
  rw [hafter]
  exact head_delivered hne hclient hstate hmeant

theorem Inv.replacesOlder_iff (hinv : Inv schema user device race)
    (hstep : (machine schema user device).step race action = some next) :
    ReplacesOlder schema user device race action ↔
      race.LaterStillVerifying action := by
  constructor
  · intro holder index result hevent hacting later harrived hbefore client
      hclient hstate hverifying
    have hne : later ≠ action.socket := by
      rintro rfl
      exact Nat.lt_irrefl _ hbefore
    have hclose := hinv.delivered_replaced hstep hevent hacting hne harrived
      hclient hstate hverifying
    exact Nat.lt_asymm hbefore (holder next hstep later _ hclose)
  · intro hwaits other hother socket reason hclose
    obtain rfl := Option.some.inj (hstep.symm.trans hother)
    obtain ⟨⟨index, result, hevent⟩, hacting, hne, harrived, client, hclient,
      hstate, hverifying⟩ := hinv.replaced_of_delivered hstep hclose
    by_contra hnot
    have hsame : race.arrived.idxOf socket ≠ race.arrived.idxOf action.socket :=
      fun h => hne ((List.idxOf_inj harrived).mp h)
    have hlater : race.ArrivedBefore action.socket socket :=
      lt_of_le_of_ne (not_lt.mp hnot) hsame.symm
    exact hwaits index result hevent hacting socket harrived hlater client
      hclient hstate hverifying

/-- In every run: the connection held when no verification is pending is the
newest of those still open.  No connection is closed in favour of an older one
if and only if every verification of an open socket that ends does so while all
open sockets whose message arrived later are still being verified. -/
theorem newer_wins_iff_verified_in_order {actions : List Action} {final : Race}
    (hrun : (machine schema user device).run initial actions = some final) :
    NewestHolds user device final ∧
      ((machine schema user device).Along
          (ReplacesOlder schema user device) initial actions ↔
        (machine schema user device).Along LaterStillVerifying initial
          actions) := by
  have hkeeps : ∀ race action next, Inv schema user device race →
      (machine schema user device).step race action = some next →
        Inv schema user device next := fun _ _ _ hinv hstep => hinv.step hstep
  refine ⟨(Machine.run_of_step_invariant hkeeps inv_initial hrun).newestHolds,
    Machine.along_congr ?_ (fun race action next hinv _ => hkeeps race action
      next hinv) inv_initial (Machine.along_of_run _ hrun)⟩
  rintro race action hinv ⟨next, hstep⟩
  exact hinv.replacesOlder_iff hstep

/-- Two sockets whose messages arrive one after the other, and whose tokens are
verified in the given order. -/
def twoSockets (verified : List Socket) : List Action :=
  [⟨1, .connect⟩, ⟨2, .connect⟩, ⟨1, .message [0] false⟩,
    ⟨2, .message [0] false⟩] ++
      verified.map fun socket => ⟨socket, .verified 0 (.ok exampleUser)⟩

theorem newer_wins_iff_verified_in_order_inOrder :
    ∃ final, (machine (wordSchema exampleDevice) exampleUser exampleDevice).run
        initial (twoSockets [1, 2]) = some final ∧
      NewestHolds exampleUser exampleDevice final ∧
      final.relay.connections.getConnection exampleUser exampleDevice =
        some ⟨exampleUser, exampleDevice, 2⟩ := by
  have hheld : (((machine (wordSchema exampleDevice) exampleUser
      exampleDevice).run initial (twoSockets [1, 2])).bind fun final =>
        final.relay.connections.getConnection exampleUser exampleDevice) =
      some ⟨exampleUser, exampleDevice, 2⟩ := by decide
  obtain ⟨final, hrun, hfinal⟩ := Option.bind_eq_some_iff.mp hheld
  exact ⟨final, hrun, (newer_wins_iff_verified_in_order hrun).1, hfinal⟩

/-- The newer connection's token is verified first: when the older one's is
verified, the newer connection is closed as replaced. -/
theorem newer_connection_replaced :
    ∃ race next,
      (machine (wordSchema exampleDevice) exampleUser exampleDevice).run
        initial (twoSockets [2]) = some race ∧
      (machine (wordSchema exampleDevice) exampleUser exampleDevice).step race
        ⟨1, .verified 0 (.ok exampleUser)⟩ = some next ∧
      .close replacedCloseCode "replaced by a newer connection" ∈
        delivered race.relay next.relay 2 ∧
      race.ArrivedBefore 1 2 ∧
      ¬ (machine (wordSchema exampleDevice) exampleUser exampleDevice).Along
        (ReplacesOlder (wordSchema exampleDevice) exampleUser exampleDevice)
        initial (twoSockets [2, 1]) := by
  have hruns : (((machine (wordSchema exampleDevice) exampleUser
      exampleDevice).run initial (twoSockets [2])).bind fun race =>
        ((machine (wordSchema exampleDevice) exampleUser exampleDevice).step
          race ⟨1, .verified 0 (.ok exampleUser)⟩).map fun next =>
            (delivered race.relay next.relay 2, race.arrived)) =
      some ([.close replacedCloseCode "replaced by a newer connection"],
        [1, 2]) := by decide
  obtain ⟨race, hrace, hsteps⟩ := Option.bind_eq_some_iff.mp hruns
  obtain ⟨next, hstep, hwhat⟩ := Option.map_eq_some_iff.mp hsteps
  obtain ⟨hdelivered, harrived⟩ := Prod.mk.inj hwhat
  have hclose : .close replacedCloseCode "replaced by a newer connection" ∈
      delivered race.relay next.relay 2 := by
    rw [hdelivered]
    exact List.mem_singleton_self _
  have hbefore : race.ArrivedBefore 1 2 := by
    rw [ArrivedBefore, harrived]
    decide
  refine ⟨race, next, hrace, hstep, hclose, hbefore, fun halong => ?_⟩
  have hsplit : twoSockets [2, 1] =
      twoSockets [2] ++ [⟨1, .verified 0 (.ok exampleUser)⟩] := rfl
  rw [hsplit] at halong
  exact Nat.lt_asymm hbefore (halong.of_run hrace next hstep 2 _ hclose)

end Race

end Cled.Relay
