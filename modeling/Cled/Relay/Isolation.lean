import Cled.Relay.Sound

/-!
# Users cannot observe each other

Take the events of the sockets that register as other users out of a run.  What
is left is a run of the relay, and it sends the same to every socket of the
user.  The shared registry comes apart by user: whatever a handler reads, and
whatever it changes, belongs to the user of the socket it runs for.
-/

namespace Cled.Relay

open Cled.Core Cled.Clipboard

variable {schema : ClientSchema}

/-- The socket is registered, at some time, as a user other than this one. -/
def registersAsOther (registrations : List Connection) (user : Identifier)
    (socket : Socket) : Bool :=
  registrations.any fun connection =>
    connection.socket = socket && connection.userId ≠ user

/-! ## Registries that agree for a user -/

/-- Two registries that have the same entries for the kept sockets and for the
devices of one user. -/
structure Alike (kept : Socket → Prop) (user : Identifier)
    (full alone : ConnectionRegistry) : Prop where
  bySocket : ∀ {socket}, kept socket →
    alone.getBySocket socket = full.getBySocket socket
  devices : alone.indexes.devicesOf user = full.indexes.devicesOf user

namespace Alike

variable {kept : Socket → Prop} {user : Identifier}
  {full alone : ConnectionRegistry}

theorem getConnection (halike : Alike kept user full alone)
    (device : Identifier) :
    alone.getConnection user device = full.getConnection user device := by
  unfold ConnectionRegistry.getConnection Indexes.getConnection
  rw [halike.devices]

theorem otherConnections (halike : Alike kept user full alone)
    {sender : Connection} (hsender : sender.userId = user) :
    otherConnections alone sender = otherConnections full sender := by
  unfold Relay.otherConnections ConnectionRegistry.getUserConnections
  rw [hsender, halike.devices]

/-- A frame of a kept socket leads to the same effects. -/
theorem handleFrame (halike : Alike kept user full alone) {socket : Socket}
    (hkept : kept socket)
    (huser : ∀ sender, full.getBySocket socket = some sender →
      sender.userId = user) (client : Client) (data : Bytes) (isBinary : Bool) :
    handleFrame schema alone socket client data isBinary =
      { handleFrame schema full socket client data isBinary with
        connections := alone } := by
  unfold Relay.handleFrame
  rw [halike.bySocket hkept]
  cases hsender : full.getBySocket socket with
  | none =>
      cases isBinary with
      | true => rfl
      | false =>
          cases parseClientMessage schema data with
          | error error => rfl
          | ok message =>
              cases message with
              | register accessToken deviceId => cases client.authenticating <;> rfl
              | message | devices => rfl
  | some sender =>
      have hsame := huser sender hsender
      cases isBinary with
      | true =>
          have hforward : forwardTunnelFrame alone sender data =
              forwardTunnelFrame full sender data := by
            unfold forwardTunnelFrame
            simp only [hsame, halike.getConnection]
          simp only [hforward]
          rfl
      | false =>
          have hothers := halike.otherConnections hsame
          cases parseClientMessage schema data with
          | error error => rfl
          | ok message =>
              cases message with
              | register accessToken deviceId => rfl
              | message body =>
                  simp only [deliverMessage, hothers]
                  rfl
              | devices =>
                  simp only [listDevices, hothers]
                  rfl

/-- A registration of a kept socket as the user. -/
theorem add (halike : Alike kept user full alone) {connection : Connection}
    (hkept : kept connection.socket) (huser : connection.userId = user)
    {full' : ConnectionRegistry} {replaced : Option Connection}
    (hadd : full.add connection = some (full', replaced)) :
    ∃ alone', alone.add connection = some (alone', replaced) ∧
      Alike kept user full' alone' := by
  obtain ⟨hnew, hindexes, hreplaced⟩ := ConnectionRegistry.add_eq_some hadd
  have hsocket := halike.bySocket hkept
  cases halone : alone.add connection with
  | none =>
      rw [ConnectionRegistry.add_eq_none_iff, hsocket] at halone
      exact absurd hnew halone
  | some added =>
      obtain ⟨alone', replaced'⟩ := added
      obtain ⟨-, hindexes', hreplaced'⟩ :=
        ConnectionRegistry.add_eq_some halone
      have hsame : replaced' = replaced := by
        rw [hreplaced, hreplaced', huser, halike.getConnection]
      subst hsame
      refine ⟨alone', rfl, ⟨fun hother => ?_, ?_⟩⟩
      · rw [ConnectionRegistry.getBySocket_of_add halone,
          ConnectionRegistry.getBySocket_of_add hadd, halike.bySocket hother]
      · rw [hindexes, hindexes', Indexes.devicesOf_add, Indexes.devicesOf_add,
          halike.devices]

/-- A kept socket closes. -/
theorem removeBySocket (halike : Alike kept user full alone) {socket : Socket}
    (hkept : kept socket) :
    Alike kept user (full.removeBySocket socket)
      (alone.removeBySocket socket) where
  bySocket hother := by
    rw [ConnectionRegistry.getBySocket_removeBySocket,
      ConnectionRegistry.getBySocket_removeBySocket, halike.bySocket hother]
  devices := by
    rw [ConnectionRegistry.removeBySocket_indexes,
      ConnectionRegistry.removeBySocket_indexes, halike.bySocket hkept]
    cases full.getBySocket socket with
    | none => exact halike.devices
    | some connection =>
        dsimp only
        rw [Indexes.devicesOf_drop, Indexes.devicesOf_drop, halike.devices]

/-- The end of a verification for a kept socket. -/
theorem finishRegister (halike : Alike kept user full alone) {socket : Socket}
    (hkept : kept socket) (client : Client) (deviceId : Identifier)
    (result : VerifyResult)
    (hnew : ∀ connection ∈ (finishRegister full socket client deviceId
      result).registered, connection.userId = user) :
    ∃ connections, Alike kept user
        (finishRegister full socket client deviceId result).connections
        connections ∧
      finishRegister alone socket client deviceId result =
        { finishRegister full socket client deviceId result with
          connections } := by
  cases result with
  | throws => exact ⟨alone, halike, rfl⟩
  | rejected => exact ⟨alone, halike, rfl⟩
  | ok userId =>
      dsimp only [Relay.finishRegister] at hnew ⊢
      by_cases hstate : client.readyState ≠ .open
      · rw [if_pos hstate] at hnew ⊢
        rw [if_pos hstate]
        exact ⟨alone, halike, rfl⟩
      rw [if_neg hstate] at hnew ⊢
      rw [if_neg hstate]
      cases hadd : full.add ⟨userId, deviceId, socket⟩ with
      | none =>
          have hheld := ConnectionRegistry.add_eq_none_iff.mp hadd
          have halone : alone.add ⟨userId, deviceId, socket⟩ = none := by
            rw [ConnectionRegistry.add_eq_none_iff, halike.bySocket hkept]
            exact hheld
          rw [halone]
          exact ⟨alone, halike, rfl⟩
      | some added =>
          obtain ⟨full', replaced⟩ := added
          rw [hadd] at hnew
          have huser : userId = user := hnew _ rfl
          obtain ⟨alone', halone, halike'⟩ := halike.add hkept huser hadd
          rw [halone]
          exact ⟨alone', halike', rfl⟩

/-- An event of a kept socket can happen without the others, and leads to the
same. -/
theorem react (halike : Alike kept user full alone) {action : Action}
    (hkept : kept action.socket)
    (huser : ∀ sender, full.getBySocket action.socket = some sender →
      sender.userId = user) {client : Option Client} {reaction : Reaction}
    (hreact : react schema full client action = some reaction)
    (hnew : ∀ connection ∈ reaction.registered, connection.userId = user) :
    ∃ connections, Alike kept user reaction.connections connections ∧
      Relay.react schema alone client action =
        some { reaction with connections } := by
  obtain ⟨socket, event⟩ := action
  cases client with
  | none =>
      cases event with
      | connect =>
          obtain rfl := Option.some.inj hreact
          exact ⟨alone, halike, rfl⟩
      | message | verified | timeout | leave | close => cases hreact
  | some client =>
      cases event with
      | connect => cases hreact
      | message data isBinary =>
          dsimp only [Relay.react] at hreact ⊢
          by_cases hstate : client.readyState = .closed
          · rw [if_pos hstate] at hreact
            cases hreact
          rw [if_neg hstate] at hreact ⊢
          obtain rfl := Option.some.inj hreact
          have hsame : (Relay.handleFrame schema full socket client data
              isBinary).connections = full :=
            (handleFrame_turn data isBinary hstate).message_connections
          rw [halike.handleFrame hkept huser]
          refine ⟨alone, ?_, rfl⟩
          rw [hsame]
          exact halike
      | verified index result =>
          obtain ⟨⟨accessToken, deviceId⟩, hindex, rfl⟩ :=
            Option.map_eq_some_iff.mp hreact
          obtain ⟨connections, halike', hsame⟩ :=
            halike.finishRegister hkept _ deviceId result hnew
          refine ⟨connections, halike', ?_⟩
          dsimp only [Relay.react]
          rw [hindex, Option.map_some, hsame]
      | timeout =>
          dsimp only [Relay.react] at hreact ⊢
          by_cases htimer : client.authTimer = true
          · rw [if_pos htimer] at hreact ⊢
            obtain rfl := Option.some.inj hreact
            rw [halike.bySocket hkept]
            exact ⟨alone, halike, rfl⟩
          · rw [if_neg htimer] at hreact
            cases hreact
      | leave =>
          dsimp only [Relay.react] at hreact ⊢
          by_cases hstate : client.readyState = .open
          · rw [if_pos hstate] at hreact ⊢
            obtain rfl := Option.some.inj hreact
            exact ⟨alone, halike, rfl⟩
          · rw [if_neg hstate] at hreact
            cases hreact
      | close =>
          dsimp only [Relay.react] at hreact ⊢
          by_cases hstate : client.readyState = .closed
          · rw [if_pos hstate] at hreact
            cases hreact
          · rw [if_neg hstate] at hreact ⊢
            obtain rfl := Option.some.inj hreact
            exact ⟨_, halike.removeBySocket hkept, rfl⟩

end Alike

/-! ## Two runs side by side -/

/-- The relay with all sockets and the relay with the kept ones. -/
structure Mirrors (kept : Socket → Prop) (user : Identifier)
    (full alone : Server) : Prop where
  connections : Alike kept user full.connections alone.connections
  clients : ∀ {socket}, kept socket →
    alone.clients socket = full.clients socket

section Mirrors

variable {kept : Socket → Prop} {user : Identifier} {full full' alone : Server}
  {past : List Action} {action : Action}

/-- Each registered socket is kept if and only if it registered as the user. -/
def Sorted (kept : Socket → Prop) (user : Identifier) (relay : Server) : Prop :=
  ∀ connection ∈ relay.registrations,
    kept connection.socket ↔ connection.userId = user

/-- An event of a kept socket. -/
theorem Mirrors.kept_step (hmirrors : Mirrors kept user full alone)
    (hsound : Sound schema past full)
    (hstep : (Server.machine schema).step full action = some full')
    (hsorted : Sorted kept user full') (hkept : kept action.socket) :
    ∃ alone', (Server.machine schema).step alone action = some alone' ∧
      Mirrors kept user full' alone' := by
  obtain ⟨reaction, hreaction, -, rfl⟩ := step_eq_some hstep
  have huser : ∀ sender,
      full.connections.getBySocket action.socket = some sender →
        sender.userId = user := by
    intro sender hsender
    have hmem := List.mem_append_left reaction.registered.toList
      (hsound.settled hsender).1
    refine (hsorted sender hmem).mp ?_
    rwa [ConnectionRegistry.socket_eq hsender]
  have hnew : ∀ connection ∈ reaction.registered, connection.userId = user := by
    intro connection hconnection
    have hmem := List.mem_append_right full.registrations
      (Option.mem_toList.mpr hconnection)
    refine (hsorted connection hmem).mp ?_
    rwa [(react_turn hreaction).registered_socket hconnection]
  obtain ⟨connections, halike, hreact⟩ :=
    hmirrors.connections.react hkept huser hreaction hnew
  refine ⟨alone.after action.socket { reaction with connections }, ?_,
    halike, fun {socket} hsocket => ?_⟩
  · have halone : alone.reaction schema action =
        some { reaction with connections } := by
      rw [Server.reaction, hmirrors.clients hkept]
      exact hreact
    exact Option.map_eq_some_iff.mpr ⟨_, halone, rfl⟩
  · rw [Server.after_clients, Server.after_clients, hmirrors.clients hsocket]

/-- A socket that is not kept reaches no kept socket. -/
theorem not_inReach (hsound : Sound schema past full)
    (hsorted : Sorted kept user full) {socket other : Socket}
    (hdropped : ¬ kept socket) (hkept : kept other) :
    ¬ InReach full.connections socket other := by
  rintro (rfl | ⟨sender, recipient, hsender, hrecipient, rfl⟩)
  · exact hdropped hkept
  · have hheld := full.connections.agree.getBySocket_of hrecipient
    have hkeys := full.connections.agree.keys hrecipient
    have huser := (hsorted recipient (hsound.settled hheld).1).mp hkept
    refine hdropped ?_
    rw [← ConnectionRegistry.socket_eq hsender]
    exact (hsorted sender (hsound.settled hsender).1).mpr
      (hkeys.1.symm.trans huser)

/-- What an event of a socket that is not kept leaves alone. -/
theorem dropped_turn (hsound : Sound schema past full) {reaction : Reaction}
    (hturn : Turn schema full.connections action.socket
      (full.clients action.socket) action.event reaction)
    (hsorted : Sorted kept user (full.after action.socket reaction))
    (hdropped : ¬ kept action.socket) :
    Alike kept user reaction.connections full.connections ∧
      ∀ socket, kept socket →
        Server.outputsFor reaction.effects socket = [] := by
  have hbefore : Sorted kept user full := fun connection hmem =>
    hsorted connection (List.mem_append_left _ hmem)
  have hquiet (hreach : ∀ effect ∈ reaction.effects,
      InReach full.connections action.socket effect.socket) (socket : Socket)
      (hkept : kept socket) :
      Server.outputsFor reaction.effects socket = [] := by
    rw [List.eq_nil_iff_forall_not_mem]
    intro output houtput
    exact not_inReach hsound hbefore hdropped hkept
      (hreach _ (Server.mem_outputsFor.mp houtput))
  have hsame : Alike kept user full.connections full.connections :=
    ⟨fun _ => rfl, rfl⟩
  generalize full.clients action.socket = client at hturn
  generalize action.event = event at hturn
  cases hturn with
  | answered _ _ _ _ hreach => exact ⟨hsame, hquiet hreach⟩
  | refused _ _ _ _ _ howns =>
      exact ⟨hsame, hquiet fun effect heffect => .inl (howns effect heffect)⟩
  | opened | asked | left => exact ⟨hsame, fun _ _ => rfl⟩
  | timedOut effects heffects =>
      refine ⟨hsame, hquiet fun effect heffect => .inl ?_⟩
      dsimp only [answer] at heffect
      rw [heffects] at heffect
      split at heffect
      · obtain rfl := List.mem_singleton.mp heffect
        rfl
      · cases heffect
  | @registered _ _ _ userId deviceId _ replaced _ _ hadd =>
      have hnew : userId ≠ user := fun huser =>
        hdropped ((hsorted (newConnection action.socket userId deviceId)
          (List.mem_append_right _ (List.mem_singleton_self _))).mpr huser)
      obtain ⟨hfresh, hindexes, hreplaced⟩ :=
        ConnectionRegistry.add_eq_some hadd
      have hold : ∀ old ∈ replaced, ¬ kept old.socket := by
        intro old hmem hkept
        rw [hreplaced] at hmem
        have hheld := full.connections.agree.getBySocket_of hmem
        have hkeys := full.connections.agree.keys hmem
        have huser := (hbefore old (hsound.settled hheld).1).mp hkept
        exact hnew (hkeys.1.symm.trans huser)
      refine ⟨⟨fun {socket} hkept => ?_, ?_⟩, fun socket hkept => ?_⟩
      · rw [ConnectionRegistry.getBySocket_of_add hadd, if_neg, if_neg]
        · rintro ⟨old, hmem, rfl⟩
          exact hold old hmem hkept
        · rintro rfl
          exact hdropped hkept
      · rw [hindexes, Indexes.devicesOf_add]
        exact (if_neg (Ne.symm hnew)).symm
      · rw [List.eq_nil_iff_forall_not_mem]
        intro output houtput
        rcases List.mem_append.mp (Server.mem_outputsFor.mp houtput) with
          hclose | hlast
        · obtain ⟨old, hmem, heq⟩ := List.mem_map.mp hclose
          have hsocket : old.socket = socket := congrArg Effect.socket heq
          exact hold old (Option.mem_toList.mp hmem) (hsocket ▸ hkept)
        · have hsocket : socket = action.socket :=
            congrArg Effect.socket (List.mem_singleton.mp hlast)
          exact hdropped (hsocket ▸ hkept)
  | closed =>
      refine ⟨⟨fun {socket} hkept => ?_, ?_⟩, fun _ _ => rfl⟩
      · dsimp only [answer]
        rw [ConnectionRegistry.getBySocket_removeBySocket, if_neg]
        rintro rfl
        exact hdropped hkept
      · dsimp only [answer]
        rw [ConnectionRegistry.removeBySocket_indexes]
        cases hheld : full.connections.getBySocket action.socket with
        | none => rfl
        | some connection =>
            dsimp only
            rw [Indexes.devicesOf_drop, if_neg]
            rintro huser
            refine hdropped ?_
            rw [← ConnectionRegistry.socket_eq hheld]
            exact (hbefore connection (hsound.settled hheld).1).mpr huser.symm

/-- An event of a socket that is not kept. -/
theorem Mirrors.dropped_step (hmirrors : Mirrors kept user full alone)
    (hsound : Sound schema past full)
    (hstep : (Server.machine schema).step full action = some full')
    (hsorted : Sorted kept user full') (hdropped : ¬ kept action.socket) :
    Mirrors kept user full' alone := by
  obtain ⟨reaction, -, hturn, rfl⟩ := step_eq_some hstep
  obtain ⟨halike, hquiet⟩ := dropped_turn hsound hturn hsorted hdropped
  constructor
  · refine ⟨fun hkept => ?_, ?_⟩
    · exact (hmirrors.connections.bySocket hkept).trans (halike.bySocket hkept)
    · exact hmirrors.connections.devices.trans halike.devices
  · intro socket hkept
    have hne : socket ≠ action.socket := fun heq => hdropped (heq ▸ hkept)
    rw [after_clients_of_ne hne, hquiet socket hkept, hmirrors.clients hkept]
    exact Option.map_id'.symm

/-- Registrations are never forgotten. -/
theorem registrations_subset {actions : List Action}
    (hrun : (Server.machine schema).run full actions = some full') :
    full.registrations ⊆ full'.registrations := by
  have hgrows : ∀ (relay : Server) action next,
      full.registrations ⊆ relay.registrations →
        (Server.machine schema).step relay action = some next →
          full.registrations ⊆ next.registrations := by
    intro relay action next hsubset hstep
    obtain ⟨reaction, -, -, rfl⟩ := step_eq_some hstep
    exact List.Subset.trans hsubset (List.subset_append_left _ _)
  exact Machine.run_of_step_invariant hgrows (List.Subset.refl _) hrun

/-- Leaving out the events of the sockets that are not kept. -/
theorem Mirrors.run [DecidablePred kept] {actions : List Action}
    (hmirrors : Mirrors kept user full alone) (hsound : Sound schema past full)
    (hrun : (Server.machine schema).run full actions = some full')
    (hsorted : Sorted kept user full') :
    ∃ alone', (Server.machine schema).run alone
        (actions.filter fun action => kept action.socket) = some alone' ∧
      Mirrors kept user full' alone' := by
  induction actions generalizing past full alone with
  | nil =>
      obtain rfl := Option.some.inj hrun
      exact ⟨alone, rfl, hmirrors⟩
  | cons action actions ih =>
      obtain ⟨next, hstep, hrest⟩ := Option.bind_eq_some_iff.mp hrun
      have hsortedNext : Sorted kept user next := fun connection hmem =>
        hsorted connection (registrations_subset hrest hmem)
      by_cases hkept : kept action.socket
      · obtain ⟨aloneNext, haloneStep, hnext⟩ :=
          hmirrors.kept_step hsound hstep hsortedNext hkept
        obtain ⟨alone', halone, hmirrors'⟩ := ih hnext (hsound.step hstep) hrest
        have hfilter : (action :: actions).filter
            (fun action => kept action.socket) =
            action :: actions.filter fun action => kept action.socket :=
          List.filter_cons_of_pos (decide_eq_true hkept)
        refine ⟨alone', ?_, hmirrors'⟩
        rw [hfilter, Machine.run, haloneStep, Option.bind_some, halone]
      · have hnext := hmirrors.dropped_step hsound hstep hsortedNext hkept
        obtain ⟨alone', halone, hmirrors'⟩ := ih hnext (hsound.step hstep) hrest
        have hfilter : (action :: actions).filter
            (fun action => kept action.socket) =
            actions.filter fun action => kept action.socket :=
          List.filter_cons_of_neg (by simpa using hkept)
        exact ⟨alone', hfilter ▸ halone, hmirrors'⟩

end Mirrors

/-! ## Users are isolated -/

theorem registersAsOther_iff {registrations : List Connection}
    {user : Identifier} {socket : Socket} :
    registersAsOther registrations user socket = true ↔
      ∃ connection ∈ registrations,
        connection.socket = socket ∧ connection.userId ≠ user := by
  simp [registersAsOther]

/-- Without the events of the sockets that register as other users, every socket
of a user is sent the same, and so is every socket that never registers. -/
theorem users_are_isolated {actions : List Action} {relay : Server}
    (hrun : (Server.machine schema).run Server.initial actions = some relay)
    (user : Identifier) :
    ∃ alone,
      (Server.machine schema).run Server.initial
          (actions.filter fun action =>
            ¬ registersAsOther relay.registrations user action.socket) =
        some alone ∧
      (∀ connection ∈ relay.registrations, connection.userId = user →
        alone.outputOf connection.socket = relay.outputOf connection.socket) ∧
      ∀ socket, (∀ connection ∈ relay.registrations,
        connection.socket ≠ socket) →
          alone.outputOf socket = relay.outputOf socket := by
  have hsound := sound_of_run hrun
  have hsorted : Sorted
      (fun socket => ¬ registersAsOther relay.registrations user socket) user
      relay := by
    intro connection hmem
    dsimp only
    rw [registersAsOther_iff]
    constructor
    · intro hnone
      by_contra hne
      exact hnone ⟨connection, hmem, rfl, hne⟩
    · rintro huser ⟨other, hother, hsocket, hne⟩
      have hsame : other = connection :=
        List.inj_on_of_nodup_map hsound.once hother hmem hsocket
      exact hne (hsame ▸ huser)
  obtain ⟨alone, halone, hmirrors⟩ :=
    Mirrors.run ⟨⟨fun _ => rfl, rfl⟩, fun _ => rfl⟩ sound_initial hrun hsorted
  have hsame : ∀ socket,
      ¬ registersAsOther relay.registrations user socket →
        alone.outputOf socket = relay.outputOf socket := by
    intro socket hkept
    rw [Server.outputOf, Server.outputOf, hmirrors.clients hkept]
  refine ⟨alone, halone, fun connection hmem huser =>
    hsame _ ((hsorted connection hmem).mpr huser), fun socket hnone => ?_⟩
  refine hsame socket ?_
  rw [registersAsOther_iff]
  rintro ⟨connection, hmem, hsocket, -⟩
  exact hnone connection hmem hsocket

/-- Devices of two users with the same device ID, and a test message that has no
other device to go to. -/
def twoUsers : List Action :=
  [⟨1, .connect⟩, ⟨2, .connect⟩, ⟨1, .message [0] false⟩,
    ⟨2, .message [0] false⟩, ⟨2, .verified 0 (.ok ⟨"other", by decide⟩)⟩,
    ⟨1, .verified 0 (.ok exampleUser)⟩, ⟨2, .message [2] false⟩,
    ⟨1, .message [1] false⟩]

theorem users_are_isolated_twoUsers :
    ∃ relay alone,
      (Server.machine (wordSchema exampleDevice)).run Server.initial twoUsers =
        some relay ∧
      (Server.machine (wordSchema exampleDevice)).run Server.initial
        (twoUsers.filter fun action => action.socket = 1) = some alone ∧
      alone.outputOf 1 = relay.outputOf 1 := by
  have hruns : ((Server.machine (wordSchema exampleDevice)).run Server.initial
      twoUsers).isSome := by decide
  obtain ⟨relay, hrun⟩ := Option.isSome_iff_exists.mp hruns
  have hregistrations : (((Server.machine (wordSchema exampleDevice)).run
      Server.initial twoUsers).map Server.registrations) =
        some [⟨⟨"other", by decide⟩, exampleDevice, 2⟩,
          ⟨exampleUser, exampleDevice, 1⟩] := by decide
  rw [hrun, Option.map_some, Option.some.injEq] at hregistrations
  obtain ⟨alone, halone, hsame, -⟩ := users_are_isolated hrun exampleUser
  rw [hregistrations] at halone hsame
  exact ⟨relay, alone, hrun, halone,
    hsame ⟨exampleUser, exampleDevice, 1⟩ (by decide) rfl⟩

end Cled.Relay
