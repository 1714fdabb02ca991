import Cled.Desktop.Asking
import Cled.Relay.Live

/-!
# Each test message gets its own answer

Whatever else goes over the connection and whatever the other sockets do, the
relay answers the test messages of a session one by one, and nothing else that
it sends passes for an answer.  So the replies that the session hands out, first
in first out, are the relay's answers to those very messages.
-/

namespace Cled.Desktop

open Cled.Core Cled.Clipboard Cled.Sync Cled.Relay

namespace RelayLink

variable {schema : ClientSchema} {wording : Wording} {format : UuidFormat}
  {mine : Connection} {link : RelayLink}

/-! ## The invariant -/

def tickets (requests : List Request) : List ℕ :=
  requests.filterMap Request.ticket

/-- Frames that are sent lead to another device. -/
def Leads (mine : Connection) : Request → Prop
  | .frame data => LeadsAway mine.deviceId data
  | _ => True

structure InOrder (mine : Connection) (link : RelayLink) : Prop where
  seated : Seated link.relay mine
  leads : ∀ request ∈ link.requests, Leads mine request
  skipped : link.skipped ≤ (link.relay.outputOf mine.socket).length
  /-- The relay answers test messages in their order. -/
  asked : link.answers.map Prod.fst ++ tickets link.requests = link.asked
  /-- What it sends are the answers, as long as the socket is open. -/
  sent : (link.inbox mine.socket).filterMap replyIn <+:
    link.answers.map Prod.snd
  all : IsOpen link.relay mine.socket →
    (link.inbox mine.socket).filterMap replyIn = link.answers.map Prod.snd
  read : link.read ≤ (link.inbox mine.socket).length
  reported : link.session.reported.map Prod.snd =
    ((link.inbox mine.socket).take link.read).filterMap replyIn
  waiting : link.session.reported.map Prod.fst ++ link.session.pending =
    link.asked

/-- A step of the relay that answers these requests in this way. -/
theorem InOrder.relayed (hinorder : link.InOrder mine) {relay : Server}
    {requests : List Request} {added : List Output}
    (new : List (ℕ × Reply)) (hseated : Seated relay mine)
    (hleads : ∀ request ∈ requests, Leads mine request)
    (hgrows : relay.outputOf mine.socket =
      link.relay.outputOf mine.socket ++ added)
    (hbefore : IsOpen relay mine.socket → IsOpen link.relay mine.socket)
    (hclosed : ¬ IsOpen link.relay mine.socket → added = [])
    (hopen : IsOpen link.relay mine.socket →
      added.filterMap replyIn = new.map Prod.snd)
    (hasked : tickets link.requests = new.map Prod.fst ++ tickets requests) :
    InOrder mine
      { link with relay, requests, answers := link.answers ++ new } := by
  let next : RelayLink :=
    { link with relay, requests, answers := link.answers ++ new }
  have hinbox : next.inbox mine.socket = link.inbox mine.socket ++ added := by
    rw [inbox, hgrows, List.drop_append_of_le_length hinorder.skipped]
    rfl
  have hanswers : next.answers.map Prod.snd =
      link.answers.map Prod.snd ++ new.map Prod.snd := List.map_append
  change InOrder mine next
  refine
    { seated := hseated
      leads := hleads
      skipped := ?_
      asked := ?_
      sent := ?_
      all := fun hstill => ?_
      read := ?_
      reported := ?_
      waiting := hinorder.waiting }
  · change link.skipped ≤ (relay.outputOf mine.socket).length
    rw [hgrows, List.length_append]
    exact hinorder.skipped.trans (Nat.le_add_right _ _)
  · change (link.answers ++ new).map Prod.fst ++ tickets requests = link.asked
    rw [List.map_append, List.append_assoc, ← hasked]
    exact hinorder.asked
  · rw [hinbox, List.filterMap_append, hanswers]
    by_cases hwas : IsOpen link.relay mine.socket
    · rw [hinorder.all hwas, hopen hwas]
    · rw [hclosed hwas, List.filterMap_nil, List.append_nil]
      exact hinorder.sent.trans (List.prefix_append _ _)
  · have hwas := hbefore hstill
    rw [hinbox, List.filterMap_append, hanswers, hinorder.all hwas, hopen hwas]
  · rw [hinbox, List.length_append]
    exact hinorder.read.trans (Nat.le_add_right _ _)
  · change link.session.reported.map Prod.snd =
      ((next.inbox mine.socket).take link.read).filterMap replyIn
    rw [hinbox, List.take_append_of_le_length hinorder.read]
    exact hinorder.reported

/-- What a reaction sends is all there is to read of it. -/
theorem exists_added {relay : Server} {action : Relay.Action}
    {reaction : Reaction} (hseated : Seated relay mine)
    (hturn : Turn schema relay.connections action.socket
      (relay.clients action.socket) action.event reaction) :
    ∃ added, (relay.after action.socket reaction).outputOf mine.socket =
        relay.outputOf mine.socket ++ added ∧
      added ⊆ Server.outputsFor reaction.effects mine.socket ∧
      (¬ IsOpen relay mine.socket → added = []) := by
  obtain ⟨added, hadded, hsubset⟩ := outputOf_after hturn mine.socket
  refine ⟨added, hadded, hsubset, fun hclosed => ?_⟩
  have hsame := hseated.outputOf_of_not_open hturn hclosed
  exact List.append_right_eq_self.mp (hadded.symm.trans hsame)

theorem filterMap_replyIn_of_quiet {outputs meant : List Output}
    (hsubset : outputs ⊆ meant) (hquiet : ∀ output ∈ meant, replyIn output = none) :
    outputs.filterMap replyIn = [] :=
  List.filterMap_eq_nil_iff.mpr fun output hmem => hquiet output (hsubset hmem)

/-- A reply is a confirmation or an error. -/
theorem isAnswer_of_replyIn {output : Output} {reply : Reply}
    (hreply : replyIn output = some reply) : output.IsAnswer := by
  cases output with
  | text message =>
      cases message with
      | sent _ => trivial
      | error _ _ => trivial
      | registered _ _ => cases hreply
      | message _ _ _ => cases hreply
      | devices _ => cases hreply
  | binary _ => cases hreply
  | close _ _ => cases hreply

/-- An event that is not a message of the session. -/
theorem InOrder.other (hinorder : link.InOrder mine) {action : Relay.Action}
    (hother : ¬ (action.socket = mine.socket ∧ action.event.isMessage))
    {relay : Server}
    (hstep : (Server.machine schema).step link.relay action = some relay) :
    InOrder mine { link with relay } := by
  obtain ⟨reaction, hreaction, hturn, rfl⟩ := step_eq_some hstep
  have hevent : action.socket = mine.socket → ∀ data accessToken deviceId,
      action.event = .message data false →
        parseClientMessage schema data ≠ .ok (.register accessToken deviceId) := by
    intro hself data _ _ hmessage
    exact absurd ⟨hself, by rw [hmessage]; rfl⟩ hother
  obtain ⟨added, hadded, hsubset, hclosed⟩ := exists_added hinorder.seated hturn
  have hquiet : IsOpen link.relay mine.socket → added.filterMap replyIn = [] := by
    intro hopen
    refine filterMap_replyIn_of_quiet hsubset fun output hmem => ?_
    by_cases hself : action.socket = mine.socket
    · -- Its own events but messages are not answered.
      have hheld := hinorder.seated.registered hopen
      obtain ⟨client, hclient, hverifying, _⟩ := hinorder.seated
      rw [hself] at hturn
      have hown := hturn.of_mem hclient
      generalize action.event = event at hown hother
      rw [Server.mem_outputsFor] at hmem
      cases hown with
      | answered => exact absurd ⟨hself, rfl⟩ hother
      | asked => exact absurd ⟨hself, rfl⟩ hother
      | refused _ _ _ hindex => rw [hverifying] at hindex; cases hindex
      | registered hindex => rw [hverifying] at hindex; cases hindex
      | timedOut effects heffects =>
          rw [heffects, hheld] at hmem
          exact absurd hmem List.not_mem_nil
      | left => exact absurd hmem List.not_mem_nil
      | closed => exact absurd hmem List.not_mem_nil
    · cases hreply : replyIn output with
      | none => rfl
      | some reply =>
          have honly := answersOnly_react hreaction _
            (Server.mem_outputsFor.mp hmem) (isAnswer_of_replyIn hreply)
          exact absurd honly.symm hself
  have hrelayed := hinorder.relayed []
    (hinorder.seated.step hturn hevent) hinorder.leads hadded
    (hinorder.seated.isOpen_before hturn) hclosed hquiet rfl
  rwa [List.append_nil] at hrelayed

/-! ## A request of the session -/

/-- Few enough devices that their number fits the confirmation. -/
def Countable (relay : Server) (socket : Socket) : Prop :=
  ∀ sender ∈ relay.connections.getBySocket socket,
    (otherConnections relay.connections sender).length < 4294967296

instance (relay : Server) (socket : Socket) :
    Decidable (Countable relay socket) :=
  inferInstanceAs
    (Decidable (∀ sender ∈ relay.connections.getBySocket socket, _))

/-- A test message is answered at once, with one reply and nothing else. -/
theorem exists_reply (hwording : wording.Understood schema) {relay : Server}
    {socket : Socket} (hfew : Countable relay socket) (client : Client)
    (body : String) :
    ∃ effects message reply,
      handleFrame schema relay.connections socket client (wording.test body)
          false = answer relay.connections client effects ∧
        Server.outputsFor effects socket = [.text message] ∧
        replyOf message = some reply := by
  rcases hwording.test body with hparse | ⟨error, hparse⟩
  · unfold handleFrame
    rw [hparse]
    cases hsender : relay.connections.getBySocket socket with
    | none => exact ⟨_, _, _, rfl, outputsFor_self _ _, rfl⟩
    | some sender =>
        obtain rfl := ConnectionRegistry.socket_eq hsender
        have hcount := hfew sender hsender
        have hreply : ∃ reply, replyOf (testAnswer relay.connections sender) =
            some reply := by
          unfold testAnswer
          dsimp only
          split
          · exact ⟨_, rfl⟩
          · exact ⟨_, if_pos hcount⟩
        obtain ⟨reply, hreply⟩ := hreply
        exact ⟨_, _, _, rfl, outputsFor_deliverMessage hsender body, hreply⟩
  · obtain ⟨code, text, rfl⟩ := parseClientMessage_error hparse
    unfold handleFrame
    rw [hparse]
    exact ⟨_, _, _, rfl, outputsFor_self _ _, rfl⟩

/-- Nothing else that a registered session asks for is answered with a
reply. -/
theorem no_reply (hwording : wording.Understood schema) {relay : Server}
    (hheld : relay.connections.getBySocket mine.socket = some mine)
    (client : Client) {request : Request} (hleads : Leads mine request)
    (hticket : request.ticket = none) {reaction : Reaction}
    (hreact : react schema relay.connections (some client)
      ⟨mine.socket, request.event wording⟩ = some reaction) :
    ∀ output ∈ Server.outputsFor reaction.effects mine.socket,
      replyIn output = none := by
  cases request with
  | test ticket body => cases hticket
  | devices =>
      simp only [react, Request.event] at hreact
      split at hreact
      · cases hreact
      obtain rfl := Option.some.inj hreact
      unfold handleFrame
      rw [hwording.devices, hheld]
      change ∀ output ∈ Server.outputsFor
        (listDevices relay.connections mine) mine.socket, replyIn output = none
      rw [listDevices, Relay.send, outputsFor_self]
      exact List.forall_mem_singleton.mpr rfl
  | frame data =>
      simp only [react, Request.event] at hreact
      split at hreact
      · cases hreact
      obtain rfl := Option.some.inj hreact
      unfold handleFrame
      rw [hheld]
      intro output hmem
      obtain ⟨frame, rfl⟩ :=
        outputsFor_forwardTunnelFrame hheld hleads output hmem
      rfl

/-- The one thing that an open socket is sent. -/
theorem outputOf_of_single {relay : Server} {effects : List Effect}
    {client : Client} (hclient : client ∈ relay.clients mine.socket)
    (hstate : client.readyState = .open) {output : Output}
    (honly : Server.outputsFor effects mine.socket = [output]) :
    (relay.after mine.socket (answer relay.connections client effects)).outputOf
        mine.socket = relay.outputOf mine.socket ++ [output] := by
  rw [Server.outputOf, after_clients_self, Server.outputOf,
    Option.mem_def.mp hclient]
  change ((client.putAll (Server.outputsFor effects mine.socket)).output) = _
  rw [honly]
  change (client.put output).output = client.output ++ [output]
  rw [Client.put, if_pos hstate]

theorem not_register (hwording : wording.Understood schema)
    {request : Request} {data : Bytes} {accessToken : String}
    {deviceId : Identifier}
    (hevent : request.event wording = .message data false) :
    parseClientMessage schema data ≠ .ok (.register accessToken deviceId) := by
  cases request with
  | test ticket body =>
      obtain ⟨rfl, _⟩ := Event.message.inj hevent
      rcases hwording.test body with hparse | ⟨error, hparse⟩
      · rw [hparse]
        exact nofun
      · rw [hparse]
        exact nofun
  | devices =>
      obtain ⟨rfl, _⟩ := Event.message.inj hevent
      rw [hwording.devices]
      exact nofun
  | frame data => exact absurd (Event.message.inj hevent).2 nofun

/-- The relay handles the next request. -/
theorem InOrder.handled (hwording : wording.Understood schema)
    (hinorder : link.InOrder mine) (hfew : Countable link.relay mine.socket)
    {request : Request} {requests : List Request}
    (hrequests : link.requests = request :: requests) {reaction : Reaction}
    (hreaction : link.relay.reaction schema
      ⟨mine.socket, request.event wording⟩ = some reaction) :
    InOrder mine
      { link with
        relay := link.relay.after mine.socket reaction
        requests
        answers := link.answers ++ request.ticket.toList.flatMap fun ticket =>
          (answersIn mine.socket reaction).map (ticket, ·) } := by
  have hturn := react_turn hreaction
  have hseated := hinorder.seated
  obtain ⟨client, hclient, hverifying, hheld⟩ := hinorder.seated
  have hleads : ∀ other ∈ requests, Leads mine other := fun other hmem =>
    hinorder.leads other (hrequests ▸ List.mem_cons_of_mem _ hmem)
  have hfirst : Leads mine request :=
    hinorder.leads request (hrequests ▸ List.mem_cons_self)
  have hreact : react schema link.relay.connections (some client)
      ⟨mine.socket, request.event wording⟩ = some reaction := by
    rwa [Server.reaction, Option.mem_def.mp hclient] at hreaction
  obtain ⟨added, hadded, hsubset, hclosed⟩ := exists_added hseated hturn
  have hnext := hseated.step hturn fun _ _ _ _ => not_register hwording
  have hbefore := hseated.isOpen_before hturn
  cases hticket : request.ticket with
  | none =>
      refine hinorder.relayed [] hnext hleads hadded hbefore hclosed
        (fun hopen => ?_) ?_
      · exact filterMap_replyIn_of_quiet hsubset
          (no_reply hwording (hseated.registered hopen) client hfirst hticket hreact)
      · rw [hrequests, tickets, List.filterMap_cons, hticket]
        rfl
  | some ticket =>
      cases request with
      | devices => cases hticket
      | frame _ => cases hticket
      | test number body =>
          obtain rfl := Option.some.inj hticket
          obtain ⟨effects, message, reply, hframe, honly, hreply⟩ :=
            exists_reply hwording hfew client body
          simp only [react, Request.event] at hreact
          split at hreact
          · cases hreact
          obtain rfl := Option.some.inj (hreact.symm.trans
            (congrArg some hframe))
          have hanswers : answersIn mine.socket
              (answer link.relay.connections client effects) = [reply] := by
            change (Server.outputsFor effects mine.socket).filterMap replyIn = _
            rw [honly]
            exact List.filterMap_cons_some hreply
          rw [hanswers]
          refine hinorder.relayed _ hnext hleads hadded hbefore hclosed
            (fun hopen => ?_) ?_
          · obtain ⟨other, hother, hstate⟩ := hopen
            obtain rfl := Option.some.inj (hclient.symm.trans hother)
            have hone := outputOf_of_single hclient hstate honly
            rw [List.append_cancel_left (hadded.symm.trans hone)]
            exact List.filterMap_cons_some hreply
          · rw [hrequests, tickets, List.filterMap_cons]
            rfl

/-! ## The session's steps -/

/-- The session sends requests. -/
theorem InOrder.send (hinorder : link.InOrder mine) {requests : List Request}
    (hleads : ∀ request ∈ requests, Leads mine request)
    (hquiet : tickets requests = []) : (link.send requests).InOrder mine :=
  { hinorder with
    leads := fun request hmem => (List.mem_append.mp hmem).elim
      (hinorder.leads request) (hleads request)
    asked := by
      change link.answers.map Prod.fst ++ tickets (link.requests ++ requests) =
        link.asked
      rw [tickets, List.filterMap_append, ← tickets, ← tickets, hquiet,
        List.append_nil]
      exact hinorder.asked }

/-- The session changes in what no reply depends on. -/
theorem InOrder.session (hinorder : link.InOrder mine)
    {session : RelaySession} (hpending : session.pending = link.session.pending)
    (hreported : session.reported = link.session.reported) :
    InOrder mine { link with session } :=
  { hinorder with
    reported := hreported ▸ hinorder.reported
    waiting := by
      change session.reported.map Prod.fst ++ session.pending = link.asked
      rw [hpending, hreported]
      exact hinorder.waiting }

/-- A test message is sent. -/
theorem InOrder.ask (hinorder : link.InOrder mine) (ticket : ℕ)
    (body : String) :
    InOrder mine
      { link.send [.test ticket body] with
        session :=
          { link.session with pending := link.session.pending ++ [ticket] }
        asked := link.asked ++ [ticket] } :=
  { hinorder with
    leads := fun request hmem => (List.mem_append.mp hmem).elim
      (hinorder.leads request)
      fun hlast => List.mem_singleton.mp hlast ▸ trivial
    asked := by
      change link.answers.map Prod.fst ++
        tickets (link.requests ++ [.test ticket body]) = link.asked ++ [ticket]
      rw [tickets, List.filterMap_append, ← tickets, ← List.append_assoc,
        hinorder.asked]
      rfl
    waiting := by
      change link.session.reported.map Prod.fst ++
        (link.session.pending ++ [ticket]) = link.asked ++ [ticket]
      rw [← List.append_assoc, hinorder.waiting] }

/-- There are no more replies than test messages. -/
theorem InOrder.length_replies_le (hinorder : link.InOrder mine) :
    ((link.inbox mine.socket).filterMap replyIn).length ≤ link.asked.length := by
  have hanswers := hinorder.sent.length_le
  rw [List.length_map] at hanswers
  refine hanswers.trans ?_
  rw [← hinorder.asked, List.length_append, List.length_map]
  exact Nat.le_add_right _ _

theorem take_succ_filterMap {outputs : List Output} {index : ℕ}
    {output : Output} (hindex : outputs[index]? = some output) :
    (outputs.take (index + 1)).filterMap replyIn =
      (outputs.take index).filterMap replyIn ++ (replyIn output).toList := by
  rw [List.take_add_one, hindex, List.filterMap_append]
  cases hreply : replyIn output with
  | none => simp [hreply]
  | some reply => simp [hreply]

/-- A reply always finds the test message that waits for it. -/
theorem InOrder.exists_pending (hinorder : link.InOrder mine)
    {output : Output} (hnext : (link.inbox mine.socket)[link.read]? = some output)
    {reply : Reply} (hreply : replyIn output = some reply) :
    ∃ ticket pending, link.session.pending = ticket :: pending := by
  refine List.exists_cons_of_ne_nil fun hnone => ?_
  have hwaiting := hinorder.waiting
  rw [hnone, List.append_nil] at hwaiting
  have hreported := congrArg List.length hinorder.reported
  rw [List.length_map, ← List.length_map Prod.fst, hwaiting] at hreported
  have hmore := take_succ_filterMap hnext
  rw [hreply] at hmore
  have hlength := congrArg List.length hmore
  rw [List.length_append, ← hreported] at hlength
  have hle := ((List.take_prefix (link.read + 1)
    (link.inbox mine.socket)).filterMap replyIn).length_le
  have hall := hinorder.length_replies_le
  rw [hlength] at hle
  exact absurd (hle.trans hall) (Nat.not_succ_le_self _)

/-- The session reads on. -/
theorem InOrder.next (hinorder : link.InOrder mine) {output : Output}
    (hnext : (link.inbox mine.socket)[link.read]? = some output) :
    InOrder mine
      { link with
        session := link.session.onOutput format output
        read := link.read + 1 } := by
  have hread : link.read + 1 ≤ (link.inbox mine.socket).length :=
    (List.getElem?_eq_some_iff.mp hnext).1
  have hmore := take_succ_filterMap hnext
  rw [← hinorder.reported] at hmore
  cases hreply : replyIn output with
  | none =>
      have hsame : (link.session.onOutput format output).pending =
          link.session.pending ∧
        (link.session.onOutput format output).reported =
          link.session.reported := by
        cases output with
        | binary _ => exact ⟨rfl, rfl⟩
        | close _ _ => exact ⟨rfl, rfl⟩
        | text message =>
            have hnone : replyOf message = none := hreply
            cases message with
            | message _ _ _ => exact ⟨rfl, rfl⟩
            | registered _ _ => exact ⟨rfl, rfl⟩
            | devices _ => exact ⟨rfl, rfl⟩
            | sent _ =>
                simp only [RelaySession.onOutput, RelaySession.onMessage, hnone]
                exact ⟨rfl, rfl⟩
            | error _ _ => cases hnone
      rw [hreply, Option.toList_none, List.append_nil] at hmore
      have hkept := hinorder.session hsame.1 hsame.2
      exact
        { hkept with
          read := hread
          reported := hkept.reported.trans (hinorder.reported.symm.trans hmore.symm) }
  | some reply =>
      obtain ⟨ticket, pending, hpending⟩ := hinorder.exists_pending hnext hreply
      have hdone : link.session.onOutput format output =
          { link.session with
            pending
            reported := link.session.reported ++ [(ticket, reply)] } := by
        have hset : link.session.onOutput format output =
            link.session.reply reply := by
          cases output with
          | binary _ => cases hreply
          | close _ _ => cases hreply
          | text message =>
              have hsome : replyOf message = some reply := hreply
              cases message with
              | message _ _ _ => cases hsome
              | registered _ _ => cases hsome
              | devices _ => cases hsome
              | sent _ =>
                  simp only [RelaySession.onOutput, RelaySession.onMessage, hsome]
                  rfl
              | error _ _ =>
                  simp only [RelaySession.onOutput, RelaySession.onMessage, hsome]
                  rfl
        rw [hset, RelaySession.reply, hpending]
      rw [hdone]
      exact
        { hinorder with
          read := hread
          reported := by
            change (link.session.reported ++ [(ticket, reply)]).map Prod.snd =
              ((link.inbox mine.socket).take (link.read + 1)).filterMap replyIn
            rw [hmore, hreply, List.map_append]
            rfl
          waiting := by
            change (link.session.reported ++ [(ticket, reply)]).map Prod.fst ++
              pending = link.asked
            rw [← hinorder.waiting, hpending, List.map_append, List.append_assoc]
            rfl }

/-! ## Runs -/

/-- Frames lead to other devices, and the relay can count the devices of the
account. -/
def Ordinary (mine : Connection) (link : RelayLink) : LinkAction → Prop
  | .dial frames => ∀ frame ∈ frames, LeadsAway mine.deviceId frame
  | .pumped frame => LeadsAway mine.deviceId frame
  | .next frames => ∀ frame ∈ frames, LeadsAway mine.deviceId frame
  | .handled => Countable link.relay mine.socket
  | _ => True

instance (mine : Connection) (link : RelayLink) :
    DecidablePred (link.Ordinary mine)
  | .dial frames => inferInstanceAs (Decidable (∀ frame ∈ frames, _))
  | .pumped _ => inferInstanceAs (Decidable (LeadsAway _ _))
  | .next frames => inferInstanceAs (Decidable (∀ frame ∈ frames, _))
  | .handled => inferInstanceAs (Decidable (Countable _ _))
  | .ask _ _ => .isTrue trivial
  | .pair _ => .isTrue trivial
  | .ended => .isTrue trivial
  | .other _ => .isTrue trivial

theorem leads_frames {frames : List Bytes}
    (haway : ∀ frame ∈ frames, LeadsAway mine.deviceId frame) :
    ∀ request ∈ frames.map Request.frame, Leads mine request :=
  List.forall_mem_map.mpr haway

theorem tickets_frames (frames : List Bytes) :
    tickets (frames.map .frame) = [] := by
  rw [tickets, List.filterMap_map]
  exact List.filterMap_eq_nil_iff.mpr fun _ _ => rfl

theorem InOrder.step (hwording : wording.Understood schema)
    {link next : RelayLink} {action : LinkAction}
    (hinorder : link.InOrder mine) (hordinary : link.Ordinary mine action)
    (hstep : (machine schema wording format mine.socket).step link action =
      some next) : next.InOrder mine := by
  change link.step schema wording format mine.socket action = some next at hstep
  cases action with
  | ask ticket body =>
      obtain ⟨_, hnext⟩ := Option.ite_none_right_eq_some.mp hstep
      obtain rfl := Option.some.inj hnext
      exact hinorder.ask ticket body
  | pair ticket =>
      obtain ⟨_, hnext⟩ := Option.ite_none_right_eq_some.mp hstep
      split at hnext
      · obtain rfl := Option.some.inj hnext
        exact hinorder
      · obtain rfl := Option.some.inj hnext
        have hsent : (link.send [.devices]).InOrder mine :=
          hinorder.send (List.forall_mem_singleton.mpr trivial) rfl
        exact hsent.session rfl rfl
  | dial frames =>
      obtain ⟨_, hnext⟩ := Option.ite_none_right_eq_some.mp hstep
      obtain rfl := Option.some.inj hnext
      refine hinorder.send (fun request hmem => ?_) ?_
      · exact (List.mem_append.mp hmem).elim (leads_frames hordinary request)
          fun hlast => List.mem_singleton.mp hlast ▸ trivial
      · rw [tickets, List.filterMap_append, ← tickets, tickets_frames]
        rfl
  | pumped frame =>
      obtain ⟨_, hnext⟩ := Option.ite_none_right_eq_some.mp hstep
      obtain rfl := Option.some.inj hnext
      exact hinorder.send (List.forall_mem_singleton.mpr hordinary) rfl
  | next frames =>
      obtain ⟨_, hnext⟩ := Option.ite_none_right_eq_some.mp hstep
      obtain ⟨output, houtput, hread⟩ := Option.bind_eq_some_iff.mp hnext
      obtain ⟨_, hdone⟩ := Option.ite_none_right_eq_some.mp hread
      obtain rfl := Option.some.inj hdone
      exact (hinorder.next houtput).send (leads_frames hordinary)
        (tickets_frames frames)
  | ended =>
      obtain rfl := Option.some.inj hstep
      exact hinorder.session rfl rfl
  | handled =>
      dsimp only [RelayLink.step] at hstep
      split at hstep
      · cases hstep
      · next request requests hrequests =>
        obtain ⟨reaction, hreaction, rfl⟩ := Option.map_eq_some_iff.mp hstep
        exact hinorder.handled hwording hordinary hrequests hreaction
  | other action =>
      obtain ⟨hother, hnext⟩ := Option.ite_none_left_eq_some.mp hstep
      obtain ⟨relay, hrelay, rfl⟩ := Option.map_eq_some_iff.mp hnext
      exact hinorder.other hother hrelay

def phone : Identifier := ⟨"phone", by decide⟩

def laptop : Connection := ⟨exampleUser, exampleDevice, 1⟩

end RelayLink

end Cled.Desktop
