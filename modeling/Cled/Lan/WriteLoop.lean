import Cled.Core.Machine
import Cled.Lan.Arriving
import Cled.Lan.Message

/-!
# The writing half of a session

`write_loop` sends what is queued for a peer, and a ping whenever its interval is
over, until it is told to close, the queue is given up, or the connection breaks.
It may break, or the loop be aborted, in the middle of a message.  The peer then
has some part of what was written, and takes its messages from that.

Times are in milliseconds.
-/

namespace Cled.Lan

open Cled.Clipboard Cled.Core

/-- `PING_INTERVAL`. -/
def pingInterval : ℕ := 15000

namespace WriteLoop

/-- What is queued for a peer. -/
inductive Outgoing where
  | message (bytes : Bytes)
  /-- Send this, then close. -/
  | last (bytes : Bytes)
  | close
  deriving DecidableEq

/-- A message the loop began to send. -/
structure Begun where
  time : ℕ
  message : Bytes
  ping : Bool
  deriving DecidableEq

end WriteLoop

/-- A `write_loop`.  `queued` and `begun` are its history, in no source. -/
structure WriteLoop (State : Type*) where
  now : ℕ
  nextTick : ℕ
  queue : List WriteLoop.Outgoing
  /-- Someone can still queue something. -/
  senders : Bool
  out : Outgoing State
  running : Bool
  queued : List WriteLoop.Outgoing
  begun : List WriteLoop.Begun

namespace WriteLoop

variable {State : Type*}

/-- Breaks off a send after so many bytes, if `cut` says so. -/
inductive Action where
  | queue (outgoing : Outgoing)
  | hangUp
  | pass (ms : ℕ)
  /-- `rx.recv()` is the branch that is ready. -/
  | take (cut : Option ℕ)
  /-- The ticker is. -/
  | ping (cut : Option ℕ)
  deriving DecidableEq

/-- The loop after its first tick, which comes at once. -/
def start (now : ℕ) (noise : State) : WriteLoop State where
  now
  nextTick := now + pingInterval
  queue := []
  senders := true
  out := ⟨noise, []⟩
  running := true
  queued := []
  begun := []

section Step

variable (noise : Noise State)

/-- `cipher.send` on a connection that breaks after so many of its bytes. -/
def sendOver (cut : Option ℕ) (message : Bytes) (out : Lan.Outgoing State) :
    Except LanError Unit × Lan.Outgoing State :=
  let (result, sent) := send noise message out
  match cut with
  | none => (result, sent)
  | some count =>
      (.error (.io "broken pipe"),
        { sent with
          written :=
            out.written ++ (sent.written.drop out.written.length).take count })

/-- Sends a message and, if that fails, stops. -/
def sendAndGoOn (loop : WriteLoop State) (cut : Option ℕ) (ping : Bool)
    (message : Bytes) : WriteLoop State :=
  let (result, out) := sendOver noise cut message loop.out
  { loop with
    out
    running := result.isOk
    begun :=
      if message.length ≤ maxMessageBytes then
        loop.begun ++ [⟨loop.now, message, ping⟩]
      else loop.begun }

/-- `rx.recv()` answers. -/
def take (loop : WriteLoop State) (cut : Option ℕ) : Option (WriteLoop State) :=
  match loop.queue with
  | .message bytes :: rest =>
      some ({ loop with queue := rest }.sendAndGoOn noise cut false bytes)
  | .last bytes :: rest =>
      some
        { { loop with queue := rest }.sendAndGoOn noise cut false bytes with
          running := false }
  | .close :: rest => some { loop with queue := rest, running := false }
  | [] => if loop.senders then none else some { loop with running := false }

/-- `ping` is the encoded ping. -/
def step (ping : Bytes) (loop : WriteLoop State) :
    Action → Option (WriteLoop State)
  | .queue outgoing =>
      if loop.running then
        if loop.senders then
          some
            { loop with
              queue := loop.queue ++ [outgoing]
              queued := loop.queued ++ [outgoing] }
        else none
      else some loop
  | .hangUp => some { loop with senders := false }
  | .pass ms => some { loop with now := loop.now + ms }
  | .take cut => if loop.running then loop.take noise cut else none
  | .ping cut =>
      if loop.running ∧ loop.nextTick ≤ loop.now then
        some
          ({ loop with nextTick := loop.nextTick + pingInterval }.sendAndGoOn
            noise cut true ping)
      else none

def machine (ping : Bytes) : Machine (WriteLoop State) Action where
  step := step noise ping

end Step

/-- What is to be sent of a queue: nothing after the first entry that closes the
connection. -/
def payloads : List Outgoing → List Bytes
  | [] => []
  | .message bytes :: rest => bytes :: payloads rest
  | .last bytes :: _ => [bytes]
  | .close :: _ => []

/-- What the loop began to send. -/
def messages (loop : WriteLoop State) : List Bytes :=
  loop.begun.map Begun.message

/-- What of it was queued. -/
def fromQueue (loop : WriteLoop State) : List Bytes :=
  (loop.begun.filter fun begun => !begun.ping).map Begun.message

theorem payloads_messages_append (done : List Bytes) (rest : List Outgoing) :
    payloads (done.map .message ++ rest) = done ++ payloads rest := by
  induction done with
  | nil => rfl
  | cons bytes done ih =>
      rw [List.map_cons, List.cons_append, payloads, ih, List.cons_append]

/-! ## What a step can do -/

variable {noise : Noise State} {ping : Bytes}

/-- The ways the loop steps. -/
inductive Stepped (noise : Noise State) (ping : Bytes) (loop : WriteLoop State) :
    Action → WriteLoop State → Prop
  | queued (outgoing : Outgoing) (hrunning : loop.running = true) :
      Stepped noise ping loop (.queue outgoing)
        { loop with
          queue := loop.queue ++ [outgoing]
          queued := loop.queued ++ [outgoing] }
  | ignored (outgoing : Outgoing) (hstopped : loop.running = false) :
      Stepped noise ping loop (.queue outgoing) loop
  | hungUp : Stepped noise ping loop .hangUp { loop with senders := false }
  | passed (ms : ℕ) :
      Stepped noise ping loop (.pass ms) { loop with now := loop.now + ms }
  | sent (cut : Option ℕ) (bytes : Bytes) (rest : List Outgoing)
      (hrunning : loop.running = true)
      (hqueue : loop.queue = .message bytes :: rest) :
      Stepped noise ping loop (.take cut)
        ({ loop with queue := rest }.sendAndGoOn noise cut false bytes)
  | sentLast (cut : Option ℕ) (bytes : Bytes) (rest : List Outgoing)
      (hrunning : loop.running = true)
      (hqueue : loop.queue = .last bytes :: rest) :
      Stepped noise ping loop (.take cut)
        { { loop with queue := rest }.sendAndGoOn noise cut false bytes with
          running := false }
  | closed (cut : Option ℕ) (rest : List Outgoing)
      (hrunning : loop.running = true) (hqueue : loop.queue = .close :: rest) :
      Stepped noise ping loop (.take cut)
        { loop with queue := rest, running := false }
  | abandoned (cut : Option ℕ) (hrunning : loop.running = true)
      (hqueue : loop.queue = []) :
      Stepped noise ping loop (.take cut) { loop with running := false }
  | pinged (cut : Option ℕ) (hrunning : loop.running = true)
      (htime : loop.nextTick ≤ loop.now) :
      Stepped noise ping loop (.ping cut)
        ({ loop with nextTick := loop.nextTick + pingInterval }.sendAndGoOn
          noise cut true ping)

theorem stepped {loop next : WriteLoop State} {action : Action}
    (hstep : (machine noise ping).step loop action = some next) :
    Stepped noise ping loop action next := by
  cases action with
  | queue outgoing =>
      simp only [machine, step] at hstep
      split at hstep
      · next hrunning =>
        split at hstep
        · obtain rfl := Option.some.inj hstep
          exact .queued outgoing hrunning
        · cases hstep
      · next hstopped =>
        obtain rfl := Option.some.inj hstep
        exact .ignored outgoing (Bool.eq_false_iff.mpr hstopped)
  | hangUp =>
      obtain rfl := Option.some.inj hstep
      exact .hungUp
  | pass ms =>
      obtain rfl := Option.some.inj hstep
      exact .passed ms
  | take cut =>
      simp only [machine, step] at hstep
      split at hstep
      · next hrunning =>
        unfold take at hstep
        split at hstep
        · next bytes rest hqueue =>
          obtain rfl := Option.some.inj hstep
          exact .sent cut bytes rest hrunning hqueue
        · next bytes rest hqueue =>
          obtain rfl := Option.some.inj hstep
          exact .sentLast cut bytes rest hrunning hqueue
        · next rest hqueue =>
          obtain rfl := Option.some.inj hstep
          exact .closed cut rest hrunning hqueue
        · next hqueue =>
          split at hstep
          · cases hstep
          · obtain rfl := Option.some.inj hstep
            exact .abandoned cut hrunning hqueue
      · cases hstep
  | ping cut =>
      simp only [machine, step] at hstep
      split at hstep
      · next hready =>
        obtain rfl := Option.some.inj hstep
        exact .pinged cut hready.1 hready.2
      · cases hstep

/-! ## What is on the stream -/

/-- What is written is the beginning of everything begun, sent in turn; while the
loop runs it is all of it. -/
structure Streams (noise : Noise State) (inStep : State → State → Prop)
    (first : State) (loop : WriteLoop State) : Prop where
  max : ∀ message ∈ loop.messages, message.length ≤ maxMessageBytes
  wire : ∃ writing reading wire,
    sendAll noise loop.messages ⟨first, []⟩ = (.ok (), ⟨writing, wire⟩) ∧
      inStep writing reading ∧ loop.out.written <+: wire ∧
      (loop.running = true → loop.out = ⟨writing, wire⟩)

theorem sendAll_concat {noise : Noise State} {messages : List Bytes}
    {out next : Lan.Outgoing State} (hsend : sendAll noise messages out = (.ok (), next))
    (message : Bytes) :
    sendAll noise (messages ++ [message]) out = send noise message next := by
  induction messages generalizing out with
  | nil =>
      obtain rfl : out = next := (Prod.mk.inj hsend).2
      rw [List.nil_append, sendAll]
      split <;> simp_all [sendAll]
  | cons first messages ih =>
      rw [sendAll] at hsend
      rw [List.cons_append, sendAll]
      split at hsend
      · cases hsend
      next middle hfirst =>
      exact ih hsend

variable {inStep : State → State → Prop} {first : State}

/-- One more message is begun; it is all on the stream unless the send was cut or
the message is too large to be sent at all. -/
theorem Streams.sendAndGoOn {loop : WriteLoop State}
    (hstreams : loop.Streams noise inStep first) (hnoise : noise.Inverts inStep)
    (hrunning : loop.running = true) (cut : Option ℕ) (isPing : Bool)
    (message : Bytes) :
    (loop.sendAndGoOn noise cut isPing message).Streams noise inStep first ∧
      (message.length ≤ maxMessageBytes → cut = none →
        (loop.sendAndGoOn noise cut isPing message).running = true ∧
          ∃ writing,
            sendAll noise (loop.messages ++ [message]) ⟨first, []⟩ =
              (.ok (), ⟨writing,
                (loop.sendAndGoOn noise cut isPing message).out.written⟩)) := by
  obtain ⟨hmax, writing, reading, wire, hsend, hstep, -, hall⟩ := hstreams
  have hout : loop.out = ⟨writing, wire⟩ := hall hrunning
  by_cases hfits : message.length ≤ maxMessageBytes
  · obtain ⟨more, writing', reading', hone, hstep', -⟩ :=
      send_recv hnoise hfits hstep wire
    have hsendAll : sendAll noise (loop.messages ++ [message]) ⟨first, []⟩ =
        (.ok (), ⟨writing', wire ++ more⟩) := by
      rw [sendAll_concat hsend, hone]
    have hmessages (next : WriteLoop State)
        (hbegun : next.begun = loop.begun ++ [⟨loop.now, message, isPing⟩]) :
        next.messages = loop.messages ++ [message] := by
      rw [messages, hbegun, List.map_append]
      rfl
    have hbegun : (loop.sendAndGoOn noise cut isPing message).begun =
        loop.begun ++ [⟨loop.now, message, isPing⟩] := if_pos hfits
    have hmaxNext : ∀ other ∈ loop.messages ++ [message],
        other.length ≤ maxMessageBytes := by
      intro other hother
      rcases List.mem_append.mp hother with hold | hnew
      · exact hmax other hold
      · exact List.mem_singleton.mp hnew ▸ hfits
    have hover : sendOver noise none message loop.out =
        (.ok (), ⟨writing', wire ++ more⟩) := by
      rw [sendOver, hout, hone]
    constructor
    · constructor
      · rw [hmessages _ hbegun]
        exact hmaxNext
      · refine ⟨writing', reading', wire ++ more, ?_, hstep', ?_, ?_⟩
        · rw [hmessages _ hbegun, hsendAll]
        · cases cut with
          | none =>
              simp only [WriteLoop.sendAndGoOn, hover]
              exact List.prefix_refl _
          | some count =>
              simp only [WriteLoop.sendAndGoOn, sendOver, hout, hone,
                List.drop_left]
              exact (List.prefix_append_right_inj wire).mpr
                (List.take_prefix count more)
        · cases cut with
          | none =>
              intro _
              simp only [WriteLoop.sendAndGoOn, hover]
          | some count =>
              intro hrunningNext
              simp [WriteLoop.sendAndGoOn, sendOver, Except.isOk,
                Except.toBool] at hrunningNext
    · intro _ hcut
      subst hcut
      simp only [WriteLoop.sendAndGoOn, hover]
      exact ⟨rfl, writing', hsendAll⟩
  · have hsendFails : send noise message ⟨writing, wire⟩ =
        (.error (.tooLarge message.length), ⟨writing, wire⟩) := by
      rw [send, if_pos (Nat.lt_of_not_le hfits)]
    have hbegun : (loop.sendAndGoOn noise cut isPing message).begun =
        loop.begun := if_neg hfits
    have hmessages : (loop.sendAndGoOn noise cut isPing message).messages =
        loop.messages := by
      rw [messages, hbegun, messages]
    have hwritten : (loop.sendAndGoOn noise cut isPing message).out.written =
        wire := by
      cases cut <;>
        simp [WriteLoop.sendAndGoOn, sendOver, hout, hsendFails]
    refine ⟨⟨hmessages ▸ hmax, writing, reading, wire, ?_, hstep, ?_, ?_⟩,
      fun hfit => absurd hfit hfits⟩
    · rw [hmessages, hsend]
    · rw [hwritten]
    · intro hrunningNext
      cases cut <;>
        simp [WriteLoop.sendAndGoOn, sendOver, hout, hsendFails, Except.isOk,
          Except.toBool] at hrunningNext

/-- A step that sends nothing and stops at most. -/
theorem Streams.of_same {loop next : WriteLoop State}
    (hstreams : loop.Streams noise inStep first) (hbegun : next.begun = loop.begun)
    (hout : next.out = loop.out)
    (hrunning : next.running = true → loop.running = true) :
    next.Streams noise inStep first := by
  have hmessages : next.messages = loop.messages :=
    congrArg (List.map Begun.message) hbegun
  obtain ⟨hmax, writing, reading, wire, hsend, hstep, hprefix, hall⟩ := hstreams
  exact ⟨hmessages ▸ hmax, writing, reading, wire, hmessages ▸ hsend, hstep,
    hout ▸ hprefix, fun hnext => hout.trans (hall (hrunning hnext))⟩

theorem streams_start (noise : Noise State) (now : ℕ) {reading : State}
    (hstep : inStep first reading) :
    (start now first).Streams noise inStep first :=
  ⟨nofun, first, reading, [], rfl, hstep, List.prefix_refl _, fun _ => rfl⟩

theorem streams_step (hnoise : noise.Inverts inStep) (loop : WriteLoop State)
    (action : Action) (next : WriteLoop State)
    (hstreams : loop.Streams noise inStep first)
    (hstep : (machine noise ping).step loop action = some next) :
    next.Streams noise inStep first := by
  cases stepped hstep with
  | queued outgoing hrunning => exact hstreams.of_same rfl rfl id
  | ignored outgoing hstopped => exact hstreams
  | hungUp => exact hstreams.of_same rfl rfl id
  | passed ms => exact hstreams.of_same rfl rfl id
  | sent cut bytes rest hrunning hqueue =>
      have hrest : { loop with queue := rest }.Streams noise inStep first :=
        hstreams.of_same rfl rfl id
      exact (hrest.sendAndGoOn hnoise hrunning cut false bytes).1
  | sentLast cut bytes rest hrunning hqueue =>
      have hrest : { loop with queue := rest }.Streams noise inStep first :=
        hstreams.of_same rfl rfl id
      exact (hrest.sendAndGoOn hnoise hrunning cut false bytes).1.of_same rfl rfl
        nofun
  | closed cut rest hrunning hqueue => exact hstreams.of_same rfl rfl nofun
  | abandoned cut hrunning hqueue => exact hstreams.of_same rfl rfl nofun
  | pinged cut hrunning htime =>
      have hlater :
          { loop with nextTick := loop.nextTick + pingInterval }.Streams noise
            inStep first := hstreams.of_same rfl rfl id
      exact (hlater.sendAndGoOn hnoise hrunning cut true ping).1

/-! ## What is taken from the queue -/

/-- Only pings come in between, and they are pings.  While the loop runs, what it
took from the queue is the queue's front part. -/
structure Ordered (ping : Bytes) (loop : WriteLoop State) : Prop where
  pings : ∀ begun ∈ loop.begun, begun.ping = true → begun.message = ping
  front : loop.fromQueue <+: payloads loop.queued
  running : loop.running = true →
    loop.queued = loop.fromQueue.map .message ++ loop.queue

theorem begun_sendAndGoOn (noise : Noise State) (loop : WriteLoop State) (cut : Option ℕ)
    (isPing : Bool) (message : Bytes) :
    (loop.sendAndGoOn noise cut isPing message).begun = loop.begun ∨
      (loop.sendAndGoOn noise cut isPing message).begun =
        loop.begun ++ [⟨loop.now, message, isPing⟩] := by
  by_cases hfits : message.length ≤ maxMessageBytes
  · exact .inr (if_pos hfits)
  · exact .inl (if_neg hfits)

theorem fromQueue_of_begun {loop next : WriteLoop State} {time : ℕ}
    {message : Bytes}
    (hbegun : next.begun = loop.begun ++ [⟨time, message, false⟩]) :
    next.fromQueue = loop.fromQueue ++ [message] := by
  rw [fromQueue, hbegun, List.filter_append, List.map_append]
  rfl

theorem fromQueue_of_ping {loop next : WriteLoop State} {time : ℕ}
    {message : Bytes}
    (hbegun : next.begun = loop.begun ++ [⟨time, message, true⟩]) :
    next.fromQueue = loop.fromQueue := by
  rw [fromQueue, hbegun, List.filter_append, List.map_append, fromQueue]
  exact List.append_nil _

/-- A send after which the loop goes on is on record. -/
theorem begun_of_running {loop : WriteLoop State} {cut : Option ℕ} {isPing : Bool}
    {message : Bytes}
    (hrunning : (loop.sendAndGoOn noise cut isPing message).running = true) :
    (loop.sendAndGoOn noise cut isPing message).begun =
      loop.begun ++ [⟨loop.now, message, isPing⟩] := by
  by_cases hfits : message.length ≤ maxMessageBytes
  · exact if_pos hfits
  · have hfails : (sendOver noise cut message loop.out).1.isOk = false := by
      rw [sendOver, send, if_pos (Nat.lt_of_not_le hfits)]
      cases cut <;> rfl
    exact absurd (hrunning.symm.trans hfails) Bool.true_eq_false_eq_False

/-- The first entry of the queue is sent, or at least begun. -/
theorem Ordered.sent {loop next : WriteLoop State} (hordered : loop.Ordered ping)
    (hrunning : loop.running = true) {outgoing : Outgoing} {bytes : Bytes}
    {rest : List Outgoing} {tail : List Bytes}
    (hqueue : loop.queue = outgoing :: rest)
    (hpayloads : payloads (outgoing :: rest) = bytes :: tail)
    (hqueued : next.queued = loop.queued)
    (hbegun : next.begun = loop.begun ∨
      next.begun = loop.begun ++ [⟨loop.now, bytes, false⟩])
    (hnext : next.running = true → outgoing = .message bytes ∧ next.queue = rest ∧
      next.begun = loop.begun ++ [⟨loop.now, bytes, false⟩]) :
    next.Ordered ping := by
  obtain ⟨hpings, hfront, hall⟩ := hordered
  have hsplit : loop.queued = loop.fromQueue.map .message ++ outgoing :: rest := by
    rw [← hqueue]
    exact hall hrunning
  constructor
  · intro begun hmem hping
    rcases hbegun with hsame | hmore
    · exact hpings begun (hsame ▸ hmem) hping
    · rw [hmore] at hmem
      rcases List.mem_append.mp hmem with hold | hnew
      · exact hpings begun hold hping
      · rw [List.mem_singleton.mp hnew] at hping
        cases hping
  · rw [hqueued]
    rcases hbegun with hsame | hmore
    · have hfrom : next.fromQueue = loop.fromQueue := by
        rw [fromQueue, hsame, fromQueue]
      rwa [hfrom]
    · rw [fromQueue_of_begun hmore, hsplit, payloads_messages_append, hpayloads]
      exact (List.prefix_append_right_inj _).mpr
        (List.cons_prefix_cons.mpr ⟨rfl, List.nil_prefix⟩)
  · intro hgoesOn
    obtain ⟨rfl, hrest, hmore⟩ := hnext hgoesOn
    rw [hqueued, hsplit, fromQueue_of_begun hmore, hrest, List.map_append,
      List.append_assoc]
    rfl

/-- A step that takes nothing from the queue. -/
theorem Ordered.of_same {loop next : WriteLoop State} (hordered : loop.Ordered ping)
    (hbegun : next.begun = loop.begun) (hqueued : next.queued = loop.queued)
    (hrunning : next.running = true →
      loop.running = true ∧ next.queue = loop.queue) : next.Ordered ping := by
  have hfrom : next.fromQueue = loop.fromQueue := by
    rw [fromQueue, hbegun, fromQueue]
  obtain ⟨hpings, hfront, hall⟩ := hordered
  refine ⟨hbegun ▸ hpings, ?_, fun hnext => ?_⟩
  · rw [hfrom, hqueued]
    exact hfront
  · obtain ⟨hloop, hqueue⟩ := hrunning hnext
    rw [hfrom, hqueued, hqueue]
    exact hall hloop

theorem ordered_start (ping : Bytes) (now : ℕ) (first : State) :
    (start now first).Ordered ping :=
  ⟨nofun, List.prefix_refl _, fun _ => rfl⟩

theorem ordered_step (loop : WriteLoop State) (action : Action)
    (next : WriteLoop State) (hordered : loop.Ordered ping)
    (hstep : (machine noise ping).step loop action = some next) :
    next.Ordered ping := by
  cases stepped hstep with
  | queued outgoing hrunning =>
      have hall := hordered.running hrunning
      have hmore : loop.queued ++ [outgoing] =
          loop.fromQueue.map .message ++ (loop.queue ++ [outgoing]) := by
        rw [hall, List.append_assoc]
      refine ⟨hordered.pings, ?_, fun _ => hmore⟩
      dsimp only
      rw [hmore, payloads_messages_append]
      exact List.prefix_append _ _
  | ignored outgoing hstopped => exact hordered
  | hungUp => exact hordered.of_same rfl rfl fun hrunning => ⟨hrunning, rfl⟩
  | passed ms => exact hordered.of_same rfl rfl fun hrunning => ⟨hrunning, rfl⟩
  | sent cut bytes rest hrunning hqueue =>
      refine hordered.sent hrunning hqueue rfl ?_ ?_ ?_
      · rfl
      · exact begun_sendAndGoOn noise { loop with queue := rest } cut false bytes
      · exact fun hnext => ⟨rfl, rfl, begun_of_running hnext⟩
  | sentLast cut bytes rest hrunning hqueue =>
      refine hordered.sent hrunning hqueue rfl ?_ ?_ nofun
      · rfl
      · exact begun_sendAndGoOn noise { loop with queue := rest } cut false bytes
  | closed cut rest hrunning hqueue => exact hordered.of_same rfl rfl nofun
  | abandoned cut hrunning hqueue => exact hordered.of_same rfl rfl nofun
  | pinged cut hrunning htime =>
      obtain ⟨hpings, hfront, hall⟩ := hordered
      rcases begun_sendAndGoOn noise
          { loop with nextTick := loop.nextTick + pingInterval } cut true ping with
        hsame | hmore
      · refine Ordered.of_same ⟨hpings, hfront, hall⟩ hsame rfl fun hnext => ?_
        rw [begun_of_running hnext] at hsame
        exact absurd (List.append_right_eq_self.mp hsame) (List.cons_ne_nil _ _)
      · have hfrom := fromQueue_of_ping hmore
        refine ⟨fun begun hmem hping => ?_, hfrom ▸ hfront, fun _ => ?_⟩
        · rw [hmore] at hmem
          rcases List.mem_append.mp hmem with hold | hnew
          · exact hpings begun hold hping
          · rw [List.mem_singleton.mp hnew]
        · rw [hfrom]
          exact hall hrunning

/-! ## Runs in which nothing breaks -/

/-- The entry is small enough to be sent. -/
def Outgoing.Fits : Outgoing → Prop
  | .message bytes | .last bytes => bytes.length ≤ maxMessageBytes
  | .close => True

instance : DecidablePred Outgoing.Fits
  | .message bytes | .last bytes =>
      inferInstanceAs (Decidable (bytes.length ≤ maxMessageBytes))
  | .close => inferInstanceAs (Decidable True)

/-- No send is cut, and nothing too large is queued. -/
def Intact (_loop : WriteLoop State) : Action → Prop
  | .queue outgoing => outgoing.Fits
  | .take cut | .ping cut => cut = none
  | .hangUp | .pass _ => True

instance (loop : WriteLoop State) : DecidablePred loop.Intact
  | .queue outgoing => inferInstanceAs (Decidable outgoing.Fits)
  | .take cut | .ping cut => inferInstanceAs (Decidable (cut = none))
  | .hangUp | .pass _ => inferInstanceAs (Decidable True)

/-- All that was begun is on the stream, and nothing of the queue is missing when
the loop stops. -/
structure Whole (noise : Noise State) (first : State) (loop : WriteLoop State) :
    Prop where
  fits : ∀ outgoing ∈ loop.queue, outgoing.Fits
  wire : ∃ writing, sendAll noise loop.messages ⟨first, []⟩ =
    (.ok (), ⟨writing, loop.out.written⟩)
  stopped : loop.running = false → loop.fromQueue = payloads loop.queued

/-- The invariant of runs in which nothing breaks. -/
structure IntactInv (noise : Noise State) (inStep : State → State → Prop)
    (ping : Bytes) (first : State) (loop : WriteLoop State) : Prop where
  streams : loop.Streams noise inStep first
  ordered : loop.Ordered ping
  whole : loop.Whole noise first

theorem Whole.sendAndGoOn {loop : WriteLoop State}
    (hstreams : loop.Streams noise inStep first) (hnoise : noise.Inverts inStep)
    (hrunning : loop.running = true) (isPing : Bool) {message : Bytes}
    (hfits : message.length ≤ maxMessageBytes) :
    (loop.sendAndGoOn noise none isPing message).running = true ∧
      ∃ writing, sendAll noise
        (loop.sendAndGoOn noise none isPing message).messages ⟨first, []⟩ =
          (.ok (), ⟨writing,
            (loop.sendAndGoOn noise none isPing message).out.written⟩) := by
  obtain ⟨hgoesOn, hsend⟩ :=
    (hstreams.sendAndGoOn hnoise hrunning none isPing message).2 hfits rfl
  refine ⟨hgoesOn, ?_⟩
  rw [messages, begun_of_running hgoesOn, List.map_append]
  exact hsend

theorem whole_step (hnoise : noise.Inverts inStep)
    (hping : ping.length ≤ maxMessageBytes) (loop : WriteLoop State)
    (action : Action) (next : WriteLoop State)
    (hinv : loop.IntactInv noise inStep ping first) (hintact : loop.Intact action)
    (hstep : (machine noise ping).step loop action = some next) :
    next.IntactInv noise inStep ping first := by
  have hstreamsNext := streams_step hnoise loop action next hinv.streams hstep
  have horderedNext := ordered_step loop action next hinv.ordered hstep
  obtain ⟨hstreams, hordered, hfits, hwire, hstopped⟩ := hinv
  refine ⟨hstreamsNext, horderedNext, ?_⟩
  cases stepped hstep with
  | queued outgoing hrunning =>
      refine ⟨fun other hmem => ?_, hwire, fun hno => ?_⟩
      · rcases List.mem_append.mp hmem with hold | hnew
        · exact hfits other hold
        · exact List.mem_singleton.mp hnew ▸ hintact
      · exact absurd (hrunning.symm.trans hno) Bool.true_eq_false_eq_False
  | ignored outgoing hno => exact ⟨hfits, hwire, hstopped⟩
  | hungUp => exact ⟨hfits, hwire, hstopped⟩
  | passed ms => exact ⟨hfits, hwire, hstopped⟩
  | sent cut bytes rest hrunning hqueue =>
      obtain rfl : cut = none := hintact
      rw [hqueue] at hfits
      have hrest : { loop with queue := rest }.Streams noise inStep first :=
        hstreams.of_same rfl rfl id
      obtain ⟨hgoesOn, hsend⟩ := Whole.sendAndGoOn hrest hnoise hrunning false
        (hfits _ List.mem_cons_self)
      refine ⟨fun other hmem => hfits other (List.mem_cons_of_mem _ hmem), hsend,
        fun hno => ?_⟩
      exact absurd (hgoesOn.symm.trans hno) Bool.true_eq_false_eq_False
  | sentLast cut bytes rest hrunning hqueue =>
      obtain rfl : cut = none := hintact
      rw [hqueue] at hfits
      have hrest : { loop with queue := rest }.Streams noise inStep first :=
        hstreams.of_same rfl rfl id
      obtain ⟨hgoesOn, hsend⟩ := Whole.sendAndGoOn hrest hnoise hrunning false
        (hfits _ List.mem_cons_self)
      refine ⟨fun other hmem => hfits other (List.mem_cons_of_mem _ hmem), hsend,
        fun _ => ?_⟩
      have hfrom := fromQueue_of_begun (begun_of_running hgoesOn)
      refine hfrom.trans ?_
      dsimp only [WriteLoop.sendAndGoOn]
      rw [hordered.running hrunning, hqueue, payloads_messages_append]
      rfl
  | closed cut rest hrunning hqueue =>
      rw [hqueue] at hfits
      refine ⟨fun other hmem => hfits other (List.mem_cons_of_mem _ hmem), hwire,
        fun _ => ?_⟩
      dsimp only
      rw [hordered.running hrunning, hqueue, payloads_messages_append]
      exact (List.append_nil _).symm
  | abandoned cut hrunning hqueue =>
      refine ⟨hfits, hwire, fun _ => ?_⟩
      dsimp only
      rw [hordered.running hrunning, hqueue, payloads_messages_append]
      exact (List.append_nil _).symm
  | pinged cut hrunning htime =>
      obtain rfl : cut = none := hintact
      have hlater :
          { loop with nextTick := loop.nextTick + pingInterval }.Streams noise
            inStep first := hstreams.of_same rfl rfl id
      obtain ⟨hgoesOn, hsend⟩ :=
        Whole.sendAndGoOn hlater hnoise hrunning true hping
      refine ⟨hfits, hsend, fun hno => ?_⟩
      exact absurd (hgoesOn.symm.trans hno) Bool.true_eq_false_eq_False

end WriteLoop

end Cled.Lan
