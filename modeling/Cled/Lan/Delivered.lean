import Cled.Lan.WriteLoop

/-!
# What a peer gets of what is queued for it

Whatever part of the stream arrives, the peer acts on the first of the messages
that were queued, in their order, and on nothing else: pings and what was only
begun change nothing.  If nothing breaks it acts on all of them, up to the one
that closes the connection.
-/

namespace Cled.Lan

open Cled.Clipboard Cled.Core

namespace WriteLoop

variable {State : Type*} {noise : Noise State} {inStep : State → State → Prop}

section Effects

variable (postcard : Wire.Postcard) (png : PngCodec)

/-- What a reader does about these messages, leaving out those it ignores. -/
def effects (messages : List Bytes) : List Wire.Handled :=
  (messages.map (Wire.handle postcard png)).filter fun done => done ≠ .nothing

theorem effects_append (front back : List Bytes) :
    effects postcard png (front ++ back) =
      effects postcard png front ++ effects postcard png back := by
  rw [effects, List.map_append, List.filter_append, effects, effects]

theorem effects_mono {some whole : List Bytes} (hfront : some <+: whole) :
    effects postcard png some <+: effects postcard png whole := by
  obtain ⟨rest, rfl⟩ := hfront
  rw [effects_append]
  exact List.prefix_append _ _

end Effects

variable {postcard : Wire.Postcard} {png : PngCodec} {ping : Bytes}

/-- A ping is ignored. -/
theorem handle_ping (hpostcard : postcard.Lossless) (png : PngCodec)
    (hping : Wire.Message.encode postcard .ping = .ok ping) :
    Wire.handle postcard png ping = .nothing := by
  rw [Wire.handle, Wire.Message.decode_encode hpostcard hping]

theorem effects_messages {loop : WriteLoop State} (hordered : loop.Ordered ping)
    (hping : Wire.handle postcard png ping = .nothing) :
    effects postcard png loop.messages = effects postcard png loop.fromQueue := by
  have hall : ∀ begun ∈ loop.begun, begun.ping = true →
      Wire.handle postcard png begun.message = .nothing := by
    intro begun hmem hisPing
    rw [hordered.pings begun hmem hisPing, hping]
  rw [messages, fromQueue]
  generalize loop.begun = entries at hall
  induction entries with
  | nil => rfl
  | cons begun entries ih =>
      have hrest := ih fun other hmem => hall other (List.mem_cons_of_mem _ hmem)
      have hcons (message : Bytes) (others : List Bytes) :
          effects postcard png (message :: others) =
            effects postcard png [message] ++ effects postcard png others :=
        effects_append postcard png [message] others
      rw [List.map_cons, hcons, hrest]
      cases hisPing : begun.ping with
      | true =>
          have hnothing := hall begun List.mem_cons_self hisPing
          simp [effects, hisPing, hnothing]
      | false =>
          rw [List.filter_cons_of_pos (by rw [hisPing]; rfl), List.map_cons]
          exact (hcons _ _).symm

/-- The peer acts on the front part of the queued messages, whatever it has of the
stream.  If no send breaks off, nothing too large is queued and the queue is done
with, then the stream has everything: the peer acts on all queued messages, up to
one that closes the connection. -/
theorem session_carries_queue (hnoise : noise.Inverts inStep)
    {writing reading : State} (hstep : inStep writing reading)
    (hpostcard : postcard.Lossless) (png : PngCodec)
    (hping : Wire.Message.encode postcard .ping = .ok ping) {now : ℕ}
    {actions : List Action} {final : WriteLoop State}
    (hrun : (machine noise ping).run (start now writing) actions = some final) :
    (∀ (input after : Incoming State) (count : ℕ) (received : List Bytes),
      input.noise = reading → input.reader.bytes <+: final.out.written →
      recvTimes noise count input = .ok (received, after) →
      effects postcard png received <+:
        effects postcard png (payloads final.queued)) ∧
    ((machine noise ping).Along Intact (start now writing) actions →
      (final.running = true → final.queue = []) →
      ∀ ended, ∃ received after,
        recvTimes noise final.begun.length
            ⟨reading, ⟨final.out.written, ended⟩⟩ = .ok (received, after) ∧
          effects postcard png received =
            effects postcard png (payloads final.queued)) := by
  have hstart := streams_start noise now hstep
  have hstreams : final.Streams noise inStep writing :=
    Machine.run_of_step_invariant (streams_step hnoise) hstart hrun
  have hordered : final.Ordered ping :=
    Machine.run_of_step_invariant ordered_step (ordered_start ping now writing) hrun
  have heffects := effects_messages hordered (handle_ping hpostcard png hping)
  constructor
  · intro input after count received hinput harrived hrecv
    obtain ⟨hmax, writing', reading', wire, hsend, -, hwritten, -⟩ := hstreams
    have hprefix := received_prefix hnoise hstep hmax hsend hinput
      (harrived.trans hwritten) hrecv
    exact (heffects ▸ effects_mono postcard png hprefix).trans
      (effects_mono postcard png hordered.front)
  · intro hintact hdone ended
    have hfits : ping.length ≤ maxMessageBytes :=
      ((Wire.Message.encode_eq_ok_iff postcard).mp hping).2
    have hwhole : final.Whole noise writing := by
      have hinv : (start now writing).IntactInv noise inStep ping writing :=
        ⟨hstart, ordered_start ping now writing, nofun, ⟨writing, rfl⟩, nofun⟩
      exact (Machine.run_of_invariant (whole_step hnoise hfits) hinv hintact
        hrun).whole
    have hall : final.fromQueue = payloads final.queued := by
      cases hrunning : final.running with
      | true =>
          have hqueued := hordered.running hrunning
          rw [hdone hrunning] at hqueued
          rw [hqueued, payloads_messages_append]
          exact (List.append_nil _).symm
      | false => exact hwhole.stopped hrunning
    obtain ⟨wire, writing', reading', hsend, -, hrecv⟩ :=
      sendAll_recvTimes hnoise hstreams.max hstep []
    obtain ⟨writing'', hsent⟩ := hwhole.wire
    have hwritten : final.out.written = wire := by
      rw [hsent] at hsend
      simpa using congrArg (fun result => result.2.written) hsend
    have hwire := hrecv [] ended
    rw [List.append_nil, ← hwritten, messages, List.length_map] at hwire
    exact ⟨_, _, hwire, heffects.trans (congrArg _ hall)⟩

/-- Postcard for messages without content. -/
def signalPostcard : Wire.Postcard where
  toStdvec
    | .ping => .ok [2]
    | .bye .unpaired => .ok [3, 0]
    | _ => .error "not a signal"
  fromBytes
    | [2] => .ok .ping
    | [3, 0] => .ok (.bye .unpaired)
    | _ => .error "not a signal"

theorem signalPostcard_lossless : signalPostcard.Lossless := by
  intro message bytes hbytes
  cases message with
  | ping =>
      obtain rfl := Except.ok.inj hbytes
      rfl
  | bye reason =>
      cases reason
      obtain rfl := Except.ok.inj hbytes
      rfl
  | _ => contradiction

/-- A ping goes out before the peer is told that it was removed. -/
def removedLater : List Action :=
  [.pass 15000, .queue (.last [3, 0]), .ping none, .take none]

theorem session_carries_queue_removedLater :
    ∃ final, (machine numberedNoise [2]).run (start 0 0) removedLater = some final ∧
      ∀ ended, ∃ received after,
        recvTimes numberedNoise final.begun.length
            ⟨0, ⟨final.out.written, ended⟩⟩ = .ok (received, after) ∧
          effects signalPostcard pixelCodec received =
            effects signalPostcard pixelCodec (payloads final.queued) := by
  have hintact : (machine numberedNoise [2]).Along Intact (start 0 0)
      removedLater := by decide
  have hdone : ∀ final ∈ (machine numberedNoise [2]).run (start 0 0) removedLater,
      final.running = true → final.queue = [] := by decide
  obtain ⟨final, hrun⟩ : ∃ final,
      (machine numberedNoise [2]).run (start 0 0) removedLater = some final :=
    Option.isSome_iff_exists.mp (by decide)
  have hboth := session_carries_queue numberedNoise_inverts (Eq.refl 0)
    signalPostcard_lossless pixelCodec (rfl : Wire.Message.encode signalPostcard .ping = _)
    hrun
  exact ⟨final, hrun, hboth.2 hintact (hdone final hrun)⟩

end WriteLoop

end Cled.Lan
