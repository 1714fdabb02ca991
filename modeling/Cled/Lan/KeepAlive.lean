import Cled.Lan.Idle
import Cled.Lan.Delivered

/-!
# Sessions with nothing to say

The writing half of a session sends something at least every 15 s, and the
reading half at the other end waits 45 s.  So a session on which nothing is
copied goes on for as long as the network takes no more than 30 s to deliver,
and so does one on which only messages of one frame are sent.
-/

namespace Cled.Lan

open Cled.Clipboard Cled.Core

namespace WriteLoop

variable {State : Type*} {noise : Noise State} {ping : Bytes}

/-- The message goes into one frame. -/
def Small (message : Bytes) : Prop := 4 + message.length ≤ maxChunk

instance : DecidablePred Small :=
  fun message => inferInstanceAs (Decidable (4 + message.length ≤ maxChunk))

def Outgoing.Small : Outgoing → Prop
  | .message bytes | .last bytes => WriteLoop.Small bytes
  | .close => True

instance : DecidablePred Outgoing.Small
  | .message bytes | .last bytes =>
      inferInstanceAs (Decidable (WriteLoop.Small bytes))
  | .close => inferInstanceAs (Decidable True)

/-- Sends take no time, so the ticker is not kept waiting; and only small messages
are queued. -/
def Prompt (loop : WriteLoop State) : Action → Prop
  | .pass ms => loop.running = true → loop.now + ms ≤ loop.nextTick
  | .queue outgoing => outgoing.Small
  | .take _ | .ping _ | .hangUp => True

instance (loop : WriteLoop State) : DecidablePred loop.Prompt
  | .pass _ => inferInstanceAs (Decidable (_ = true → _ ≤ _))
  | .queue outgoing => inferInstanceAs (Decidable outgoing.Small)
  | .take _ | .ping _ | .hangUp => inferInstanceAs (Decidable True)

/-- When the loop started and when it began each message. -/
def times (started : ℕ) (loop : WriteLoop State) : List ℕ :=
  started :: loop.begun.map Begun.time

/-- Times in order, with no gap longer than a ping interval. -/
def Steady (times : List ℕ) : Prop :=
  times.IsChain fun earlier later =>
    earlier ≤ later ∧ later ≤ earlier + pingInterval

theorem Steady.concat {times : List ℕ} {last time : ℕ} (hsteady : Steady times)
    (hlast : times.getLast? = some last) (hlater : last ≤ time)
    (hsoon : time ≤ last + pingInterval) : Steady (times ++ [time]) := by
  refine List.isChain_append.mpr ⟨hsteady, List.isChain_singleton _, ?_⟩
  intro earlier hearlier later hnew
  obtain rfl := Option.some.inj (hlast.symm.trans hearlier)
  obtain rfl := Option.some.inj hnew
  exact ⟨hlater, hsoon⟩

/-- While the loop runs, its next ping is due an interval after it last began
something, or sooner. -/
structure Beats (started : ℕ) (loop : WriteLoop State) : Prop where
  steady : Steady (loop.times started)
  small : ∀ begun ∈ loop.begun, Small begun.message
  queue : ∀ outgoing ∈ loop.queue, outgoing.Small
  due : loop.running = true → ∃ last, (loop.times started).getLast? = some last ∧
    last ≤ loop.now ∧ loop.now ≤ loop.nextTick ∧
      loop.nextTick ≤ last + pingInterval

theorem beats_start (now : ℕ) (first : State) :
    (start now first).Beats now where
  steady := List.isChain_singleton now
  small := nofun
  queue := nofun
  due := fun _ => ⟨now, rfl, le_refl _, Nat.le_add_right _ _, le_refl _⟩

/-- Something is begun. -/
theorem Beats.sendAndGoOn {started : ℕ} {loop : WriteLoop State}
    (hbeats : loop.Beats started) (hrunning : loop.running = true)
    {isPing : Bool} {message : Bytes} (hsmall : Small message)
    {next : WriteLoop State}
    (hbegun : next.begun = loop.begun ∨
      next.begun = loop.begun ++ [⟨loop.now, message, isPing⟩])
    (hqueue : ∀ outgoing ∈ next.queue, outgoing.Small)
    (hnext : next.running = true →
      next.begun = loop.begun ++ [⟨loop.now, message, isPing⟩] ∧
        next.now = loop.now ∧ loop.now ≤ next.nextTick ∧
        next.nextTick ≤ loop.now + pingInterval) : next.Beats started := by
  obtain ⟨hsteady, hsmallAll, -, hdue⟩ := hbeats
  obtain ⟨last, hlast, hpast, hnow, htick⟩ := hdue hrunning
  have htimes (hmore : next.begun =
      loop.begun ++ [⟨loop.now, message, isPing⟩]) :
      next.times started = loop.times started ++ [loop.now] := by
    rw [times, hmore, List.map_append]
    rfl
  refine ⟨?_, ?_, hqueue, fun hgoesOn => ?_⟩
  · rcases hbegun with hsame | hmore
    · rwa [times, hsame]
    · rw [htimes hmore]
      exact hsteady.concat hlast hpast (hnow.trans htick)
  · intro begun hmem
    rcases hbegun with hsame | hmore
    · exact hsmallAll begun (hsame ▸ hmem)
    · rw [hmore] at hmem
      rcases List.mem_append.mp hmem with hold | hnew
      · exact hsmallAll begun hold
      · rw [List.mem_singleton.mp hnew]
        exact hsmall
  · obtain ⟨hmore, hsameNow, hlater, hsoon⟩ := hnext hgoesOn
    refine ⟨loop.now, ?_, hsameNow.ge, hsameNow.trans_le hlater, hsoon⟩
    rw [htimes hmore, List.getLast?_concat]

theorem beats_step (hping : Small ping) {started : ℕ} (loop : WriteLoop State)
    (action : Action) (next : WriteLoop State) (hbeats : loop.Beats started)
    (hprompt : loop.Prompt action)
    (hstep : (machine noise ping).step loop action = some next) :
    next.Beats started := by
  have hall := hbeats
  obtain ⟨hsteady, hsmall, hqueueSmall, hdue⟩ := hbeats
  cases stepped hstep with
  | queued outgoing hrunning =>
      refine ⟨hsteady, hsmall, fun other hmem => ?_, hdue⟩
      rcases List.mem_append.mp hmem with hold | hnew
      · exact hqueueSmall other hold
      · exact List.mem_singleton.mp hnew ▸ hprompt
  | ignored outgoing hstopped => exact hall
  | hungUp => exact ⟨hsteady, hsmall, hqueueSmall, hdue⟩
  | passed ms =>
      refine ⟨hsteady, hsmall, hqueueSmall, fun hrunning => ?_⟩
      obtain ⟨last, hlast, hpast, -, htick⟩ := hdue hrunning
      exact ⟨last, hlast, hpast.trans (Nat.le_add_right _ _), hprompt hrunning, htick⟩
  | sent cut bytes rest hrunning hqueue =>
      obtain ⟨last, -, hpast, hnow, htick⟩ := hdue hrunning
      rw [hqueue] at hqueueSmall
      refine hall.sendAndGoOn hrunning (hqueueSmall _ List.mem_cons_self)
        (begun_sendAndGoOn noise { loop with queue := rest } cut false bytes) ?_ ?_
      · exact fun other hmem => hqueueSmall other (List.mem_cons_of_mem _ hmem)
      · exact fun hgoesOn => ⟨begun_of_running hgoesOn, rfl, hnow,
          htick.trans (Nat.add_le_add_right hpast _)⟩
  | sentLast cut bytes rest hrunning hqueue =>
      rw [hqueue] at hqueueSmall
      refine hall.sendAndGoOn hrunning (hqueueSmall _ List.mem_cons_self)
        (begun_sendAndGoOn noise { loop with queue := rest } cut false bytes) ?_ nofun
      exact fun other hmem => hqueueSmall other (List.mem_cons_of_mem _ hmem)
  | closed cut rest hrunning hqueue =>
      rw [hqueue] at hqueueSmall
      exact ⟨hsteady, hsmall,
        fun other hmem => hqueueSmall other (List.mem_cons_of_mem _ hmem), nofun⟩
  | abandoned cut hrunning hqueue => exact ⟨hsteady, hsmall, hqueueSmall, nofun⟩
  | pinged cut hrunning htime =>
      obtain ⟨last, -, hpast, hnow, htick⟩ := hdue hrunning
      refine hall.sendAndGoOn hrunning hping
        (begun_sendAndGoOn noise
          { loop with nextTick := loop.nextTick + pingInterval } cut true ping)
        hqueueSmall fun hgoesOn => ⟨begun_of_running hgoesOn, rfl, ?_, ?_⟩
      · exact hnow.trans (Nat.le_add_right _ _)
      · exact Nat.add_le_add_right htime _

/-! ## The other end -/

/-- The message arrives in the frames it was sent in, each of them within `delay`
of when the loop began to send it. -/
structure Arrives (delay : ℕ) (begun : Begun) (delivery : Delivery) : Prop where
  message : delivery.message = begun.message
  frames : plains delivery.frames = pieces begun.message
  inTime : ∀ frame ∈ delivery.frames,
    begun.time ≤ frame.time ∧ frame.time ≤ begun.time + delay

/-- A small message is one frame. -/
theorem pieces_of_small {message : Bytes} (hsmall : Small message) :
    pieces message = [beBytes 4 message.length ++ message] := by
  have hlength : (beBytes 4 message.length ++ message).length ≤ maxChunk := by
    rw [List.length_append, length_beBytes]
    exact hsmall
  obtain ⟨plains, hchunks⟩ := exists_chunks_eq_cons maxChunk
    (List.ne_nil_of_length_pos (by
      rw [List.length_append, length_beBytes]
      exact Nat.lt_of_lt_of_le (by decide) (Nat.le_add_right 4 _)) :
        beBytes 4 message.length ++ message ≠ [])
  have hflatten := flatten_chunks (by decide : 0 < maxChunk)
    (beBytes 4 message.length ++ message)
  have hnonempty : ∀ piece ∈ plains, piece ≠ [] := fun piece hmem =>
    ne_nil_of_mem_chunks (by decide) (hchunks ▸ List.mem_cons_of_mem _ hmem)
  rw [List.take_of_length_le hlength] at hchunks
  rw [hchunks, List.flatten_cons, List.append_right_eq_self] at hflatten
  rw [pieces, hchunks]
  cases plains with
  | nil => rfl
  | cons piece plains =>
      exact absurd (List.append_eq_nil_iff.mp hflatten).1
        (hnonempty piece List.mem_cons_self)

/-- Small messages begun steadily arrive in single frames, none of them long after
the one before. -/
theorem steady_frames {delay : ℕ} (hdelay : pingInterval + delay ≤ idleTimeout)
    {entries : List Begun} {deliveries : List Delivery}
    (harrives : List.Forall₂ (Arrives delay) entries deliveries)
    (hsmall : ∀ begun ∈ entries, Small begun.message) {started last : ℕ}
    (hsteady : Steady (started :: entries.map Begun.time))
    (hlast : started + pingInterval + delay ≤ last + idleTimeout)
    (hsorted : (last :: (deliveries.flatMap Delivery.frames).map
      Frame.time).IsChain (· ≤ ·)) :
    (∀ delivery ∈ deliveries, delivery.frames.length = 1) ∧
      (last :: (deliveries.flatMap Delivery.frames).map Frame.time).IsChain
        fun earlier later => earlier ≤ later ∧ later ≤ earlier + idleTimeout := by
  induction harrives generalizing started last with
  | nil => exact ⟨nofun, List.isChain_singleton last⟩
  | @cons begun delivery entries deliveries hfirst hrest ih =>
      have hone : delivery.frames.length = 1 := by
        have hplains := hfirst.frames
        rw [pieces_of_small (hsmall begun List.mem_cons_self)] at hplains
        simpa [plains] using congrArg List.length hplains
      obtain ⟨frame, hframe⟩ := List.length_eq_one_iff.mp hone
      obtain ⟨hsent, hinTime⟩ := hfirst.inTime frame (hframe ▸ List.mem_cons_self)
      rw [List.flatMap_cons, hframe] at hsorted
      obtain ⟨hlater, hsortedRest⟩ := List.isChain_cons_cons.mp hsorted
      obtain ⟨⟨-, hsoon⟩, hsteadyRest⟩ := List.isChain_cons_cons.mp hsteady
      have hnext : begun.time + pingInterval + delay ≤ frame.time + idleTimeout := by
        omega
      obtain ⟨hones, hchain⟩ := ih
        (fun other hmem => hsmall other (List.mem_cons_of_mem _ hmem)) hsteadyRest
        hnext hsortedRest
      refine ⟨List.forall_mem_cons.mpr ⟨hone, hones⟩, ?_⟩
      rw [List.flatMap_cons, hframe]
      exact List.isChain_cons_cons.mpr ⟨⟨hlater, by omega⟩, hchain⟩

/-- A session on which only small messages are sent, or none at all, is never taken
for dead by the other end, as long as its writing half is not kept waiting and the
network takes no longer than what the idle timeout leaves of a ping interval. -/
theorem session_stays_alive {postcard : Wire.Postcard} (png : PngCodec)
    (busy : ℕ → ℕ) (hping : Small ping) {now : ℕ} {first : State}
    {actions : List Action} {final : WriteLoop State}
    (hrun : (machine noise ping).run (start now first) actions = some final)
    (hprompt : (machine noise ping).Along Prompt (start now first) actions)
    {delay since : ℕ} (hdelay : pingInterval + delay ≤ idleTimeout)
    (hsince : now + pingInterval + delay ≤ since + idleTimeout)
    {arrivals : Arrivals} {count : ℕ}
    (harrives : List.Forall₂ (Arrives delay) (final.begun.take count)
      arrivals.deliveries)
    (hunfinished : arrivals.unfinished = [])
    (hsorted : (arrivals.frames.map Frame.time).IsChain (· ≤ ·)) :
    (ReadLoop.run postcard png busy (.reading since Partial.empty [])
      arrivals.frames).KeptUp (toHandle postcard png arrivals.deliveries) := by
  have hbeats : final.Beats now :=
    Machine.run_of_invariant (beats_step hping) (beats_start now first) hprompt hrun
  have hsmall : ∀ begun ∈ final.begun.take count, Small begun.message :=
    fun begun hmem => hbeats.small begun (List.mem_of_mem_take hmem)
  have hsteady : Steady (now :: (final.begun.take count).map Begun.time) := by
    have hprefix : now :: (final.begun.take count).map Begun.time <+:
        final.times now := by
      rw [List.map_take]
      exact List.cons_prefix_cons.mpr ⟨rfl, List.take_prefix _ _⟩
    exact hbeats.steady.prefix hprefix
  have hframes : arrivals.frames = arrivals.deliveries.flatMap Delivery.frames := by
    rw [Arrivals.frames, hunfinished, List.append_nil]
  rw [hframes] at hsorted
  -- The loop may begin to read when something is there already.
  obtain ⟨last, hlast, hstarted, hchain⟩ : ∃ last, last ≤ since ∧
      now + pingInterval + delay ≤ last + idleTimeout ∧
      (last :: (arrivals.deliveries.flatMap Delivery.frames).map
        Frame.time).IsChain (· ≤ ·) := by
    generalize arrivals.deliveries = deliveries at harrives hsorted
    generalize final.begun.take count = entries at harrives hsteady
    cases harrives with
    | nil => exact ⟨since, le_refl _, hsince, List.isChain_singleton _⟩
    | @cons begun delivery entries deliveries hfirst hrest =>
        obtain ⟨frame, later, hcons⟩ :=
          List.exists_cons_of_ne_nil delivery.frames_ne_nil
        obtain ⟨hsent, -⟩ := hfirst.inTime frame (hcons ▸ List.mem_cons_self)
        have hafter : now ≤ begun.time := (List.isChain_cons_cons.mp hsteady).1.1
        refine ⟨min since frame.time, min_le_left _ _, by omega, ?_⟩
        rw [List.flatMap_cons, hcons] at hsorted ⊢
        exact List.isChain_cons_cons.mpr ⟨min_le_right _ _, hsorted⟩
  obtain ⟨hsingle, hgaps⟩ :=
    steady_frames hdelay harrives hsmall hsteady hstarted hchain
  refine (ReadLoop.run_keptUp_iff arrivals.deliveries arrivals.unfinished
    arrivals.begins since []).mpr (inTime_of_single hsingle ?_ hlast ?_)
  · rw [hunfinished]
    exact Nat.zero_le 1
  · rw [hunfinished, List.append_nil]
    exact hgaps

/-- A ping that arrives at this time. -/
def pingAt (time : ℕ) : Delivery where
  message := [2]
  frames := [⟨time, beBytes 4 1 ++ [2]⟩]
  spells := by
    have hspells := spells_chunks (by decide : [(2 : UInt8)].length ≤ maxMessageBytes)
    have hpieces := pieces_of_small (by decide : Small [2])
    rw [pieces] at hpieces
    rwa [hpieces] at hspells
  header := by
    have hlength : 4 ≤ (beBytes 4 1 ++ [(2 : UInt8)]).length := by decide
    exact hlength

/-- Two pings, each of which takes 30 s. -/
def twoPings : Arrivals where
  deliveries := [pingAt 45000, pingAt 60000]
  unfinished := []
  begins := ⟨pingAt 0, (pingAt 0).frames, (pingAt 0).frames_ne_nil, rfl⟩

theorem arrives_pingAt (sent : ℕ) :
    Arrives 30000 ⟨sent, [2], true⟩ (pingAt (sent + 30000)) where
  message := rfl
  frames := (pieces_of_small (by decide : Small [2])).symm
  inTime := by
    intro frame hframe
    obtain rfl := List.mem_singleton.mp hframe
    exact ⟨Nat.le_add_right _ _, le_refl _⟩

def quiet : List Action :=
  [.pass 15000, .ping none, .pass 15000, .ping none]

theorem session_stays_alive_quiet :
    (ReadLoop.run signalPostcard pixelCodec (fun _ => 0)
      (.reading 0 Partial.empty []) twoPings.frames).KeptUp
        (toHandle signalPostcard pixelCodec twoPings.deliveries) := by
  have hprompt : (machine numberedNoise [2]).Along Prompt (start 0 0) quiet := by
    decide
  have hbegun : ∀ final ∈ (machine numberedNoise [2]).run (start 0 0) quiet,
      final.begun.take 2 = [⟨15000, [2], true⟩, ⟨30000, [2], true⟩] := by decide
  obtain ⟨final, hrun⟩ : ∃ final,
      (machine numberedNoise [2]).run (start 0 0) quiet = some final :=
    Option.isSome_iff_exists.mp (by decide)
  have harrives : List.Forall₂ (Arrives 30000) (final.begun.take 2)
      twoPings.deliveries := by
    rw [hbegun final hrun]
    exact .cons (arrives_pingAt 15000) (.cons (arrives_pingAt 30000) .nil)
  exact session_stays_alive pixelCodec (fun _ => 0) (by decide) hrun hprompt
    (by decide) (by decide) harrives rfl (by decide)

end WriteLoop

end Cled.Lan
