import Mathlib.Algebra.Order.BigOperators.Group.List
import Mathlib.Data.Nat.Cast.Basic
import Mathlib.Data.List.Range
import Cled.Lan.Message

/-!
# Busy and idle sessions

`read_loop` gives each message 45 s from when it begins to wait for it.  The
time covers all the frames of the message, so a session is taken for dead in the
middle of a message that arrives slowly, however steadily its frames come.

Times are in milliseconds.  Frames are taken after decryption, with the time they
arrive.
-/

namespace Cled.Lan

open Cled.Clipboard Cled.Core

/-- `IDLE_TIMEOUT`. -/
def idleTimeout : ℕ := 45000

structure Frame where
  time : ℕ
  plain : Bytes

/-- A running `read_loop`, with what it has done about each message so far, or
how it ended. -/
inductive ReadLoop where
  /-- In `recv` since `since`, holding part of a message. -/
  | reading (since : ℕ) (held : Partial) (handled : List Wire.Handled)
  | leftGroup (handled : List Wire.Handled)
  | failed (error : LanError) (handled : List Wire.Handled)
  | timedOut (handled : List Wire.Handled)

namespace ReadLoop

def handled : ReadLoop → List Wire.Handled
  | reading _ _ handled => handled
  | leftGroup handled => handled
  | failed _ handled => handled
  | timedOut handled => handled

def IsTimedOut : ReadLoop → Prop
  | timedOut _ => True
  | _ => False

-- `busy` says how long the loop is busy with its n-th message.
variable (postcard : Wire.Postcard) (png : PngCodec) (busy : ℕ → ℕ)

/-- The rest of a turn, once the message is complete. -/
def onMessage (now : ℕ) (handled : List Wire.Handled) (message : Bytes) :
    ReadLoop :=
  let done := Wire.handle postcard png message
  if done = .leftGroup then .leftGroup (handled ++ [done])
  else .reading (now + busy handled.length) Partial.empty (handled ++ [done])

/-- A frame is read as soon as it has arrived and `recv` waits for it. -/
def onFrame (loop : ReadLoop) (frame : Frame) : ReadLoop :=
  match loop with
  | .reading since held handled =>
      let now := max since frame.time
      if since + idleTimeout < now then .timedOut handled
      else
        match held.extend frame.plain with
        | .error error => .failed error handled
        | .ok full =>
            if full.len < full.message.length then
              .failed (.malformed "message longer than announced") handled
            else if full.message.length = full.len then
              onMessage postcard png busy now handled full.message
            else .reading since full handled
  | loop => loop

def run (loop : ReadLoop) (frames : List Frame) : ReadLoop :=
  frames.foldl (onFrame postcard png busy) loop

end ReadLoop

/-! ## What arrives -/

def plains (frames : List Frame) : List Bytes := frames.map Frame.plain

/-- A well-formed message and the frames it arrives in, the first of them with
the whole header. -/
structure Delivery where
  message : Bytes
  frames : List Frame
  spells : Spells (plains frames) message
  header : 4 ≤ ((plains frames).headD []).length

theorem Delivery.frames_ne_nil (delivery : Delivery) : delivery.frames ≠ [] := by
  intro hnil
  have hheader := delivery.header
  rw [hnil] at hheader
  exact absurd hheader (by decide)

/-- When the last frame arrives. -/
def Delivery.ends (delivery : Delivery) : ℕ :=
  ((delivery.frames.getLast?).map Frame.time).getD 0

/-- Whole messages, and then the frames so far of one that is not complete. -/
structure Arrivals where
  deliveries : List Delivery
  unfinished : List Frame
  begins : ∃ (delivery : Delivery) (rest : List Frame),
    rest ≠ [] ∧ delivery.frames = unfinished ++ rest

namespace Arrivals

def frames (arrivals : Arrivals) : List Frame :=
  arrivals.deliveries.flatMap Delivery.frames ++ arrivals.unfinished

/-- No gap between frames, or before the first one, is longer than the
timeout. -/
def Busy (arrivals : Arrivals) (start : ℕ) : Prop :=
  (start :: arrivals.frames.map Frame.time).IsChain fun earlier later =>
    earlier ≤ later ∧ later ≤ earlier + idleTimeout

end Arrivals

/-- What is to be done about the messages, up to one that ends the session. -/
def toHandle (postcard : Wire.Postcard) (png : PngCodec) :
    List Delivery → List Wire.Handled
  | [] => []
  | delivery :: deliveries =>
      let done := Wire.handle postcard png delivery.message
      if done = .leftGroup then [done]
      else done :: toHandle postcard png deliveries

/-- Every frame arrives within the timeout of when the loop begins to wait for
its message: at `since`, or once it is done with the message before. -/
def InTime (postcard : Wire.Postcard) (png : PngCodec) (busy : ℕ → ℕ) :
    ℕ → ℕ → List Delivery → List Frame → Prop
  | since, _, [], unfinished =>
      ∀ frame ∈ unfinished, frame.time ≤ since + idleTimeout
  | since, index, delivery :: deliveries, unfinished =>
      (∀ frame ∈ delivery.frames, frame.time ≤ since + idleTimeout) ∧
        (Wire.handle postcard png delivery.message ≠ .leftGroup →
          InTime postcard png busy
            (max since delivery.ends + busy index) (index + 1) deliveries
            unfinished)

/-! ## One frame of a well-formed message -/

theorem Partial.collects_empty : Partial.empty.Collects [] := ⟨rfl, rfl⟩

theorem Partial.Collects.exists_extend {held : Partial} {done more : List Bytes}
    {plain message : Bytes} (hheld : held.Collects done)
    (hspells : Spells (done ++ plain :: more) message)
    (hheader : 4 ≤ ((done ++ plain :: more).headD []).length) :
    ∃ full, held.extend plain = .ok full := by
  obtain ⟨front, expected⟩ := held
  cases expected with
  | some len => exact ⟨_, rfl⟩
  | none =>
      obtain ⟨rfl, rfl⟩ := hheld
      have hfour : 4 ≤ plain.length := hheader
      have htake : plain.take 4 = beBytes 4 message.length := by
        have hflatten := congrArg (List.take 4) hspells.1
        rwa [List.nil_append, List.flatten_cons,
          List.take_append_of_le_length hfour,
          List.take_left' (length_beBytes _ _)] at hflatten
      have hlen : fromBe (plain.take 4) = message.length := by
        rw [htake, fromBe_beBytes (Nat.lt_of_le_of_lt hspells.2.1 (by decide))]
      refine ⟨⟨[] ++ plain.drop 4, some (fromBe (plain.take 4))⟩, ?_⟩
      simp only [Partial.extend]
      rw [if_neg (Nat.not_lt.mpr hfour), hlen,
        if_neg (Nat.not_lt.mpr hspells.2.1)]

/-- The next frame of a well-formed message is taken in, and the message is
complete exactly if no frame of it is left. -/
theorem Partial.Collects.extend_spells {held : Partial} {done more : List Bytes}
    {plain message : Bytes} (hheld : held.Collects done)
    (hspells : Spells (done ++ plain :: more) message)
    (hheader : 4 ≤ ((done ++ plain :: more).headD []).length) :
    ∃ full, held.extend plain = .ok full ∧ full.Collects (done ++ [plain]) ∧
      full.len = message.length ∧
      (more = [] → full.message = message) ∧
      (more ≠ [] → full.message.length < full.len) := by
  have hextends : ∃ full, held.extend plain = .ok full :=
    hheld.exists_extend hspells hheader
  obtain ⟨hflatten, hmax, hshort⟩ := hspells
  obtain ⟨full, hextend⟩ := hextends
  obtain ⟨hcollects, hexpected, -⟩ := hheld.extend hextend
  obtain ⟨hfront, hlen⟩ := hcollects.len_le hexpected
  have hparts : beBytes 4 full.len ++ (full.message ++ more.flatten) =
      beBytes 4 message.length ++ message := by
    rw [← hflatten, List.append_cons, List.flatten_append, hfront,
      List.append_assoc]
  obtain ⟨hheads, hbodies⟩ := List.append_inj hparts (by
    rw [length_beBytes, length_beBytes])
  have hlength : full.len = message.length := by
    have hnumbers := congrArg fromBe hheads
    rwa [fromBe_beBytes (Nat.lt_of_le_of_lt hlen (by decide)),
      fromBe_beBytes (Nat.lt_of_le_of_lt hmax (by decide))] at hnumbers
  refine ⟨full, hextend, hcollects, hlength, ?_, ?_⟩
  · rintro rfl
    simpa using hbodies
  · intro hmore
    have hpart := hshort (done.length + 1) (by
      rw [List.length_append, List.length_cons]
      have := List.length_pos_iff.mpr hmore
      omega)
    have htake : (done ++ plain :: more).take (done.length + 1) =
        done ++ [plain] := by
      rw [List.append_cons, ← List.length_singleton (a := plain),
        ← List.length_append, List.take_left]
    rw [htake, hfront, List.length_append, length_beBytes, ← hlength] at hpart
    omega

namespace ReadLoop

variable {postcard : Wire.Postcard} {png : PngCodec} {busy : ℕ → ℕ}

@[simp]
theorem run_timedOut (handled : List Wire.Handled) (frames : List Frame) :
    run postcard png busy (.timedOut handled) frames = .timedOut handled := by
  induction frames with
  | nil => rfl
  | cons frame frames ih => exact ih

@[simp]
theorem run_leftGroup (handled : List Wire.Handled) (frames : List Frame) :
    run postcard png busy (.leftGroup handled) frames = .leftGroup handled := by
  induction frames with
  | nil => rfl
  | cons frame frames ih => exact ih

theorem run_singleton (loop : ReadLoop) (frame : Frame) :
    run postcard png busy loop [frame] = onFrame postcard png busy loop frame :=
  rfl

theorem run_append (loop : ReadLoop) (front back : List Frame) :
    run postcard png busy loop (front ++ back) =
      run postcard png busy (run postcard png busy loop front) back :=
  List.foldl_append

theorem onFrame_late {since : ℕ} {held : Partial} {frame : Frame}
    (hlate : since + idleTimeout < frame.time) (handled : List Wire.Handled) :
    onFrame postcard png busy (.reading since held handled) frame =
      .timedOut handled := by
  have hnow : since + idleTimeout < max since frame.time :=
    lt_max_of_lt_right hlate
  rw [onFrame, if_pos hnow]

/-- A frame in time goes into the message. -/
theorem onFrame_extend {since : ℕ} {held full : Partial} {frame : Frame}
    (htime : frame.time ≤ since + idleTimeout)
    (hextend : held.extend frame.plain = .ok full)
    (hfits : full.message.length ≤ full.len) (handled : List Wire.Handled) :
    onFrame postcard png busy (.reading since held handled) frame =
      if full.message.length = full.len then
        onMessage postcard png busy (max since frame.time) handled full.message
      else .reading since full handled := by
  have hnow : ¬ since + idleTimeout < max since frame.time :=
    Nat.not_lt.mpr (max_le (Nat.le_add_right _ _) htime)
  rw [onFrame, if_neg hnow, hextend]
  dsimp only
  rw [if_neg (Nat.not_lt.mpr hfits)]

/-! ## A whole message -/

/-- Frames that do not complete the message: the loop holds them, or the
first that is late ends the session. -/
theorem run_part (postcard : Wire.Postcard) (png : PngCodec) (busy : ℕ → ℕ)
    {since : ℕ} {held : Partial} {done more : List Bytes}
    {frames : List Frame} {message : Bytes} (handled : List Wire.Handled)
    (hheld : held.Collects done)
    (hspells : Spells (done ++ (plains frames ++ more)) message)
    (hheader : 4 ≤ ((done ++ (plains frames ++ more)).headD []).length)
    (hmore : more ≠ []) :
    (∀ frame ∈ frames, frame.time ≤ since + idleTimeout) ∧
        (∃ full, Partial.Collects full (done ++ plains frames) ∧
          run postcard png busy (.reading since held handled) frames =
            .reading since full handled) ∨
      (∃ frame ∈ frames, since + idleTimeout < frame.time) ∧
        run postcard png busy (.reading since held handled) frames =
          .timedOut handled := by
  induction frames generalizing held done with
  | nil => exact .inl ⟨nofun, held, by simpa [plains] using hheld, rfl⟩
  | cons frame frames ih =>
      have hrun : run postcard png busy (.reading since held handled)
          (frame :: frames) = run postcard png busy
            (onFrame postcard png busy (.reading since held handled) frame)
            frames := rfl
      by_cases htime : frame.time ≤ since + idleTimeout
      · obtain ⟨full, hextend, hcollects, -, -, hless⟩ :=
          hheld.extend_spells hspells hheader
        have hshort := hless (List.append_ne_nil_of_right_ne_nil _ hmore)
        rw [hrun, onFrame_extend htime hextend hshort.le, if_neg hshort.ne]
        have hassoc : done ++ (plains (frame :: frames) ++ more) =
            done ++ [frame.plain] ++ (plains frames ++ more) :=
          List.append_cons _ _ _
        rw [hassoc] at hspells hheader
        rcases ih hcollects hspells hheader with
          ⟨hall, held', hheld', hreading⟩ | ⟨⟨late, hmem, hlate⟩, htimedOut⟩
        · refine .inl ⟨List.forall_mem_cons.mpr ⟨htime, hall⟩, held', ?_,
            hreading⟩
          rwa [List.append_assoc] at hheld'
        · exact .inr ⟨⟨late, List.mem_cons_of_mem _ hmem, hlate⟩, htimedOut⟩
      · have hlate := Nat.lt_of_not_le htime
        rw [hrun, onFrame_late hlate, run_timedOut]
        exact .inr ⟨⟨frame, List.mem_cons_self, hlate⟩, rfl⟩

theorem run_delivery (postcard : Wire.Postcard) (png : PngCodec) (busy : ℕ → ℕ)
    (delivery : Delivery) (since : ℕ) (handled : List Wire.Handled) :
    (∀ frame ∈ delivery.frames, frame.time ≤ since + idleTimeout) ∧
        run postcard png busy (.reading since Partial.empty handled)
            delivery.frames =
          onMessage postcard png busy (max since delivery.ends) handled
            delivery.message ∨
      (∃ frame ∈ delivery.frames, since + idleTimeout < frame.time) ∧
        run postcard png busy (.reading since Partial.empty handled)
            delivery.frames = .timedOut handled := by
  obtain ⟨message, frames, hspells, hheader⟩ := delivery
  rcases List.eq_nil_or_concat' frames with rfl | ⟨front, last, rfl⟩
  · cases hheader
  have hends : Delivery.ends ⟨message, front ++ [last], hspells, hheader⟩ =
      last.time := by
    rw [Delivery.ends, List.getLast?_concat]
    rfl
  have hplains : plains (front ++ [last]) = plains front ++ [last.plain] :=
    List.map_append
  rw [hends]
  dsimp only
  rw [hplains] at hspells hheader
  rcases run_part postcard png busy handled Partial.collects_empty hspells
      hheader (List.cons_ne_nil _ _) with
    ⟨hall, held, hheld, hreading⟩ | ⟨⟨late, hmem, hlate⟩, htimedOut⟩
  · rw [List.nil_append] at hheld
    rw [run_append, hreading, run_singleton]
    by_cases htime : last.time ≤ since + idleTimeout
    · obtain ⟨full, hextend, -, hlen, hwhole, -⟩ :=
        hheld.extend_spells hspells hheader
      obtain rfl := hwhole rfl
      refine .inl ⟨List.forall_mem_append.mpr ⟨hall, ?_⟩, ?_⟩
      · exact List.forall_mem_singleton.mpr htime
      · exact (onFrame_extend htime hextend hlen.ge handled).trans
          (if_pos hlen.symm)
    · have hlate := Nat.lt_of_not_le htime
      exact .inr ⟨⟨last, List.mem_concat_self, hlate⟩,
        onFrame_late hlate handled⟩
  · refine .inr ⟨⟨late, List.mem_append_left _ hmem, hlate⟩, ?_⟩
    rw [run_append, htimedOut, run_timedOut]

/-- The loop did not time out, and has done something about every complete
message. -/
def KeptUp (loop : ReadLoop) (todo : List Wire.Handled) : Prop :=
  ¬ loop.IsTimedOut ∧ loop.handled = todo

theorem not_keptUp_timedOut (handled todo : List Wire.Handled) :
    ¬ (timedOut handled).KeptUp todo := fun hkept => hkept.1 trivial

/-- From any turn on. -/
theorem run_keptUp_iff (deliveries : List Delivery) (unfinished : List Frame)
    (hbegins : ∃ (delivery : Delivery) (rest : List Frame),
      rest ≠ [] ∧ delivery.frames = unfinished ++ rest)
    (since : ℕ) (handled : List Wire.Handled) :
    (run postcard png busy (.reading since Partial.empty handled)
        (deliveries.flatMap Delivery.frames ++ unfinished)).KeptUp
          (handled ++ toHandle postcard png deliveries) ↔
      InTime postcard png busy since handled.length deliveries unfinished := by
  induction deliveries generalizing since handled with
  | nil =>
      obtain ⟨delivery, rest, hrest, hframes⟩ := hbegins
      have hplains : plains delivery.frames = plains unfinished ++ plains rest := by
        rw [hframes]
        exact List.map_append
      have hspells := hplains ▸ delivery.spells
      have hheader := hplains ▸ delivery.header
      have hmore : plains rest ≠ [] := fun hnil =>
        hrest (List.map_eq_nil_iff.mp hnil)
      rw [List.flatMap_nil, List.nil_append, toHandle, List.append_nil, InTime]
      rcases run_part postcard png busy handled Partial.collects_empty hspells
          hheader hmore with
        ⟨hall, held, -, hreading⟩ | ⟨⟨late, hmem, hlate⟩, htimedOut⟩
      · rw [hreading]
        exact iff_of_true ⟨id, rfl⟩ hall
      · rw [htimedOut]
        exact iff_of_false (not_keptUp_timedOut _ _) fun hall =>
          absurd (hall late hmem) (Nat.not_le.mpr hlate)
  | cons delivery deliveries ih =>
      rw [List.flatMap_cons, List.append_assoc, run_append, InTime]
      rcases run_delivery postcard png busy delivery since handled with
        ⟨hall, hrun⟩ | ⟨⟨late, hmem, hlate⟩, hrun⟩
      · rw [hrun, onMessage, toHandle]
        by_cases hleft : Wire.handle postcard png delivery.message = .leftGroup
        · simp only [hleft, if_true, run_leftGroup, ne_eq, not_true_eq_false,
            false_imp_iff, and_true]
          exact iff_of_true ⟨id, rfl⟩ hall
        · simp only [hleft, if_false, ne_eq, not_false_eq_true, true_imp_iff]
          have htodo : handled ++ Wire.handle postcard png delivery.message ::
              toHandle postcard png deliveries =
              handled ++ [Wire.handle postcard png delivery.message] ++
                toHandle postcard png deliveries := List.append_cons _ _ _
          rw [htodo, ih, List.length_append, List.length_singleton]
          exact (and_iff_right hall).symm
      · rw [hrun, run_timedOut]
        exact iff_of_false (not_keptUp_timedOut _ _) fun hin =>
          absurd (hin.1 late hmem) (Nat.not_le.mpr hlate)

/-- The loop keeps up with what arrives exactly if every frame arrives within the
timeout of when the loop began to wait for its message. -/
theorem keptUp_iff_inTime (postcard : Wire.Postcard) (png : PngCodec)
    (busy : ℕ → ℕ) (start : ℕ) (arrivals : Arrivals) :
    (run postcard png busy (.reading start Partial.empty [])
        arrivals.frames).KeptUp (toHandle postcard png arrivals.deliveries) ↔
      InTime postcard png busy start 0 arrivals.deliveries
        arrivals.unfinished :=
  run_keptUp_iff arrivals.deliveries arrivals.unfinished arrivals.begins start []

end ReadLoop

/-! ## Messages of one frame -/

/-- Steady frames are in time if none of them waits for another one of its
message. -/
theorem inTime_of_single {postcard : Wire.Postcard} {png : PngCodec}
    {busy : ℕ → ℕ} {deliveries : List Delivery} {unfinished : List Frame}
    (hsingle : ∀ delivery ∈ deliveries, delivery.frames.length = 1)
    (hunfinished : unfinished.length ≤ 1) {last since index : ℕ}
    (hlast : last ≤ since)
    (hsteady : (last :: (deliveries.flatMap Delivery.frames ++ unfinished).map
      Frame.time).IsChain fun earlier later =>
        earlier ≤ later ∧ later ≤ earlier + idleTimeout) :
    InTime postcard png busy since index deliveries unfinished := by
  induction deliveries generalizing last since index with
  | nil =>
      intro frame hframe
      obtain ⟨only, rfl⟩ : ∃ only, unfinished = [only] :=
        List.length_eq_one_iff.mp
          (le_antisymm hunfinished (List.length_pos_of_mem hframe))
      obtain rfl := List.mem_singleton.mp hframe
      have hgap := (List.isChain_cons_cons.mp hsteady).1.2
      omega
  | cons delivery deliveries ih =>
      obtain ⟨only, honly⟩ := List.length_eq_one_iff.mp
        (hsingle delivery List.mem_cons_self)
      rw [List.flatMap_cons, honly, List.append_assoc] at hsteady
      obtain ⟨⟨hsorted, hgap⟩, hrest⟩ := List.isChain_cons_cons.mp hsteady
      rw [InTime, honly]
      constructor
      · intro frame hframe
        obtain rfl := List.mem_singleton.mp hframe
        omega
      · intro _
        have hends : delivery.ends = only.time := by
          rw [Delivery.ends, honly]
          rfl
        apply ih (fun other hother => hsingle other (List.mem_cons_of_mem _ hother))
          _ hrest
        rw [hends]
        exact (le_max_right _ _).trans (Nat.le_add_right _ _)

/-! ## A large message on a slow connection -/

/-- The frames that `send` cuts a message into spell it. -/
theorem spells_chunks {message : Bytes}
    (hmax : message.length ≤ maxMessageBytes) :
    Spells (chunks maxChunk (beBytes 4 message.length ++ message)) message := by
  set plain := beBytes 4 message.length ++ message with hplain
  have hflatten := flatten_chunks (by decide : 0 < maxChunk) plain
  refine ⟨hflatten, hmax, fun count hcount => ?_⟩
  have hlength : plain.length = 4 + message.length := by
    rw [hplain, List.length_append, length_beBytes]
  have hlater : 0 < ((chunks maxChunk plain).drop count).flatten.length := by
    obtain ⟨piece, later, hdrop⟩ := List.exists_cons_of_ne_nil
      (List.ne_nil_of_length_pos (by
        rw [List.length_drop]
        exact Nat.sub_pos_of_lt hcount))
    have hpiece : piece ∈ chunks maxChunk plain :=
      List.mem_of_mem_drop (hdrop ▸ List.mem_cons_self)
    rw [hdrop, List.flatten_cons, List.length_append]
    exact Nat.add_pos_left (List.length_pos_of_ne_nil
      (ne_nil_of_mem_chunks (by decide) hpiece)) _
  have hsum : ((chunks maxChunk plain).take count).flatten.length +
      ((chunks maxChunk plain).drop count).flatten.length = plain.length := by
    rw [← List.length_append, ← List.flatten_append, List.take_append_drop,
      hflatten]
  omega

/-- One frame every 40 s. -/
def slowly (pieces : List Bytes) : List Frame :=
  pieces.mapIdx fun index piece => ⟨40000 * index, piece⟩

theorem plains_slowly (pieces : List Bytes) :
    plains (slowly pieces) = pieces := by
  apply List.ext_getElem
  · simp [plains, slowly]
  · intro index hleft hright
    simp [plains, slowly]

theorem times_slowly (pieces : List Bytes) :
    (slowly pieces).map Frame.time =
      (List.range pieces.length).map (40000 * ·) := by
  apply List.ext_getElem
  · simp [slowly]
  · intro index hleft hright
    simp [slowly]

/-- The pieces that `send` cuts a message into. -/
def pieces (message : Bytes) : List Bytes :=
  chunks maxChunk (beBytes 4 message.length ++ message)

theorem two_lt_length_pieces {message : Bytes}
    (hlarge : 2 * maxChunk ≤ message.length) : 2 < (pieces message).length := by
  have hflatten : (pieces message).flatten.length = 4 + message.length := by
    rw [pieces, flatten_chunks (by decide), List.length_append, length_beBytes]
  have hpieces : (pieces message).flatten.length ≤
      (pieces message).length * maxChunk := by
    rw [List.length_flatten]
    apply (List.sum_le_card_nsmul _ maxChunk ?_).trans_eq
    · rw [List.length_map, nsmul_eq_mul, Nat.cast_id]
    · intro size hsize
      obtain ⟨piece, hpiece, rfl⟩ := List.mem_map.mp hsize
      exact length_le_of_mem_chunks hpiece
  by_contra hfew
  have := Nat.mul_le_mul_right maxChunk (Nat.le_of_not_lt hfew)
  omega

section Slow

variable (message : Bytes) (hmax : message.length ≤ maxMessageBytes)

/-- The message as it is sent, on a slow connection. -/
def slowDelivery : Delivery where
  message
  frames := slowly (pieces message)
  spells := by
    rw [plains_slowly]
    exact spells_chunks hmax
  header := by
    obtain ⟨later, hpieces⟩ : ∃ later, pieces message = _ :: later :=
      exists_chunks_eq_cons maxChunk (by simp [beBytes])
    rw [plains_slowly, hpieces, List.headD_cons, List.length_take,
      List.length_append, length_beBytes]
    exact le_min (by decide) (Nat.le_add_right _ _)

def slow : Arrivals where
  deliveries := [slowDelivery message hmax]
  unfinished := []
  begins :=
    ⟨slowDelivery message hmax, _,
      (slowDelivery message hmax).frames_ne_nil, rfl⟩

theorem frames_slow : (slow message hmax).frames = slowly (pieces message) := by
  rw [Arrivals.frames]
  exact (List.append_nil _).trans (List.append_nil _)

theorem busy_slow : (slow message hmax).Busy 0 := by
  rw [Arrivals.Busy, frames_slow, times_slowly]
  have hchain : (List.map (40000 * ·)
      (0 :: List.range (pieces message).length)).IsChain
      fun earlier later => earlier ≤ later ∧ later ≤ earlier + idleTimeout := by
    apply (List.isChain_map _).mpr
    cases (pieces message).length with
    | zero => exact List.isChain_singleton _
    | succ count =>
        exact (List.isChain_cons_range_succ _ _ _).mpr
          ⟨by decide, fun index _ => by rw [idleTimeout]; omega⟩
  exact hchain

/-- The third frame comes too late for the message, though not long after the
second. -/
theorem timedOut_slow (hlarge : 2 * maxChunk ≤ message.length)
    (postcard : Wire.Postcard) (png : PngCodec) (busy : ℕ → ℕ) :
    ReadLoop.run postcard png busy (.reading 0 Partial.empty [])
      (slow message hmax).frames = .timedOut [] := by
  rw [frames_slow]
  rcases ReadLoop.run_delivery postcard png busy (slowDelivery message hmax) 0
      [] with
    ⟨hall, _⟩ | ⟨_, hrun⟩
  · exfalso
    have hthird : 80000 ∈ (slowly (pieces message)).map Frame.time := by
      rw [times_slowly]
      exact List.mem_map.mpr
        ⟨2, List.mem_range.mpr (two_lt_length_pieces hlarge), rfl⟩
    obtain ⟨frame, hframe, htime⟩ := List.mem_map.mp hthird
    have hlate := hall frame hframe
    rw [htime, idleTimeout] at hlate
    omega
  · exact hrun

end Slow

/-- As many zeros as make three frames. -/
def zeros : Bytes := List.replicate (2 * maxChunk) 0

theorem length_zeros : zeros.length = 2 * maxChunk := List.length_replicate

theorem length_zeros_le : zeros.length ≤ maxMessageBytes := by
  rw [length_zeros]
  decide

/-- A session whose frames come every 40 s is taken for dead. -/
theorem not_keptUp_slow :
    (slow zeros length_zeros_le).Busy 0 ∧ ∀ postcard png busy,
      ReadLoop.run postcard png busy (.reading 0 Partial.empty [])
        (slow zeros length_zeros_le).frames = .timedOut [] :=
  ⟨busy_slow zeros length_zeros_le,
    timedOut_slow zeros length_zeros_le length_zeros.ge⟩

end Cled.Lan
