import Cled.Lan.Noise

/-!
# Streams that arrive bit by bit

What has been received of a stream is not changed by what arrives later.  So
whatever part of a stream has arrived, the messages that can be taken from it
are the first ones of the whole stream.
-/

namespace Cled.Lan

open Cled.Clipboard

variable {State : Type*} {noise : Noise State}

/-- The reader when more has arrived. -/
def Reader.later (reader : Reader) (more : Bytes) (ended : Bool) : Reader :=
  ⟨reader.bytes ++ more, ended⟩

def Incoming.later (input : Incoming State) (more : Bytes) (ended : Bool) :
    Incoming State :=
  ⟨input.noise, input.reader.later more ended⟩

theorem readExact_later {count : ℕ} {reader rest : Reader} {bytes : Bytes}
    (hread : readExact count reader = .ok (bytes, rest)) (more : Bytes)
    (ended : Bool) :
    readExact count (reader.later more ended) =
      .ok (bytes, rest.later more ended) := by
  unfold readExact at hread
  split at hread
  · next henough =>
    simp only [Outcome.ok.injEq, Prod.mk.injEq] at hread
    obtain ⟨rfl, rfl⟩ := hread
    have hlater : count ≤ (reader.later more ended).bytes.length :=
      henough.trans (List.length_append ▸ Nat.le_add_right _ _)
    rw [readExact, if_pos hlater]
    simp only [Reader.later, List.take_append_of_le_length henough,
      List.drop_append_of_le_length henough]
  · split at hread <;> cases hread

theorem readFrame_later {reader rest : Reader} {frame : Bytes}
    (hread : readFrame reader = .ok (frame, rest)) (more : Bytes) (ended : Bool) :
    readFrame (reader.later more ended) = .ok (frame, rest.later more ended) := by
  unfold readFrame at hread
  cases hlen : readExact 2 reader with
  | waits => rw [hlen] at hread; cases hread
  | fails error => rw [hlen] at hread; cases hread
  | ok value =>
      rw [hlen] at hread
      rw [readFrame, readExact_later hlen]
      exact readExact_later hread more ended

theorem readPlain_later {input rest : Incoming State} {plain : Bytes}
    (hread : readPlain noise input = .ok (plain, rest)) (more : Bytes)
    (ended : Bool) :
    readPlain noise (input.later more ended) =
      .ok (plain, rest.later more ended) := by
  unfold readPlain at hread
  cases hframe : readFrame input.reader with
  | waits => rw [hframe] at hread; cases hread
  | fails error => rw [hframe] at hread; cases hread
  | ok value =>
      obtain ⟨frame, reader⟩ := value
      rw [hframe] at hread
      dsimp only at hread
      rw [readPlain, Incoming.later, readFrame_later hframe]
      dsimp only
      split at hread
      · cases hread
      · next message next hmessage =>
        simp only [Outcome.ok.injEq, Prod.mk.injEq] at hread
        obtain ⟨rfl, rfl⟩ := hread
        rfl

theorem recvLoop_later {held : Partial} {input after : Incoming State}
    {message : Bytes} (hrecv : recvLoop noise held input = .ok (message, after))
    (more : Bytes) (ended : Bool) :
    recvLoop noise held (input.later more ended) =
      .ok (message, after.later more ended) := by
  induction hlength : input.reader.bytes.length using Nat.strong_induction_on
    generalizing held input with
  | _ length ih =>
      obtain ⟨plain, rest, full, hread, hextend, hends | ⟨hshort, hrest⟩⟩ :=
        recvLoop_ok hrecv
      · obtain ⟨rfl, hfull, rfl⟩ := hends
        exact recvLoop_ends (readPlain_later hread more ended) hextend hfull
      · rw [recvLoop_goes_on (readPlain_later hread more ended) hextend hshort]
        exact ih _ (hlength ▸ readPlain_length_lt hread) hrest rfl

theorem readExact_ended {count : ℕ} {reader rest : Reader} {bytes : Bytes}
    (hread : readExact count reader = .ok (bytes, rest)) :
    rest.ended = reader.ended := by
  unfold readExact at hread
  split at hread
  · simp only [Outcome.ok.injEq, Prod.mk.injEq] at hread
    rw [← hread.2]
  · split at hread <;> cases hread

theorem readExact_not_fails {count : ℕ} {reader : Reader}
    (hopen : reader.ended = false) (error : LanError) :
    readExact count reader ≠ .fails error := by
  unfold readExact
  rw [hopen]
  split
  · exact nofun
  · exact nofun

theorem readFrame_not_fails {reader : Reader} (hopen : reader.ended = false)
    (error : LanError) : readFrame reader ≠ .fails error := by
  unfold readFrame
  cases hlen : readExact 2 reader with
  | waits => exact nofun
  | fails failure => exact absurd hlen (readExact_not_fails hopen failure)
  | ok value =>
      exact readExact_not_fails ((readExact_ended hlen).trans hopen) error

theorem readFrame_ended {reader rest : Reader} {frame : Bytes}
    (hread : readFrame reader = .ok (frame, rest)) :
    rest.ended = reader.ended := by
  unfold readFrame at hread
  cases hlen : readExact 2 reader with
  | waits => rw [hlen] at hread; cases hread
  | fails error => rw [hlen] at hread; cases hread
  | ok value =>
      rw [hlen] at hread
      exact (readExact_ended hread).trans (readExact_ended hlen)

/-- A frame that cannot be decrypted is not decrypted when more has arrived. -/
theorem readPlain_fails_later {input : Incoming State}
    (hopen : input.reader.ended = false) {error : LanError}
    (hread : readPlain noise input = .fails error) (more : Bytes) :
    readPlain noise (input.later more false) = .fails error := by
  unfold readPlain at hread
  cases hframe : readFrame input.reader with
  | waits => rw [hframe] at hread; cases hread
  | fails failure => exact absurd hframe (readFrame_not_fails hopen failure)
  | ok value =>
      obtain ⟨frame, reader⟩ := value
      rw [hframe] at hread
      rw [readPlain, Incoming.later, readFrame_later hframe]
      dsimp only at hread ⊢
      split at hread
      · exact hread
      · cases hread

theorem readPlain_ended {input rest : Incoming State} {plain : Bytes}
    (hread : readPlain noise input = .ok (plain, rest)) :
    rest.reader.ended = input.reader.ended := by
  unfold readPlain at hread
  cases hframe : readFrame input.reader with
  | waits => rw [hframe] at hread; cases hread
  | fails failure => rw [hframe] at hread; cases hread
  | ok value =>
      obtain ⟨frame, reader⟩ := value
      rw [hframe] at hread
      dsimp only at hread
      split at hread
      · cases hread
      · simp only [Outcome.ok.injEq, Prod.mk.injEq] at hread
        rw [← hread.2]
        exact readFrame_ended hframe

theorem recvLoop_of_fails {held : Partial} {input : Incoming State}
    {error : LanError} (hread : readPlain noise input = .fails error) :
    recvLoop noise held input = .fails error := by
  rw [recvLoop]
  split
  · next hwaits => exact absurd (hread.symm.trans hwaits) nofun
  · next other hfails => exact hfails.symm.trans hread
  · next plain rest hok => exact absurd (hread.symm.trans hok) nofun

theorem recvLoop_of_not_extends {held : Partial} {input rest : Incoming State}
    {plain : Bytes} {error : LanError}
    (hread : readPlain noise input = .ok (plain, rest))
    (hextend : held.extend plain = .error error) :
    recvLoop noise held input = .fails error := by
  rw [recvLoop]
  split
  · next hwaits => exact absurd (hread.symm.trans hwaits) nofun
  · next other hfails => exact absurd (hread.symm.trans hfails) nofun
  · next plain' rest' hok =>
    obtain ⟨rfl, rfl⟩ : plain = plain' ∧ rest = rest' := by simpa [hread] using hok
    rw [hextend]

/-- What goes wrong with a message goes wrong with it when more has arrived. -/
theorem recvLoop_fails_later {held : Partial} {input : Incoming State}
    (hopen : input.reader.ended = false) {error : LanError}
    (hrecv : recvLoop noise held input = .fails error) (more : Bytes) :
    recvLoop noise held (input.later more false) = .fails error := by
  induction hlength : input.reader.bytes.length using Nat.strong_induction_on
    generalizing held input with
  | _ length ih =>
      cases hread : readPlain noise input with
      | waits =>
          rw [recvLoop] at hrecv
          split at hrecv <;> simp_all
      | fails failure =>
          rw [recvLoop_of_fails hread] at hrecv
          rw [recvLoop_of_fails (readPlain_fails_later hopen hread more)]
          exact hrecv
      | ok value =>
          obtain ⟨plain, rest⟩ := value
          have hlater := readPlain_later hread more false
          cases hextend : held.extend plain with
          | error failure =>
              rw [recvLoop_of_not_extends hread hextend] at hrecv
              rw [recvLoop_of_not_extends hlater hextend]
              exact hrecv
          | ok full =>
              rw [recvLoop_of_read hread hextend] at hrecv
              rw [recvLoop_of_read hlater hextend]
              split at hrecv
              · next hover =>
                rw [if_pos hover]
                exact hrecv
              · next hfits =>
                rw [if_neg hfits]
                split at hrecv
                · cases hrecv
                · next hshort =>
                  rw [if_neg hshort]
                  exact ih _ (hlength ▸ readPlain_length_lt hread)
                    ((readPlain_ended hread).trans hopen) hrecv rfl

/-- Messages that have arrived stay the same when more arrives. -/
theorem recvTimes_later {count : ℕ} {input after : Incoming State}
    {messages : List Bytes}
    (hrecv : recvTimes noise count input = .ok (messages, after)) (more : Bytes)
    (ended : Bool) :
    recvTimes noise count (input.later more ended) =
      .ok (messages, after.later more ended) := by
  induction count generalizing input messages with
  | zero =>
      simp only [recvTimes, Outcome.ok.injEq, Prod.mk.injEq] at hrecv
      obtain ⟨rfl, rfl⟩ := hrecv
      rfl
  | succ count ih =>
      rw [recvTimes] at hrecv
      split at hrecv
      · cases hrecv
      · cases hrecv
      next message rest hfirst =>
      split at hrecv
      · cases hrecv
      · cases hrecv
      next tail last htail =>
      simp only [Outcome.ok.injEq, Prod.mk.injEq] at hrecv
      obtain ⟨rfl, rfl⟩ := hrecv
      have hfirstLater : recv noise (input.later more ended) =
          .ok (message, rest.later more ended) := recvLoop_later hfirst more ended
      rw [recvTimes, hfirstLater]
      dsimp only
      rw [ih htail]

theorem ne_nil_of_recv {input after : Incoming State} {message : Bytes}
    (hrecv : recv noise input = .ok (message, after)) : input.reader.bytes ≠ [] := by
  obtain ⟨plain, rest, full, hread, -⟩ := recvLoop_ok hrecv
  exact List.ne_nil_of_length_pos (Nat.zero_lt_of_lt (readPlain_length_lt hread))

/-- Fewer messages taken from a stream are the first ones of those that use it
up. -/
theorem recvTimes_prefix {few all : ℕ} {input after last : Incoming State}
    {some whole : List Bytes}
    (hsome : recvTimes noise few input = .ok (some, after))
    (hwhole : recvTimes noise all input = .ok (whole, last))
    (hlast : last.reader.bytes = []) : some <+: whole := by
  induction few generalizing all input some whole with
  | zero =>
      simp only [recvTimes, Outcome.ok.injEq, Prod.mk.injEq] at hsome
      rw [← hsome.1]
      exact List.nil_prefix
  | succ few ih =>
      rw [recvTimes] at hsome
      split at hsome
      · cases hsome
      · cases hsome
      next message rest hfirst =>
      split at hsome
      · cases hsome
      · cases hsome
      next tail later htail =>
      simp only [Outcome.ok.injEq, Prod.mk.injEq] at hsome
      obtain ⟨rfl, rfl⟩ := hsome
      cases all with
      | zero =>
          simp only [recvTimes, Outcome.ok.injEq, Prod.mk.injEq] at hwhole
          exact absurd (hwhole.2 ▸ hlast) (ne_nil_of_recv hfirst)
      | succ all =>
          rw [recvTimes, hfirst] at hwhole
          dsimp only at hwhole
          split at hwhole
          · cases hwhole
          · cases hwhole
          next others final hothers =>
          simp only [Outcome.ok.injEq, Prod.mk.injEq] at hwhole
          obtain ⟨rfl, rfl⟩ := hwhole
          exact List.prefix_cons_inj message |>.mpr (ih htail hothers)

/-- Whatever part of the written stream has arrived, the messages taken from it
are the first ones that were sent. -/
theorem received_prefix {inStep : State → State → Prop}
    (hnoise : noise.Inverts inStep) {writing reading : State}
    (hstep : inStep writing reading) {messages : List Bytes}
    (hmax : ∀ message ∈ messages, message.length ≤ maxMessageBytes)
    {out : Outgoing State}
    (hsend : sendAll noise messages ⟨writing, []⟩ = (.ok (), out))
    {input after : Incoming State} (hinput : input.noise = reading)
    (harrived : input.reader.bytes <+: out.written) {count : ℕ}
    {received : List Bytes}
    (hrecv : recvTimes noise count input = .ok (received, after)) :
    received <+: messages := by
  obtain ⟨wire, writing', reading', hsent, -, hall⟩ :=
    sendAll_recvTimes hnoise hmax hstep []
  have hwritten : out.written = wire := by
    rw [hsend] at hsent
    simpa using congrArg (fun result => result.2.written) hsent
  obtain ⟨more, hmore⟩ := harrived
  have hwhole := hall [] true
  rw [List.append_nil, ← hwritten, ← hmore, ← hinput] at hwhole
  exact recvTimes_prefix (recvTimes_later hrecv more true) hwhole rfl

end Cled.Lan
