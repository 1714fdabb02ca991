import Cled.Core.Framing
import Cled.Lan.Wire

/-!
# Encrypted framing

Every Noise message travels as a 2-byte big-endian length and its ciphertext.
An application message is a 4-byte length followed by its bytes, cut into as
many Noise messages as needed.  The ciphers of an established channel belong to
the Noise library and are a parameter here.
-/

namespace Cled.Lan

open Cled.Core Cled.Clipboard

def maxNoiseMessage : ℕ := 65535

def tagLen : ℕ := 16

def maxChunk : ℕ := maxNoiseMessage - tagLen

/-- Largest encoded message either side will send or accept. -/
def maxMessageBytes : ℕ := 16 * 1024 * 1024

/-- The transport state of the Noise library: it encrypts a payload into a
message and decrypts a message into its payload, or answers with an error
text. -/
structure Noise (State : Type*) where
  writeMessage : State → Bytes → Except String (Bytes × State)
  readMessage : State → Bytes → Except String (Bytes × State)

variable {State : Type*}

/-- Reading inverts writing in order, and a message is its payload with a tag:
`inStep` relates a writing end to the end that has read all it wrote. -/
def Noise.Inverts (noise : Noise State) (inStep : State → State → Prop) : Prop :=
  ∀ writing reading payload, inStep writing reading →
    payload.length ≤ maxChunk →
    ∃ frame writing' reading',
      noise.writeMessage writing payload = .ok (frame, writing') ∧
      frame.length = payload.length + tagLen ∧
      noise.readMessage reading frame = .ok (payload, reading') ∧
      inStep writing' reading'

/-! ## Sending -/

/-- One end's cipher and the bytes it has put on the stream. -/
structure Outgoing (State : Type*) where
  noise : State
  written : Bytes

/-- A frame's length and its bytes. -/
def framed (frame : Bytes) : Bytes := beBytes 2 frame.length ++ frame

def writeFrame (frame : Bytes) (out : Outgoing State) :
    Except LanError Unit × Outgoing State :=
  if frame.length < 2 ^ 16 then
    (.ok (), { out with written := out.written ++ framed frame })
  else (.error (.tooLarge frame.length), out)

/-- The loop of `send` over the pieces of the message. -/
def writeChunks (noise : Noise State) :
    List Bytes → Outgoing State → Except LanError Unit × Outgoing State
  | [], out => (.ok (), out)
  | chunk :: chunks, out =>
      match noise.writeMessage out.noise chunk with
      | .error message => (.error (.noise message), out)
      | .ok (frame, next) =>
          match writeFrame frame { out with noise := next } with
          | (.error error, out) => (.error error, out)
          | (.ok (), out) => writeChunks noise chunks out

def send (noise : Noise State) (message : Bytes) (out : Outgoing State) :
    Except LanError Unit × Outgoing State :=
  if maxMessageBytes < message.length then
    (.error (.tooLarge message.length), out)
  else if 2 ^ 32 ≤ message.length then
    (.error (.tooLarge message.length), out)
  else
    let plain := beBytes 4 message.length ++ message
    writeChunks noise (chunks maxChunk plain) out

/-- Messages sent in turn, up to the first that fails. -/
def sendAll (noise : Noise State) :
    List Bytes → Outgoing State → Except LanError Unit × Outgoing State
  | [], out => (.ok (), out)
  | message :: messages, out =>
      match send noise message out with
      | (.error error, out) => (.error error, out)
      | (.ok (), out) => sendAll noise messages out

/-! ## Receiving -/

/-- What has arrived of a byte stream, and whether it ends there. -/
structure Reader where
  bytes : Bytes
  ended : Bool
  deriving DecidableEq

/-- A read that needs more input than has arrived waits for it. -/
inductive Outcome (A : Type*) where
  | waits
  | fails (error : LanError)
  | ok (value : A)

def readExact (count : ℕ) (reader : Reader) : Outcome (Bytes × Reader) :=
  if count ≤ reader.bytes.length then
    .ok (reader.bytes.take count,
      { reader with bytes := reader.bytes.drop count })
  else if reader.ended then .fails (.io "early eof")
  else .waits

def readFrame (reader : Reader) : Outcome (Bytes × Reader) :=
  match readExact 2 reader with
  | .waits => .waits
  | .fails error => .fails error
  | .ok (len, reader) => readExact (fromBe len) reader

/-- One end's cipher and the stream it reads. -/
structure Incoming (State : Type*) where
  noise : State
  reader : Reader

/-- One frame off the stream, decrypted. -/
def readPlain (noise : Noise State) (input : Incoming State) :
    Outcome (Bytes × Incoming State) :=
  match readFrame input.reader with
  | .waits => .waits
  | .fails error => .fails error
  | .ok (frame, reader) =>
      match noise.readMessage input.noise frame with
      | .error message => .fails (.noise message)
      | .ok (plain, next) => .ok (plain, ⟨next, reader⟩)

/-- What `recv` holds of a message: its bytes so far, and the length its header
announced. -/
structure Partial where
  message : Bytes
  expected : Option ℕ
  deriving DecidableEq

def Partial.empty : Partial := ⟨[], none⟩

/-- The first plaintext starts with the length, which is checked before
anything is allocated for the body. -/
def Partial.extend (held : Partial) (plain : Bytes) : Except LanError Partial :=
  match held.expected with
  | some len => .ok ⟨held.message ++ plain, some len⟩
  | none =>
      if plain.length < 4 then .error (.malformed "short message header")
      else
        let len := fromBe (plain.take 4)
        if maxMessageBytes < len then .error (.tooLarge len)
        else .ok ⟨held.message ++ plain.drop 4, some len⟩

def Partial.len (held : Partial) : ℕ := held.expected.getD 0

theorem readExact_length {count : ℕ} {reader rest : Reader} {bytes : Bytes}
    (hread : readExact count reader = .ok (bytes, rest)) :
    rest.bytes.length + count = reader.bytes.length := by
  unfold readExact at hread
  split at hread
  · next henough =>
    simp only [Outcome.ok.injEq, Prod.mk.injEq] at hread
    rw [← hread.2, List.length_drop, Nat.sub_add_cancel henough]
  · split at hread <;> cases hread

/-- Reading a frame uses up part of the stream. -/
theorem readFrame_length_lt {reader rest : Reader} {frame : Bytes}
    (hread : readFrame reader = .ok (frame, rest)) :
    rest.bytes.length < reader.bytes.length := by
  unfold readFrame at hread
  cases hlen : readExact 2 reader with
  | waits => rw [hlen] at hread; cases hread
  | fails error => rw [hlen] at hread; cases hread
  | ok value =>
      rw [hlen] at hread
      have hbody := readExact_length hread
      have hheader := readExact_length hlen
      omega

theorem readPlain_length_lt {noise : Noise State} {input rest : Incoming State}
    {plain : Bytes} (hread : readPlain noise input = .ok (plain, rest)) :
    rest.reader.bytes.length < input.reader.bytes.length := by
  unfold readPlain at hread
  cases hframe : readFrame input.reader with
  | waits => rw [hframe] at hread; cases hread
  | fails error => rw [hframe] at hread; cases hread
  | ok value =>
      rw [hframe] at hread
      dsimp only at hread
      split at hread
      · cases hread
      · simp only [Outcome.ok.injEq, Prod.mk.injEq] at hread
        rw [← hread.2]
        exact readFrame_length_lt hframe

/-- The loop of `recv`. -/
def recvLoop (noise : Noise State) (held : Partial) (input : Incoming State) :
    Outcome (Bytes × Incoming State) :=
  match _hread : readPlain noise input with
  | .waits => .waits
  | .fails error => .fails error
  | .ok (plain, rest) =>
      match held.extend plain with
      | .error error => .fails error
      | .ok held =>
          if held.len < held.message.length then
            .fails (.malformed "message longer than announced")
          else if held.message.length = held.len then .ok (held.message, rest)
          else recvLoop noise held rest
termination_by input.reader.bytes.length
decreasing_by exact readPlain_length_lt _hread

def recv (noise : Noise State) (input : Incoming State) :
    Outcome (Bytes × Incoming State) :=
  recvLoop noise Partial.empty input

/-- `recv` so many times in turn, up to the first that does not succeed. -/
def recvTimes (noise : Noise State) :
    ℕ → Incoming State → Outcome (List Bytes × Incoming State)
  | 0, input => .ok ([], input)
  | count + 1, input =>
      match recv noise input with
      | .waits => .waits
      | .fails error => .fails error
      | .ok (message, rest) =>
          match recvTimes noise count rest with
          | .waits => .waits
          | .fails error => .fails error
          | .ok (messages, rest) => .ok (message :: messages, rest)

/-- `Holds held input later` says that `recv`'s loop, at its head with `held`
and `input`, comes to hold `later`, there or inside a turn. -/
inductive Holds (noise : Noise State) :
    Partial → Incoming State → Partial → Prop
  | here (held : Partial) (input : Incoming State) : Holds noise held input held
  | filled {held full : Partial} {input rest : Incoming State} {plain : Bytes}
      (hread : readPlain noise input = .ok (plain, rest))
      (hextend : held.extend plain = .ok full) : Holds noise held input full
  | later {held full last : Partial} {input rest : Incoming State}
      {plain : Bytes} (hread : readPlain noise input = .ok (plain, rest))
      (hextend : held.extend plain = .ok full)
      (hshort : full.message.length < full.len)
      (hholds : Holds noise full rest last) : Holds noise held input last

/-! ## One turn of the loop -/

theorem recvLoop_of_read {noise : Noise State} {held full : Partial}
    {input rest : Incoming State} {plain : Bytes}
    (hread : readPlain noise input = .ok (plain, rest))
    (hextend : held.extend plain = .ok full) :
    recvLoop noise held input =
      if full.len < full.message.length then
        .fails (.malformed "message longer than announced")
      else if full.message.length = full.len then .ok (full.message, rest)
      else recvLoop noise full rest := by
  rw [recvLoop]
  split
  · next hwaits => rw [hread] at hwaits; cases hwaits
  · next error hfails => rw [hread] at hfails; cases hfails
  · next plain' rest' hread' =>
    obtain ⟨rfl, rfl⟩ : plain = plain' ∧ rest = rest' := by
      simpa [hread] using hread'
    rw [hextend]

theorem recvLoop_ends {noise : Noise State} {held full : Partial}
    {input rest : Incoming State} {plain : Bytes}
    (hread : readPlain noise input = .ok (plain, rest))
    (hextend : held.extend plain = .ok full)
    (hfull : full.message.length = full.len) :
    recvLoop noise held input = .ok (full.message, rest) := by
  rw [recvLoop_of_read hread hextend, if_neg hfull.not_gt, if_pos hfull]

theorem recvLoop_goes_on {noise : Noise State} {held full : Partial}
    {input rest : Incoming State} {plain : Bytes}
    (hread : readPlain noise input = .ok (plain, rest))
    (hextend : held.extend plain = .ok full)
    (hshort : full.message.length < full.len) :
    recvLoop noise held input = recvLoop noise full rest := by
  rw [recvLoop_of_read hread hextend, if_neg hshort.not_gt,
    if_neg hshort.ne]

/-- `recv`'s loop succeeds only on a frame that fits what it holds: the frame
ends the message, or the loop goes on with a message still too short. -/
theorem recvLoop_ok {noise : Noise State} {held : Partial}
    {input after : Incoming State} {message : Bytes}
    (hrecv : recvLoop noise held input = .ok (message, after)) :
    ∃ plain rest full, readPlain noise input = .ok (plain, rest) ∧
      held.extend plain = .ok full ∧
      (full.message = message ∧ message.length = full.len ∧ rest = after ∨
        full.message.length < full.len ∧
          recvLoop noise full rest = .ok (message, after)) := by
  cases hread : readPlain noise input with
  | waits =>
      rw [recvLoop] at hrecv
      split at hrecv <;> simp_all
  | fails error =>
      rw [recvLoop] at hrecv
      split at hrecv <;> simp_all
  | ok value =>
      obtain ⟨plain, rest⟩ := value
      cases hextend : held.extend plain with
      | error error =>
          rw [recvLoop] at hrecv
          split at hrecv <;> simp_all
      | ok full =>
          refine ⟨plain, rest, full, rfl, hextend, ?_⟩
          rw [recvLoop_of_read hread hextend] at hrecv
          split at hrecv
          · cases hrecv
          next hfits =>
          split at hrecv
          · next hfull =>
            simp only [Outcome.ok.injEq, Prod.mk.injEq] at hrecv
            obtain ⟨rfl, rfl⟩ := hrecv
            exact .inl ⟨rfl, hfull, rfl⟩
          · exact .inr ⟨by omega, hrecv⟩

/-! ## Frames on the stream -/

@[simp]
theorem length_framed (frame : Bytes) :
    (framed frame).length = frame.length + 2 := by
  rw [framed, List.length_append, length_beBytes, Nat.add_comm]

theorem readExact_append (front later : Bytes) (ended : Bool) :
    readExact front.length ⟨front ++ later, ended⟩ =
      .ok (front, ⟨later, ended⟩) := by
  have henough : front.length ≤ (front ++ later).length := by
    rw [List.length_append]
    exact Nat.le_add_right _ _
  rw [readExact, if_pos henough, List.take_left, List.drop_left]

theorem readFrame_framed {frame : Bytes} (hshort : frame.length < 2 ^ 16)
    (later : Bytes) (ended : Bool) :
    readFrame ⟨framed frame ++ later, ended⟩ = .ok (frame, ⟨later, ended⟩) := by
  have hheader := readExact_append (beBytes 2 frame.length) (frame ++ later) ended
  rw [length_beBytes] at hheader
  rw [framed, List.append_assoc, readFrame, hheader]
  dsimp only
  rw [fromBe_beBytes hshort, readExact_append]

/-- A frame read off the front part of a stream is the stream's first frame. -/
theorem readFrame_part {frame wire read : Bytes}
    (hshort : frame.length < 2 ^ 16) {reader rest : Reader}
    (hpart : reader.bytes <+: framed frame ++ wire)
    (hread : readFrame reader = .ok (read, rest)) :
    read = frame ∧ rest.bytes <+: wire ∧
      reader.bytes = framed frame ++ rest.bytes := by
  obtain ⟨unseen, hunseen⟩ := hpart
  by_cases hlength : (framed frame).length ≤ reader.bytes.length
  · obtain ⟨later, hlater⟩ : ∃ later, reader.bytes = framed frame ++ later :=
      List.prefix_of_prefix_length_le
        (List.prefix_append (framed frame) wire)
        ⟨unseen, hunseen⟩ hlength |>.imp fun _ => Eq.symm
    have hreader : reader = ⟨framed frame ++ later, reader.ended⟩ := by
      rw [← hlater]
    rw [hreader, readFrame_framed hshort] at hread
    simp only [Outcome.ok.injEq, Prod.mk.injEq] at hread
    obtain ⟨rfl, rfl⟩ := hread
    rw [hlater, List.append_assoc] at hunseen
    exact ⟨rfl, ⟨unseen, List.append_cancel_left hunseen⟩, hlater⟩
  · exfalso
    unfold readFrame at hread
    cases hheader : readExact 2 reader with
    | waits => rw [hheader] at hread; cases hread
    | fails error => rw [hheader] at hread; cases hread
    | ok value =>
        obtain ⟨len, body⟩ := value
        rw [hheader] at hread
        have hlen : len = beBytes 2 frame.length := by
          unfold readExact at hheader
          split at hheader
          · next henough =>
            simp only [Outcome.ok.injEq, Prod.mk.injEq] at hheader
            have htake := congrArg (List.take 2) hunseen
            rw [List.take_append_of_le_length henough, framed,
              List.append_assoc, List.take_left' (length_beBytes _ _)] at htake
            rw [← hheader.1, htake]
          · split at hheader <;> cases hheader
        have hbody := readExact_length hread
        have hfirst := readExact_length hheader
        rw [hlen, fromBe_beBytes hshort] at hbody
        rw [length_framed] at hlength
        omega

/-- The bytes of a stream decrypt, frame by frame, to the given plaintexts. -/
def Decrypts (noise : Noise State) :
    State → List Bytes → Bytes → State → Prop
  | reading, [], wire, last => wire = [] ∧ last = reading
  | reading, plain :: plains, wire, last =>
      ∃ frame next rest, wire = framed frame ++ rest ∧
        frame.length < 2 ^ 16 ∧
        noise.readMessage reading frame = .ok (plain, next) ∧
        Decrypts noise next plains rest last

/-- What one end writes, the end in step with it decrypts. -/
theorem writeChunks_decrypts {noise : Noise State}
    {inStep : State → State → Prop} (hnoise : noise.Inverts inStep)
    {plains : List Bytes} (hplains : ∀ plain ∈ plains, plain.length ≤ maxChunk)
    {writing reading : State} (hstep : inStep writing reading)
    (written : Bytes) :
    ∃ wire writing' reading',
      writeChunks noise plains ⟨writing, written⟩ =
        (.ok (), ⟨writing', written ++ wire⟩) ∧
      Decrypts noise reading plains wire reading' ∧
      inStep writing' reading' := by
  induction plains generalizing writing reading written with
  | nil =>
      refine ⟨[], writing, reading, ?_, ⟨rfl, rfl⟩, hstep⟩
      rw [writeChunks, List.append_nil]
  | cons plain plains ih =>
      obtain ⟨frame, next, nextReading, hwrite, hlength, hread, hnext⟩ :=
        hnoise writing reading plain hstep (hplains plain List.mem_cons_self)
      have hshort : frame.length < 2 ^ 16 := by
        have hplain := hplains plain List.mem_cons_self
        simp only [maxChunk, maxNoiseMessage, tagLen] at *
        omega
      obtain ⟨wire, writing', reading', hrest, hdecrypts, hlast⟩ :=
        ih (fun other hother => hplains other (List.mem_cons_of_mem _ hother))
          hnext (written ++ framed frame)
      refine ⟨framed frame ++ wire, writing', reading', ?_,
        ⟨frame, nextReading, wire, rfl, hshort, hread, hdecrypts⟩, hlast⟩
      rw [writeChunks, hwrite]
      dsimp only
      rw [writeFrame, if_pos hshort]
      dsimp only
      rw [hrest, List.append_assoc]

theorem Decrypts.append {noise : Noise State} {front back : List Bytes}
    {used rest : Bytes} {first middle last : State}
    (hfront : Decrypts noise first front used middle)
    (hback : Decrypts noise middle back rest last) :
    Decrypts noise first (front ++ back) (used ++ rest) last := by
  induction front generalizing first used with
  | nil =>
      obtain ⟨rfl, rfl⟩ := hfront
      exact hback
  | cons plain front ih =>
      obtain ⟨frame, next, later, rfl, hshort, hread, hlater⟩ := hfront
      exact ⟨frame, next, later ++ rest, List.append_assoc _ _ _, hshort, hread,
        ih hlater⟩

theorem Decrypts.single {noise : Noise State} {first next : State}
    {frame plain : Bytes} (hshort : frame.length < 2 ^ 16)
    (hread : noise.readMessage first frame = .ok (plain, next)) :
    Decrypts noise first [plain] (framed frame) next :=
  ⟨frame, next, [], (List.append_nil _).symm, hshort, hread, rfl, rfl⟩

/-- The next plaintext of a stream that has arrived that far. -/
theorem readPlain_framed {noise : Noise State} {reading next : State}
    {frame plain : Bytes} (hshort : frame.length < 2 ^ 16)
    (hread : noise.readMessage reading frame = .ok (plain, next))
    (later : Bytes) (ended : Bool) :
    readPlain noise ⟨reading, ⟨framed frame ++ later, ended⟩⟩ =
      .ok (plain, ⟨next, ⟨later, ended⟩⟩) := by
  rw [readPlain, readFrame_framed hshort]
  dsimp only
  rw [hread]

/-- A plaintext read off the front part of an authentic stream is the stream's
first, and what is left is the front part of the rest. -/
theorem readPlain_decrypts {noise : Noise State} {plains : List Bytes}
    {wire plain : Bytes} {last : State} {input rest : Incoming State}
    (hdecrypts : Decrypts noise input.noise plains wire last)
    (hpart : input.reader.bytes <+: wire)
    (hread : readPlain noise input = .ok (plain, rest)) :
    ∃ later used unread, plains = plain :: later ∧
      input.reader.bytes = used ++ rest.reader.bytes ∧
      Decrypts noise input.noise [plain] used rest.noise ∧
      Decrypts noise rest.noise later unread last ∧
      rest.reader.bytes <+: unread := by
  cases plains with
  | nil =>
      exfalso
      have hempty : input.reader.bytes = [] := by
        rw [hdecrypts.1] at hpart
        exact List.prefix_nil.mp hpart
      have hshrinks := readPlain_length_lt hread
      rw [hempty] at hshrinks
      exact Nat.not_lt_zero _ hshrinks
  | cons first later =>
      obtain ⟨frame, next, unread, rfl, hshort, hmessage, hlater⟩ := hdecrypts
      unfold readPlain at hread
      cases hframe : readFrame input.reader with
      | waits => rw [hframe] at hread; cases hread
      | fails error => rw [hframe] at hread; cases hread
      | ok value =>
          obtain ⟨read, reader⟩ := value
          obtain ⟨rfl, hunread, hused⟩ := readFrame_part hshort hpart hframe
          rw [hframe] at hread
          dsimp only at hread
          rw [hmessage] at hread
          simp only [Outcome.ok.injEq, Prod.mk.injEq] at hread
          obtain ⟨rfl, rfl⟩ := hread
          exact ⟨later, framed read, unread, rfl, hused,
            Decrypts.single hshort hmessage, hlater, hunread⟩

/-! ## What a part-received message holds -/

/-- The plaintexts that `held` was filled with. -/
def Partial.Collects (held : Partial) (done : List Bytes) : Prop :=
  match held.expected with
  | none => held.message = [] ∧ done = []
  | some len =>
      done.flatten = beBytes 4 len ++ held.message ∧ len ≤ maxMessageBytes

theorem Partial.Collects.extend {held full : Partial} {done : List Bytes}
    {plain : Bytes} (hheld : held.Collects done)
    (hextend : held.extend plain = .ok full) :
    full.Collects (done ++ [plain]) ∧ full.expected = some full.len ∧
      full.message.length ≤ held.message.length + plain.length := by
  obtain ⟨message, expected⟩ := held
  cases expected with
  | some len =>
      obtain rfl := Except.ok.inj hextend
      obtain ⟨hflatten, hlen⟩ := hheld
      refine ⟨⟨?_, hlen⟩, rfl, (List.length_append ..).le⟩
      rw [List.flatten_concat, hflatten, List.append_assoc]
  | none =>
      obtain ⟨rfl, rfl⟩ := hheld
      dsimp only [Partial.extend] at hextend
      split at hextend
      · cases hextend
      next hheader =>
      split at hextend
      · cases hextend
      next hsmall =>
      obtain rfl := Except.ok.inj hextend
      have hfour : (plain.take 4).length = 4 := by
        rw [List.length_take]
        omega
      have hnumber : beBytes 4 (fromBe (plain.take 4)) = plain.take 4 := by
        have hround := beBytes_fromBe (plain.take 4)
        rwa [hfour] at hround
      refine ⟨⟨?_, by omega⟩, rfl, ?_⟩
      · rw [List.nil_append, List.flatten_singleton, hnumber, List.nil_append,
          List.take_append_drop]
      · rw [List.nil_append, List.length_drop, List.length_nil]
        omega

theorem Partial.Collects.len_le {held : Partial} {done : List Bytes}
    (hheld : held.Collects done) (hexpected : held.expected = some held.len) :
    done.flatten = beBytes 4 held.len ++ held.message ∧
      held.len ≤ maxMessageBytes := by
  rw [Partial.Collects, hexpected] at hheld
  exact hheld

/-- Plaintexts that spell one message, the last of them ending it. -/
def Spells (plains : List Bytes) (message : Bytes) : Prop :=
  plains.flatten = beBytes 4 message.length ++ message ∧
    message.length ≤ maxMessageBytes ∧
    ∀ count < plains.length,
      (plains.take count).flatten.length < 4 + message.length

/-- A message is complete with the plaintext that ends it and not before. -/
theorem Partial.Collects.spells {held full : Partial} {done : List Bytes}
    {plain : Bytes} (hheld : held.Collects done)
    (hshort : held.message.length ≤ held.len ∧
      (held.expected = none ∨ held.message.length < held.len))
    (hextend : held.extend plain = .ok full)
    (hfull : full.message.length = full.len) :
    Spells (done ++ [plain]) full.message := by
  obtain ⟨hcollects, hexpected, -⟩ := hheld.extend hextend
  obtain ⟨hflatten, hmax⟩ := hcollects.len_le hexpected
  refine ⟨by rw [hflatten, hfull], hfull ▸ hmax, fun count hcount => ?_⟩
  rw [List.length_append, List.length_singleton, Nat.lt_succ_iff] at hcount
  rw [List.take_append_of_le_length hcount]
  have hfront : (done.take count).flatten.length ≤ done.flatten.length := by
    conv_rhs => rw [← List.take_append_drop count done, List.flatten_append,
      List.length_append]
    exact Nat.le_add_right _ _
  refine Nat.lt_of_le_of_lt hfront ?_
  obtain ⟨message, expected⟩ := held
  cases expected with
  | none =>
      rw [hheld.2]
      exact Nat.lt_of_lt_of_le (by decide : 0 < 4) (Nat.le_add_right _ _)
  | some len =>
      obtain rfl := Except.ok.inj hextend
      have hless : message.length < len :=
        hshort.2.resolve_left (Option.some_ne_none len)
      rw [hheld.1, List.length_append, length_beBytes, hfull]
      exact Nat.add_lt_add_left hless 4

/-- What the loop of `recv` returns on the front part of an authentic stream. -/
theorem recvLoop_decrypts {noise : Noise State} {plains done : List Bytes}
    {wire message : Bytes} {last : State} {held : Partial}
    {input after : Incoming State}
    (hdecrypts : Decrypts noise input.noise plains wire last)
    (hpart : input.reader.bytes <+: wire) (hheld : held.Collects done)
    (hshort : held.message.length ≤ held.len ∧
      (held.expected = none ∨ held.message.length < held.len))
    (hrecv : recvLoop noise held input = .ok (message, after)) :
    ∃ front back used, plains = front ++ back ∧
      input.reader.bytes = used ++ after.reader.bytes ∧
      Decrypts noise input.noise front used after.noise ∧
      Spells (done ++ front) message := by
  induction plains generalizing input held done wire with
  | nil =>
      obtain ⟨plain, rest, full, hread, -⟩ := recvLoop_ok hrecv
      obtain ⟨later, used, unread, hplains, -⟩ :=
        readPlain_decrypts hdecrypts hpart hread
      cases hplains
  | cons first plains ih =>
      obtain ⟨plain, rest, full, hread, hextend, hturn⟩ := recvLoop_ok hrecv
      obtain ⟨later, used, unread, hplains, hused, hfirst, hlater, hunread⟩ :=
        readPlain_decrypts hdecrypts hpart hread
      obtain ⟨rfl, rfl⟩ := List.cons.inj hplains
      rcases hturn with ⟨rfl, hfull, rfl⟩ | ⟨hless, hrest⟩
      · exact ⟨[first], plains, used, rfl, hused, hfirst,
          hheld.spells hshort hextend hfull⟩
      · obtain ⟨hcollects, -, -⟩ := hheld.extend hextend
        obtain ⟨front, back, taken, rfl, htaken, hfront, hspells⟩ :=
          ih hlater hunread hcollects ⟨hless.le, .inr hless⟩ hrest
        refine ⟨first :: front, back, used ++ taken, rfl, ?_,
          hfirst.append hfront, ?_⟩
        · rw [hused, htaken, List.append_assoc]
        · rwa [List.append_assoc] at hspells

/-- What `recv` holds of a message never grows past the announced length by
more than the plaintext it has just read. -/
theorem Holds.length_le {noise : Noise State} {plains done : List Bytes}
    {wire : Bytes} {last : State} {held later : Partial} {input : Incoming State}
    (hholds : Holds noise held input later)
    (hdecrypts : Decrypts noise input.noise plains wire last)
    (hplains : ∀ plain ∈ plains, plain.length ≤ maxChunk)
    (hpart : input.reader.bytes <+: wire) (hheld : held.Collects done)
    (hless : held.message.length ≤ held.len) :
    later.message.length ≤ later.len + maxChunk := by
  induction hholds generalizing plains done wire with
  | here held input => exact Nat.le_add_right_of_le hless
  | @filled held full input rest plain hread hextend =>
      obtain ⟨tail, used, unread, rfl, -⟩ :=
        readPlain_decrypts hdecrypts hpart hread
      have hplain := hplains plain List.mem_cons_self
      obtain ⟨-, -, hlength⟩ := hheld.extend hextend
      have hlen : held.len ≤ full.len ∨ held.message = [] := by
        obtain ⟨message, expected⟩ := held
        cases expected with
        | none => exact .inr hheld.1
        | some len =>
            obtain rfl := Except.ok.inj hextend
            exact .inl (Nat.le_refl _)
      rcases hlen with hlen | hempty
      · omega
      · rw [hempty, List.length_nil] at hlength
        omega
  | later hread hextend hshort _ ih =>
      obtain ⟨tail, used, unread, rfl, -, -, htail, hunread⟩ :=
        readPlain_decrypts hdecrypts hpart hread
      obtain ⟨hcollects, -, -⟩ := hheld.extend hextend
      exact ih htail (fun other hother =>
        hplains other (List.mem_cons_of_mem _ hother)) hunread hcollects
        hshort.le

/-! ## Receiving what was sent -/

/-- The rest of a message that arrives in pieces none of which is empty. -/
theorem recvLoop_pieces {noise : Noise State} {plains : List Bytes}
    (hnonempty : ∀ plain ∈ plains, plain ≠ []) (hplains : plains ≠ [])
    {reading last : State} {wire front message : Bytes}
    (hdecrypts : Decrypts noise reading plains wire last)
    (hmessage : front ++ plains.flatten = message) (later : Bytes)
    (ended : Bool) :
    recvLoop noise ⟨front, some message.length⟩
        ⟨reading, ⟨wire ++ later, ended⟩⟩ =
      .ok (message, ⟨last, ⟨later, ended⟩⟩) := by
  induction plains generalizing reading wire front with
  | nil => exact absurd rfl hplains
  | cons plain plains ih =>
      obtain ⟨frame, next, rest, rfl, hshort, hread, hrest⟩ := hdecrypts
      have hfirst := readPlain_framed hshort hread (rest ++ later) ended
      have hextend : Partial.extend ⟨front, some message.length⟩ plain =
          .ok ⟨front ++ plain, some message.length⟩ := rfl
      rw [List.append_assoc]
      rw [List.flatten_cons, ← List.append_assoc] at hmessage
      by_cases hlast : plains = []
      · obtain rfl := hlast
        obtain ⟨rfl, rfl⟩ := hrest
        obtain rfl : front ++ plain = message := by simpa using hmessage
        exact recvLoop_ends hfirst hextend rfl
      · have hmore : 0 < plains.flatten.length := by
          obtain ⟨head, tail, rfl⟩ := List.exists_cons_of_ne_nil hlast
          rw [List.flatten_cons, List.length_append]
          exact Nat.add_pos_left (List.length_pos_of_ne_nil
            (hnonempty head (by simp))) _
        have hshort : (front ++ plain).length < message.length := by
          calc (front ++ plain).length
              < (front ++ plain).length + plains.flatten.length :=
                Nat.lt_add_of_pos_right hmore
            _ = message.length := by rw [← List.length_append, hmessage]
        rw [recvLoop_goes_on hfirst hextend hshort]
        exact ih (fun other hother =>
          hnonempty other (List.mem_cons_of_mem _ hother)) hlast hrest hmessage

/-- A whole message that arrives in pieces none of which is empty, the first of
them with the whole header. -/
theorem recv_pieces {noise : Noise State} {first : Bytes} {plains : List Bytes}
    {message : Bytes} (hmax : message.length ≤ maxMessageBytes)
    (hnonempty : ∀ plain ∈ plains, plain ≠ []) (hheader : 4 ≤ first.length)
    (hmessage : first ++ plains.flatten =
      beBytes 4 message.length ++ message)
    {reading last : State} {wire : Bytes}
    (hdecrypts : Decrypts noise reading (first :: plains) wire last)
    (later : Bytes) (ended : Bool) :
    recv noise ⟨reading, ⟨wire ++ later, ended⟩⟩ =
      .ok (message, ⟨last, ⟨later, ended⟩⟩) := by
  obtain ⟨frame, next, rest, rfl, hshort, hread, hrest⟩ := hdecrypts
  have hfirst := readPlain_framed hshort hread (rest ++ later) ended
  have hfits : message.length < 256 ^ 4 :=
    Nat.lt_of_le_of_lt hmax (by decide)
  have htake : first.take 4 = beBytes 4 message.length := by
    have hfour := congrArg (List.take 4) hmessage
    rwa [List.take_append_of_le_length hheader,
      List.take_left' (length_beBytes _ _)] at hfour
  have hbody : first.drop 4 ++ plains.flatten = message := by
    have hrest := congrArg (List.drop 4) hmessage
    rwa [List.drop_append_of_le_length hheader,
      List.drop_left' (length_beBytes _ _)] at hrest
  have hextend : Partial.empty.extend first =
      .ok ⟨first.drop 4, some message.length⟩ := by
    simp only [Partial.extend, Partial.empty]
    rw [if_neg (Nat.not_lt.mpr hheader), htake, fromBe_beBytes hfits,
      if_neg (Nat.not_lt.mpr hmax), List.nil_append]
  rw [recv, List.append_assoc]
  by_cases hlast : plains = []
  · obtain rfl := hlast
    obtain ⟨rfl, rfl⟩ := hrest
    obtain rfl : first.drop 4 = message := by simpa using hbody
    exact recvLoop_ends hfirst hextend rfl
  · have hmore : 0 < plains.flatten.length := by
      obtain ⟨head, tail, rfl⟩ := List.exists_cons_of_ne_nil hlast
      rw [List.flatten_cons, List.length_append]
      exact Nat.add_pos_left (List.length_pos_of_ne_nil
        (hnonempty head (by simp))) _
    have hshort : (first.drop 4).length < message.length := by
      calc (first.drop 4).length
          < (first.drop 4).length + plains.flatten.length :=
            Nat.lt_add_of_pos_right hmore
        _ = message.length := by rw [← List.length_append, hbody]
    rw [recvLoop_goes_on hfirst hextend hshort]
    exact recvLoop_pieces hnonempty hlast hrest hbody later ended

/-- One message: it is sent whatever its length, and received as it was. -/
theorem send_recv {noise : Noise State} {inStep : State → State → Prop}
    (hnoise : noise.Inverts inStep) {message : Bytes}
    (hmax : message.length ≤ maxMessageBytes) {writing reading : State}
    (hstep : inStep writing reading) (written : Bytes) :
    ∃ wire writing' reading',
      send noise message ⟨writing, written⟩ =
        (.ok (), ⟨writing', written ++ wire⟩) ∧
      inStep writing' reading' ∧
      ∀ later ended, recv noise ⟨reading, ⟨wire ++ later, ended⟩⟩ =
        .ok (message, ⟨reading', ⟨later, ended⟩⟩) := by
  have hsize : 0 < maxChunk := by decide
  have hfits : message.length < 2 ^ 32 := Nat.lt_of_le_of_lt hmax (by decide)
  set plain := beBytes 4 message.length ++ message with hplain
  have hlength : 4 ≤ plain.length := by
    rw [hplain, List.length_append, length_beBytes]
    exact Nat.le_add_right _ _
  obtain ⟨plains, hchunks⟩ := exists_chunks_eq_cons maxChunk
    (List.ne_nil_of_length_pos (Nat.lt_of_lt_of_le (by decide) hlength))
  obtain ⟨wire, writing', reading', hwrite, hdecrypts, hlast⟩ :=
    writeChunks_decrypts hnoise
      (fun piece (hpiece : piece ∈ chunks maxChunk plain) =>
        length_le_of_mem_chunks hpiece) hstep written
  have hflatten := flatten_chunks hsize plain
  have hnonempty : ∀ piece ∈ plains, piece ≠ [] := by
    intro piece hpiece
    have hmem : piece ∈ chunks maxChunk plain :=
      hchunks ▸ List.mem_cons_of_mem _ hpiece
    exact ne_nil_of_mem_chunks hsize hmem
  have hheader : 4 ≤ (plain.take maxChunk).length := by
    rw [List.length_take]
    exact le_min (by decide) hlength
  rw [hchunks] at hdecrypts hflatten
  refine ⟨wire, writing', reading', ?_, hlast,
    recv_pieces hmax hnonempty hheader hflatten hdecrypts⟩
  rw [send, if_neg (Nat.not_lt.mpr hmax), if_neg (Nat.not_le.mpr hfits)]
  exact hwrite

/-- Messages sent in turn are received in turn. -/
theorem sendAll_recvTimes {noise : Noise State} {inStep : State → State → Prop}
    (hnoise : noise.Inverts inStep) {messages : List Bytes}
    (hmax : ∀ message ∈ messages, message.length ≤ maxMessageBytes)
    {writing reading : State} (hstep : inStep writing reading)
    (written : Bytes) :
    ∃ wire writing' reading',
      sendAll noise messages ⟨writing, written⟩ =
        (.ok (), ⟨writing', written ++ wire⟩) ∧
      inStep writing' reading' ∧
      ∀ later ended,
        recvTimes noise messages.length ⟨reading, ⟨wire ++ later, ended⟩⟩ =
          .ok (messages, ⟨reading', ⟨later, ended⟩⟩) := by
  induction messages generalizing writing reading written with
  | nil =>
      refine ⟨[], writing, reading, ?_, hstep, fun _ _ => rfl⟩
      rw [sendAll, List.append_nil]
  | cons message messages ih =>
      obtain ⟨first, next, nextReading, hsend, hnext, hrecv⟩ :=
        send_recv hnoise (hmax message List.mem_cons_self) hstep written
      obtain ⟨rest, writing', reading', hsendAll, hlast, hrecvTimes⟩ :=
        ih (fun other hother => hmax other (List.mem_cons_of_mem _ hother))
          hnext (written ++ first)
      refine ⟨first ++ rest, writing', reading', ?_, hlast,
        fun later ended => ?_⟩
      · rw [sendAll, hsend]
        dsimp only
        rw [hsendAll, List.append_assoc]
      · rw [List.length_cons, recvTimes, List.append_assoc, hrecv]
        dsimp only
        rw [hrecvTimes]

/-! ## Framing is exact -/

/-- Messages of any allowed lengths arrive as they were sent.  Whatever
plaintexts the other end writes, a message that `recv` returns is spelled by the
frames it has read, and by no fewer of them. -/
theorem framing_exact {noise : Noise State} {inStep : State → State → Prop}
    (hnoise : noise.Inverts inStep) {writing reading : State}
    (hstep : inStep writing reading) :
    (∀ messages : List Bytes,
      (∀ message ∈ messages, message.length ≤ maxMessageBytes) →
      ∃ wire writing' reading',
        sendAll noise messages ⟨writing, []⟩ = (.ok (), ⟨writing', wire⟩) ∧
        ∀ later ended,
          recvTimes noise messages.length ⟨reading, ⟨wire ++ later, ended⟩⟩ =
            .ok (messages, ⟨reading', ⟨later, ended⟩⟩)) ∧
    ∀ (plains : List Bytes) (wire : Bytes) (writing' : State)
      (input : Incoming State),
      (∀ plain ∈ plains, plain.length ≤ maxChunk) →
      writeChunks noise plains ⟨writing, []⟩ = (.ok (), ⟨writing', wire⟩) →
      input.noise = reading → input.reader.bytes <+: wire →
      (∀ message after, recv noise input = .ok (message, after) →
        ∃ front back used, plains = front ++ back ∧
          input.reader.bytes = used ++ after.reader.bytes ∧
          Decrypts noise reading front used after.noise ∧
          Spells front message) ∧
      ∀ held, Holds noise Partial.empty input held →
        held.message.length ≤ held.len + maxChunk := by
  constructor
  · intro messages hmax
    obtain ⟨wire, writing', reading', hsend, -, hrecv⟩ :=
      sendAll_recvTimes hnoise hmax hstep []
    exact ⟨wire, writing', reading', hsend, hrecv⟩
  · rintro plains wire writing' input hplains hwrite rfl hpart
    obtain ⟨wire', _, reading', hwrite', hdecrypts, -⟩ :=
      writeChunks_decrypts hnoise hplains hstep []
    obtain rfl : wire' = wire := by
      rw [hwrite] at hwrite'
      simpa using (congrArg (fun result => result.2.written) hwrite').symm
    have hheld : Partial.empty.Collects [] := ⟨rfl, rfl⟩
    constructor
    · intro message after hrecv
      exact recvLoop_decrypts hdecrypts hpart hheld
        ⟨Nat.zero_le _, .inl rfl⟩ hrecv
    · intro held hholds
      exact hholds.length_le hdecrypts hplains hpart hheld (Nat.zero_le _)

/-- A payload with its number as the tag. -/
def numberedFrame (number : ℕ) (payload : Bytes) : Bytes :=
  payload ++ List.replicate tagLen (UInt8.ofNat number)

/-- Ciphers that number their messages. -/
def numberedNoise : Noise ℕ where
  writeMessage number payload :=
    if maxChunk < payload.length then .error "input error"
    else .ok (numberedFrame number payload, number + 1)
  readMessage number frame :=
    let payload := frame.take (frame.length - tagLen)
    if numberedFrame number payload = frame then .ok (payload, number + 1)
    else .error "decrypt error"

theorem numberedNoise_read (number : ℕ) (payload : Bytes) :
    numberedNoise.readMessage number (numberedFrame number payload) =
      .ok (payload, number + 1) := by
  have htake : (numberedFrame number payload).take
      ((numberedFrame number payload).length - tagLen) = payload := by
    rw [numberedFrame, List.length_append, List.length_replicate,
      Nat.add_sub_cancel, List.take_left]
  dsimp only [numberedNoise]
  rw [htake, if_pos rfl]

theorem numberedNoise_inverts : numberedNoise.Inverts (· = ·) := by
  rintro number _ payload rfl hpayload
  refine ⟨numberedFrame number payload, number + 1, number + 1,
    if_neg (Nat.not_lt.mpr hpayload), ?_, numberedNoise_read number payload, rfl⟩
  rw [numberedFrame, List.length_append, List.length_replicate]

/-- An empty message and a short one; then a message in two frames, with a third
frame behind it that stays unread. -/
theorem framing_exact_numbered :
    (∃ wire writing' reading',
      sendAll numberedNoise [[], [7, 8]] ⟨0, []⟩ =
        (.ok (), ⟨writing', wire⟩) ∧
      ∀ later ended,
        recvTimes numberedNoise 2 ⟨0, ⟨wire ++ later, ended⟩⟩ =
          .ok ([[], [7, 8]], ⟨reading', ⟨later, ended⟩⟩)) ∧
    ∃ front back used, [[0, 0, 0, 2, 7], [8], [9]] = front ++ back ∧
      framed (numberedFrame 0 [0, 0, 0, 2, 7]) ++
          (framed (numberedFrame 1 [8]) ++ framed (numberedFrame 2 [9])) =
        used ++ framed (numberedFrame 2 [9]) ∧
      Decrypts numberedNoise 0 front used 2 ∧ Spells front [7, 8] := by
  have hexact := framing_exact numberedNoise_inverts (Eq.refl 0)
  refine ⟨hexact.1 [[], [7, 8]] (by decide), ?_⟩
  have hplains : ∀ plain ∈ [[0, 0, 0, 2, 7], [8], [(9 : UInt8)]],
      plain.length ≤ maxChunk := by decide
  have hwrite : writeChunks numberedNoise [[0, 0, 0, 2, 7], [8], [9]] ⟨0, []⟩ =
      (.ok (), ⟨3, framed (numberedFrame 0 [0, 0, 0, 2, 7]) ++
        (framed (numberedFrame 1 [8]) ++ framed (numberedFrame 2 [9]))⟩) := rfl
  have hrecv : recv numberedNoise
      ⟨0, ⟨framed (numberedFrame 0 [0, 0, 0, 2, 7]) ++
        (framed (numberedFrame 1 [8]) ++ framed (numberedFrame 2 [9])), false⟩⟩ =
      .ok ([7, 8], ⟨2, ⟨framed (numberedFrame 2 [9]), false⟩⟩) := by
    have hone := readPlain_framed (by decide : _ < 2 ^ 16)
      (numberedNoise_read 0 [0, 0, 0, 2, 7])
      (framed (numberedFrame 1 [8]) ++ framed (numberedFrame 2 [9])) false
    have htwo := readPlain_framed (by decide : _ < 2 ^ 16)
      (numberedNoise_read 1 [8]) (framed (numberedFrame 2 [9])) false
    have hheader : Partial.empty.extend [0, 0, 0, 2, 7] = .ok ⟨[7], some 2⟩ := by
      decide
    have hbody : Partial.extend ⟨[7], some 2⟩ [8] = .ok ⟨[7, 8], some 2⟩ := rfl
    rw [recv, recvLoop_goes_on hone hheader (by decide)]
    exact recvLoop_ends htwo hbody rfl
  exact (hexact.2 _ _ _ _ hplains hwrite rfl (List.prefix_refl _)).1 _ _ hrecv

end Cled.Lan
