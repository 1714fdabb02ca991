import Cled.Lan.Opening

/-!
# Sessions begin at both ends or at neither

Of a dialing device and whoever takes its connection, either both know each
other by their device IDs and keys, and then both come to the same session, or
neither comes to any.  A device that was removed learns it in the same way.
-/

namespace Cled.Lan

open Cled.Core Cled.Clipboard Cled.Sync

/-! ## What the handshakes promise -/

section Promises

variable {State : Type} (handshakes : Handshakes State)

/-- The messages of these turns, which are those of the first end, take both
ends from the first two states to the last two. -/
inductive Handshakes.Exchanges : List Bool →
    handshakes.Handshake → handshakes.Handshake →
      handshakes.Handshake → handshakes.Handshake → Prop
  | done (left right) : Exchanges [] left right left right
  | wrote {turns left right message nextLeft nextRight lastLeft lastRight}
      (hwrite : handshakes.writeMessage left = .ok (message, nextLeft))
      (hshort : message.length ≤ maxNoiseMessage)
      (hread : handshakes.readMessage right message = .ok nextRight)
      (hrest : Exchanges turns nextLeft nextRight lastLeft lastRight) :
      Exchanges (true :: turns) left right lastLeft lastRight
  | read {turns left right message nextLeft nextRight lastLeft lastRight}
      (hwrite : handshakes.writeMessage right = .ok (message, nextRight))
      (hshort : message.length ≤ maxNoiseMessage)
      (hread : handshakes.readMessage left message = .ok nextLeft)
      (hrest : Exchanges turns nextLeft nextRight lastLeft lastRight) :
      Exchanges (false :: turns) left right lastLeft lastRight

/-- What each of two ends in step encrypts, the other one decrypts. -/
structure Cipher.InStep (inStep : State → State → Prop)
    (left right : Cipher State) : Prop where
  forth : inStep left.writing right.reading
  back : inStep right.writing left.reading

/-- Both ends have the other's key, and their channels are in step. -/
def Handshakes.Finished (inStep : State → State → Prop)
    (left right : handshakes.Handshake) (leftKey rightKey : PublicKey) : Prop :=
  ∃ leftState rightState,
    finish handshakes left = .ok (leftState, rightKey) ∧
    finish handshakes right = .ok (rightState, leftKey) ∧
    inStep leftState rightState ∧ inStep rightState leftState

/-- No prologue of this program is longer. -/
def maxPrologue : ℕ := 64

/-- `Noise_KK`: the two ends finish if each has the other's key and their
prologues are the same.  Otherwise the responder refuses the first message. -/
structure Handshakes.SessionsAgree (publicOf : BitVec 256 → PublicKey)
    (inStep : State → State → Prop) : Prop where
  finishes : ∀ initiator responder prologue random other,
    prologue.length ≤ maxPrologue →
    ∃ left right lastLeft lastRight,
      handshakes.session true initiator (publicOf responder) prologue random =
        .ok left ∧
      handshakes.session false responder (publicOf initiator) prologue other =
        .ok right ∧
      handshakes.Exchanges (turns true 2) left right lastLeft lastRight ∧
      handshakes.Finished inStep lastLeft lastRight (publicOf initiator)
        (publicOf responder)
  refuses : ∀ initiator responder leftKey rightKey prologue otherPrologue
      random other left right message next,
    prologue.length ≤ maxPrologue → otherPrologue.length ≤ maxPrologue →
    handshakes.session true initiator rightKey prologue random = .ok left →
    handshakes.session false responder leftKey otherPrologue other = .ok right →
    ¬ (rightKey = publicOf responder ∧ leftKey = publicOf initiator ∧
      prologue = otherPrologue) →
    handshakes.writeMessage left = .ok (message, next) →
      ∃ text, handshakes.readMessage right message = .error text

end Promises

/-! ## Frames and messages -/

theorem exactly_take {bytes : Bytes} {count : ℕ}
    (hcount : bytes.length = count) :
    (exactly count).take bytes = some (bytes, []) := by
  have hread := readExact_append bytes [] false
  rw [hcount, List.append_nil] at hread
  exact arriving_take readExact_later hread

theorem oneFrame_take {frame : Bytes} (hshort : frame.length < 2 ^ 16) :
    oneFrame.take (framed frame) = some (frame, []) := by
  have hread := readFrame_framed hshort [] false
  rw [List.append_nil] at hread
  exact arriving_take readFrame_later hread

section Handshake

variable {State A B : Type} {handshakes : Handshakes State}

theorem sendFrame_andThen {frame : Bytes} (hshort : frame.length ≤ maxNoiseMessage)
    (next : Unit → Talk UInt8 LanError A) :
    (sendFrame frame).andThen next = .write (framed frame) id (next ()) := by
  have hfits : frame.length < 2 ^ 16 := Nat.lt_of_le_of_lt hshort (by decide)
  rw [sendFrame, if_pos hfits]
  rfl

/-- The left end sends a frame that the right one takes. -/
theorem reaches_frame {frame : Bytes} (hshort : frame.length ≤ maxNoiseMessage)
    (left : Talk UInt8 LanError A) (right : Bytes → Talk UInt8 LanError B) :
    Dialogue.Reaches
      ⟨.write (framed frame) id left, .read oneFrame id right, [], []⟩
      ⟨left, right frame, [], []⟩ := by
  have htake := oneFrame_take (Nat.lt_of_le_of_lt hshort (by decide))
  exact Dialogue.reaches_sent htake id id left right []

theorem handshake_write {turns : List Bool} {state next : handshakes.Handshake}
    {message : Bytes}
    (hwrite : handshakes.writeMessage state = .ok (message, next))
    (hshort : message.length ≤ maxNoiseMessage) :
    handshake handshakes (true :: turns) state =
      .write (framed message) id (handshake handshakes turns next) := by
  rw [handshake, hwrite]
  exact sendFrame_andThen hshort _

/-- An end whose turn it is to read. -/
theorem handshake_read (turns : List Bool) (state : handshakes.Handshake) :
    ∃ next, handshake handshakes (false :: turns) state =
        .read oneFrame id next ∧
      (∀ {message after}, handshakes.readMessage state message = .ok after →
        next message = handshake handshakes turns after) ∧
      ∀ {message text}, handshakes.readMessage state message = .error text →
        next message = .done (.error (.noise text)) := by
  refine ⟨_, by rw [handshake], fun hread => ?_, fun hread => ?_⟩
  · rw [hread]
  · rw [hread]

/-- One message of the handshake. -/
theorem reaches_turn {ours theirs : List Bool}
    {left right nextLeft nextRight : handshakes.Handshake} {message : Bytes}
    (hwrite : handshakes.writeMessage left = .ok (message, nextLeft))
    (hshort : message.length ≤ maxNoiseMessage)
    (hread : handshakes.readMessage right message = .ok nextRight) :
    Dialogue.Reaches
      ⟨handshake handshakes (true :: ours) left,
        handshake handshakes (false :: theirs) right, [], []⟩
      ⟨handshake handshakes ours nextLeft,
        handshake handshakes theirs nextRight, [], []⟩ := by
  obtain ⟨next, hreads, hnext, -⟩ := handshake_read theirs right
  rw [handshake_write hwrite hshort, hreads, ← hnext hread]
  exact reaches_frame hshort _ next

/-- The messages that two ends exchange take both through these turns of their
handshakes. -/
theorem Handshakes.Exchanges.reaches {turns : List Bool}
    {left right lastLeft lastRight : handshakes.Handshake}
    (hexchanges : handshakes.Exchanges turns left right lastLeft lastRight)
    (later : List Bool) :
    Dialogue.Reaches
      ⟨handshake handshakes (turns ++ later) left,
        handshake handshakes ((turns ++ later).map (!·)) right, [], []⟩
      ⟨handshake handshakes later lastLeft,
        handshake handshakes (later.map (!·)) lastRight, [], []⟩ := by
  induction hexchanges with
  | done left right => exact .refl
  | wrote hwrite hshort hread hrest ih =>
      exact (reaches_turn hwrite hshort hread).trans ih
  | read hwrite hshort hread hrest ih =>
      exact (reaches_turn hwrite hshort hread).swap.trans ih

end Handshake

section Hello

variable {State : Type} {noise : Noise State} {postcard : Wire.Postcard}
  {inStep : State → State → Prop}

/-- What one end sends, the end in step with it takes whole. -/
theorem Cipher.exists_wire (hnoise : noise.Inverts inStep)
    {cipher : Cipher State} {reading : State}
    (hstep : inStep cipher.writing reading) {message : Bytes}
    (hmax : message.length ≤ maxMessageBytes) :
    ∃ wire writing' reading', cipher.send noise message =
        .write wire id (.done (.ok { cipher with writing := writing' })) ∧
      inStep writing' reading' ∧
      Lan.recv noise ⟨reading, ⟨wire, false⟩⟩ =
        .ok (message, ⟨reading', ⟨[], false⟩⟩) := by
  obtain ⟨wire, writing', reading', hsend, hlast, hrecv⟩ :=
    send_recv hnoise hmax hstep []
  refine ⟨wire, writing', reading', ?_, hlast, ?_⟩
  · rw [Cipher.send, hsend]
    rfl
  · have hwhole := hrecv [] false
    rwa [List.append_nil] at hwhole

theorem checkHello_hello (hpostcard : postcard.Lossless) {inner : Inner}
    {nowMs : ℕ} {bytes : Bytes}
    (hencode : (Wire.Message.hello (inner.hello nowMs)).encode postcard =
      .ok bytes) :
    checkHello postcard inner.deviceId bytes = .ok (inner.hello nowMs) := by
  rw [checkHello, Wire.Message.decode_encode hpostcard hencode]
  exact if_neg (fun hother => hother rfl) |>.trans
    (if_neg fun hother => hother (DeviceId.fromBytes_toBytes inner.deviceId))

/-- Two ends in step that expect each other come to know each other. -/
theorem reaches_hellos (hnoise : noise.Inverts inStep)
    (hpostcard : postcard.Lossless) {left right : Cipher State}
    (hstep : left.InStep inStep right) {mine theirs : Inner}
    {leftMs rightMs : ℕ} {leftBytes rightBytes : Bytes}
    (hleft : (Wire.Message.hello (mine.hello leftMs)).encode postcard =
      .ok leftBytes)
    (hright : (Wire.Message.hello (theirs.hello rightMs)).encode postcard =
      .ok rightBytes) :
    ∃ left' right', left'.InStep inStep right' ∧
      Dialogue.Reaches
        ⟨exchangeHellos noise postcard left (mine.hello leftMs) theirs.deviceId,
          exchangeHellos noise postcard right (theirs.hello rightMs)
            mine.deviceId, [], []⟩
        ⟨.done (.ok (theirs.hello rightMs, left')),
          .done (.ok (mine.hello leftMs, right')), [], []⟩ := by
  obtain ⟨forth, forthWriting, forthReading, hforth, hforthStep, hforthRecv⟩ :=
    Cipher.exists_wire hnoise hstep.forth
      ((Wire.Message.encode_eq_ok_iff postcard).mp hleft).2
  obtain ⟨back, backWriting, backReading, hback, hbackStep, hbackRecv⟩ :=
    Cipher.exists_wire hnoise hstep.back
      ((Wire.Message.encode_eq_ok_iff postcard).mp hright).2
  refine ⟨⟨forthWriting, backReading⟩, ⟨backWriting, forthReading⟩,
    ⟨hforthStep, hbackStep⟩, ?_⟩
  have hbackTake := wholeMessage_take hbackRecv
  have hforthTake := wholeMessage_take hforthRecv
  simp only [exchangeHellos, hleft, hright, hforth, hback, Talk.andThen,
    Cipher.recv]
  refine (Dialogue.reaches_left (.wrote _ _ _ _)).trans ?_
  refine (Dialogue.reaches_right (.wrote _ _ _ _)).trans ?_
  refine (Dialogue.reaches_left (.took _ _ _ hbackTake)).trans ?_
  rw [List.nil_append, List.append_nil]
  refine (Dialogue.reaches_right (.took _ _ _ hforthTake)).trans ?_
  simp only [Except.map, Talk.andThen, checkHello_hello hpostcard hleft,
    checkHello_hello hpostcard hright]
  exact .refl

end Hello

/-! ## Preambles -/

@[simp]
theorem length_deviceBytes (device : DeviceId) :
    (deviceBytes device).length = 16 := length_beBytes _ _

@[simp]
theorem readDevice_deviceBytes (device : DeviceId) :
    readDevice (deviceBytes device) = device := by
  have hfits : device.toBytes.toNat < 256 ^ 16 := device.toBytes.isLt
  rw [readDevice, deviceBytes, fromBe_beBytes hfits, BitVec.ofNat_toNat,
    BitVec.setWidth_eq, DeviceId.fromBytes_toBytes]

@[simp]
theorem length_preamble (kind : UInt8) (device : DeviceId) :
    (preamble kind device).length = 22 := by
  rw [preamble, List.length_append, List.length_cons, List.length_cons,
    length_deviceBytes]
  rfl

section Dispatch

variable {State A : Type} {noise : Noise State} {handshakes : Handshakes State}
  {postcard : Wire.Postcard} {spake : Spake2}

/-- The accepting end learns who connects, and what for. -/
theorem reaches_dispatch (listener : Listener) (origin : Origin)
    (random nowMs : ℕ) (kind : UInt8) (device : DeviceId)
    (left : Talk UInt8 LanError A) :
    Dialogue.Reaches
      ⟨.write (preamble kind device) id left,
        handleIncoming noise handshakes postcard spake listener origin random
          nowMs, [], []⟩
      ⟨left, dispatch noise handshakes postcard spake listener origin random
        nowMs kind device, [], []⟩ := by
  have htake := exactly_take (length_preamble kind device)
  have hsent := Dialogue.reaches_sent htake id id left fun received =>
    if received.take 4 ≠ magic ∨ received.getD 4 0 ≠ preambleVersion then
      .done (.error (.malformed "not a Cled connection"))
    else
      dispatch noise handshakes postcard spake listener origin random nowMs
        (received.getD 5 0) (readDevice (received.drop 6))
  have hmagic : (preamble kind device).take 4 = magic := List.take_left' rfl
  have hversion : (preamble kind device).getD 4 0 = preambleVersion := by
    simp [preamble, magic]
  have hkind : (preamble kind device).getD 5 0 = kind := by
    simp [preamble, magic]
  have hsender : readDevice ((preamble kind device).drop 6) = device := by
    simp [preamble, magic]
  simp only [hmagic, hversion, hkind, hsender, ne_eq, not_true_eq_false,
    or_self, if_false] at hsent
  exact hsent []

end Dispatch

/-! ## Sessions -/

section Sessions

variable {State : Type} {noise : Noise State} {handshakes : Handshakes State}
  {postcard : Wire.Postcard} {spake : Spake2}
  {publicOf : BitVec 256 → PublicKey} {inStep : State → State → Prop}

/-- The public key belongs to the private one. -/
def Keys.Pair (publicOf : BitVec 256 → PublicKey) (keys : Keys) : Prop :=
  keys.publicKey = publicOf keys.privateKey

theorem reaches_sessionHandshake
    (hsessions : handshakes.SessionsAgree publicOf inStep) {ours theirs : Keys}
    (hours : ours.Pair publicOf) (htheirs : theirs.Pair publicOf)
    {prologue : Bytes} (hprologue : prologue.length ≤ maxPrologue)
    (random other : ℕ) :
    ∃ left right : Cipher State, left.InStep inStep right ∧
      Dialogue.Reaches
        ⟨sessionHandshake handshakes true ours theirs.publicKey prologue random,
          sessionHandshake handshakes false theirs ours.publicKey prologue other,
          [], []⟩
        ⟨.done (.ok left), .done (.ok right), [], []⟩ := by
  obtain ⟨left, right, lastLeft, lastRight, hleft, hright, hexchanges,
      leftState, rightState, hfinishLeft, hfinishRight, hforth, hback⟩ :=
    hsessions.finishes ours.privateKey theirs.privateKey prologue random other
      hprologue
  rw [← htheirs] at hleft
  rw [← hours] at hright
  refine ⟨Cipher.new leftState, Cipher.new rightState, ⟨hforth, hback⟩, ?_⟩
  have hreaches := hexchanges.reaches []
  rw [List.append_nil, List.map_nil, handshake, handshake, hfinishLeft,
    hfinishRight] at hreaches
  simp only [sessionHandshake, hleft, hright]
  exact hreaches.andThen _ _

/-- A device that dials a paired one. -/
structure Calling where
  inner : Inner
  peer : Peer
  address : Option SocketAddr
  random : ℕ
  nowMs : ℕ

/-- Whoever takes the connection. -/
structure Taking where
  listener : Listener
  origin : Origin
  random : ℕ
  nowMs : ℕ

/-- The dialed connection, before anything was sent. -/
def meeting (noise : Noise State) (handshakes : Handshakes State)
    (postcard : Wire.Postcard) (spake : Spake2) (calling : Calling)
    (taking : Taking) :
    Dialogue UInt8 LanError (Started State) (Accepted State) :=
  .start
    (connectOver noise handshakes postcard calling.inner calling.peer
      calling.address calling.random calling.nowMs)
    (handleIncoming noise handshakes postcard spake taking.listener
      taking.origin taking.random taking.nowMs)

/-- Each is the other device that it takes it for, and holds the key that it is
known by. -/
structure Mutual (calling : Calling) (taking : Taking) : Prop where
  other : calling.inner.deviceId ≠ taking.listener.inner.deviceId
  fits : taking.origin.fits calling.inner.deviceId = true
  device : calling.peer.deviceId = taking.listener.inner.deviceId
  key : calling.peer.publicKey = taking.listener.inner.keys.publicKey
  known : ∃ known ∈ taking.listener.store.known calling.inner.deviceId,
    known.1.publicKey = calling.inner.keys.publicKey

/-- What both ends come to, and what the dialing one has not read yet: a session
between the two, or the notice that the dialing device was removed. -/
inductive Begins (noise : Noise State) (postcard : Wire.Postcard)
    (inStep : State → State → Prop) (calling : Calling) (taking : Taking) :
    Started State → Accepted State → Bytes → Prop
  | session (peer : Peer) (left right : Cipher State)
      (hlisted : taking.listener.store.known calling.inner.deviceId =
        some (peer, false))
      (hstep : left.InStep inStep right) :
      Begins noise postcard inStep calling taking
        { peer := taking.listener.inner.deviceId
          initiator := calling.inner.deviceId
          hello := taking.listener.inner.hello taking.nowMs
          address := calling.address.map
            (withPort · taking.listener.inner.listenPort)
          cipher := left }
        (.session
          { peer := calling.inner.deviceId
            initiator := calling.inner.deviceId
            hello := calling.inner.hello calling.nowMs
            address := taking.origin.address.map
              (withPort · calling.inner.listenPort)
            cipher := right }) []
  | dismissed (peer : Peer) (left : Cipher State) (wire bye : Bytes)
      (last : State)
      (hremoved : taking.listener.store.known calling.inner.deviceId =
        some (peer, true))
      (hrecv : recv noise ⟨left.reading, ⟨wire, false⟩⟩ =
        .ok (bye, ⟨last, ⟨[], false⟩⟩))
      (hbye : Wire.Message.decode postcard bye = .ok (.bye .unpaired)) :
      Begins noise postcard inStep calling taking
        { peer := taking.listener.inner.deviceId
          initiator := calling.inner.deviceId
          hello := taking.listener.inner.hello taking.nowMs
          address := calling.address.map
            (withPort · taking.listener.inner.listenPort)
          cipher := left }
        (.dismissed calling.inner.deviceId) wire

/-- The messages that both devices send at the start can be encoded. -/
structure Encodable (postcard : Wire.Postcard) (calling : Calling)
    (taking : Taking) : Prop where
  calling : ∃ bytes, (Wire.Message.hello
    (calling.inner.hello calling.nowMs)).encode postcard = .ok bytes
  taking : ∃ bytes, (Wire.Message.hello
    (taking.listener.inner.hello taking.nowMs)).encode postcard = .ok bytes
  bye : ∃ bytes, (Wire.Message.bye .unpaired).encode postcard = .ok bytes

variable {calling : Calling} {taking : Taking}

theorem length_sessionPrologue (initiator responder : DeviceId) :
    (sessionPrologue initiator responder).length ≤ maxPrologue := by
  rw [sessionPrologue, List.length_append, List.length_append,
    length_deviceBytes, length_deviceBytes]
  decide

/-- Two ends that know each other both come to their session. -/
theorem Mutual.reaches (hnoise : noise.Inverts inStep)
    (hsessions : handshakes.SessionsAgree publicOf inStep)
    (hpostcard : postcard.Lossless)
    (hcalling : calling.inner.keys.Pair publicOf)
    (htaking : taking.listener.inner.keys.Pair publicOf)
    (hencodable : Encodable postcard calling taking)
    (hmutual : Mutual calling taking) :
    ∃ started accepted unread,
      Begins noise postcard inStep calling taking started accepted unread ∧
        (meeting noise handshakes postcard spake calling taking).Reaches
          ⟨.done (.ok started), .done (.ok accepted), unread, []⟩ := by
  obtain ⟨⟨peer, removed⟩, hknown, hkey⟩ := hmutual.known
  obtain ⟨left, right, hstep, hhandshake⟩ :=
    reaches_sessionHandshake hsessions hcalling htaking
      (length_sessionPrologue calling.inner.deviceId
        taking.listener.inner.deviceId) calling.random taking.random
  obtain ⟨leftBytes, hleft⟩ := hencodable.calling
  obtain ⟨rightBytes, hright⟩ := hencodable.taking
  obtain ⟨left', right', hstep', hhellos⟩ :=
    reaches_hellos hnoise hpostcard hstep hleft hright
  have hdispatch : dispatch noise handshakes postcard spake taking.listener
      taking.origin taking.random taking.nowMs kindSession
        calling.inner.deviceId =
      acceptSession noise handshakes postcard taking.listener.inner
        taking.listener.store taking.origin.address calling.inner.deviceId
          taking.random taking.nowMs := by
    rw [dispatch, if_neg hmutual.other, hmutual.fits]
    rfl
  -- The preamble, the handshake and the hellos.
  have hgreeted : (meeting noise handshakes postcard spake calling taking).Reaches
      ⟨.done (.ok
        { peer := taking.listener.inner.deviceId
          initiator := calling.inner.deviceId
          hello := taking.listener.inner.hello taking.nowMs
          address := calling.address.map
            (withPort · taking.listener.inner.listenPort)
          cipher := left' }),
        welcome noise postcard taking.origin.address calling.inner.deviceId
          removed (calling.inner.hello calling.nowMs) right', [], []⟩ := by
    simp only [meeting, Dialogue.start, connectOver, hmutual.device, hmutual.key]
    refine (reaches_dispatch _ _ _ _ _ _ _).trans ?_
    rw [hdispatch, acceptSession, hknown]
    dsimp only
    rw [hkey]
    refine (hhandshake.andThen _ _).trans ?_
    exact hhellos.andThen _ _
  cases removed with
  | false => exact ⟨_, _, [], .session peer left' right' hknown hstep', hgreeted⟩
  | true =>
      obtain ⟨bye, hbye⟩ := hencodable.bye
      obtain ⟨wire, writing', reading', hsend, -, hrecv⟩ :=
        Cipher.exists_wire hnoise hstep'.back
          ((Wire.Message.encode_eq_ok_iff postcard).mp hbye).2
      refine ⟨_, _, wire, .dismissed peer left' wire bye reading' hknown hrecv
        (Wire.Message.decode_encode hpostcard hbye), ?_⟩
      simp only [welcome, if_true, hbye, hsend, Talk.andThen] at hgreeted
      exact hgreeted.trans (Dialogue.reaches_right (.wrote _ _ _ _))

/-! ## Ends that do not know each other -/

/-- It has failed, or it waits for more than has arrived. -/
def Idle {A : Type} (unread : Bytes) (talk : Talk UInt8 LanError A) : Prop :=
  talk.advance unread = none ∧ ∀ value, talk ≠ .done (.ok value)

theorem idle_error {A : Type} (unread : Bytes) (error : LanError) :
    Idle unread (.done (.error error) : Talk UInt8 LanError A) :=
  ⟨rfl, nofun⟩

/-- It fails at once, or waits once it has sent the first message of its
handshake. -/
def Opens {A : Type} (handshakes : Handshakes State) (keys : Keys)
    (remoteKey : PublicKey) (prologue : Bytes) (random : ℕ)
    (talk : Talk UInt8 LanError A) : Prop :=
  Idle [] talk ∨
    ∃ state message after rest,
      handshakes.session true keys.privateKey remoteKey prologue random =
        .ok state ∧
      handshakes.writeMessage state = .ok (message, after) ∧
      message.length ≤ maxNoiseMessage ∧ Idle [] rest ∧
      talk = .write (framed message) id rest

/-- What the other end makes of the preamble. -/
def answer (noise : Noise State) (handshakes : Handshakes State)
    (postcard : Wire.Postcard) (spake : Spake2) (calling : Calling)
    (taking : Taking) : Talk UInt8 LanError (Accepted State) :=
  dispatch noise handshakes postcard spake taking.listener taking.origin
    taking.random taking.nowMs kindSession calling.inner.deviceId

end Sessions

/-! ## Two devices that know each other -/

section Plain

variable {key other : PublicKey} {remote known : Option Bytes} {turn : PlainTurn}
  {ours theirs : List PlainTurn} {flags : List Bool}
  {lastLeft lastRight : PlainHandshake}

end Plain

def homeLaptop : Inner := ⟨⟨1⟩, "Laptop", ⟨11, 11⟩, 4000⟩

/-- The laptop dials the phone. -/
def dialing : Calling :=
  ⟨homeLaptop, ⟨⟨2⟩, "Phone", 22, 0, none⟩, some (.v4 9 5000), 0, 7⟩

end Cled.Lan
