import Cled.Core.Dialogue
import Cled.Lan.Arriving
import Cled.Lan.Code
import Cled.Lan.Keys
import Cled.Lan.Message
import Cled.Lan.PeerStore

/-!
# How connections begin

The device that connects says what for and which device it is.  For a session,
both ends prove that they hold the keys under which they know each other.  To
pair, they make a key of the code that one shows and the other types, and learn
each other's keys under its protection.  Either way they then say hello, and
each checks that the other one is the device it takes it for.

The handshakes and the key exchange belong to libraries and are parameters here.
-/

namespace Cled.Lan

open Cled.Core Cled.Clipboard Cled.Sync

/-! ## Reading and writing -/

/-- A read from what has arrived of a stream that may go on. -/
def arriving {A : Type} (read : Reader → Outcome (A × Reader))
    (hlater : ∀ {reader rest : Reader} {value : A},
      read reader = .ok (value, rest) → ∀ more ended,
        read (reader.later more ended) = .ok (value, rest.later more ended)) :
    Reading UInt8 A where
  take stream :=
    match read ⟨stream, false⟩ with
    | .ok (value, reader) => some (value, reader.bytes)
    | _ => none
  stable := by
    intro stream rest value htake more
    cases hread : read ⟨stream, false⟩ with
    | waits => rw [hread] at htake; cases htake
    | fails error => rw [hread] at htake; cases htake
    | ok taken =>
        obtain ⟨first, reader⟩ := taken
        rw [hread] at htake
        obtain ⟨rfl, rfl⟩ : first = value ∧ reader.bytes = rest := by
          simpa using htake
        have hmore : read ⟨stream ++ more, false⟩ =
            .ok (first, reader.later more false) := hlater hread more false
        rw [hmore]
        rfl

theorem arriving_take {A : Type} {read : Reader → Outcome (A × Reader)}
    (hlater : ∀ {reader rest : Reader} {value : A},
      read reader = .ok (value, rest) → ∀ more ended,
        read (reader.later more ended) = .ok (value, rest.later more ended))
    {stream : Bytes} {value : A} {reader : Reader}
    (hread : read ⟨stream, false⟩ = .ok (value, reader)) :
    (arriving read hlater).take stream = some (value, reader.bytes) := by
  simp only [arriving, hread]

/-- `read_exact`. -/
def exactly (count : ℕ) : Reading UInt8 Bytes :=
  arriving (readExact count) readExact_later

/-- `read_frame`. -/
def oneFrame : Reading UInt8 Bytes :=
  arriving readFrame readFrame_later

/-- `write_frame`. -/
def sendFrame (frame : Bytes) : Talk UInt8 LanError Unit :=
  if frame.length < 2 ^ 16 then .write (framed frame) id (.done (.ok ()))
  else .done (.error (.tooLarge frame.length))

section Cipher

variable {State : Type} (noise : Noise State)

/-- Each direction of a channel has its own key and counter. -/
structure Cipher (State : Type) where
  writing : State
  reading : State

def Cipher.new (state : State) : Cipher State := ⟨state, state⟩

/-- `Cipher::send`. -/
def Cipher.send (cipher : Cipher State) (message : Bytes) :
    Talk UInt8 LanError (Cipher State) :=
  let (result, out) := Lan.send noise message ⟨cipher.writing, []⟩
  .write out.written id
    (.done (result.map fun _ => { cipher with writing := out.noise }))

/-- The bytes of one message, decrypted.  An error is found whatever follows. -/
def wholeMessage (state : State) :
    Reading UInt8 (Except LanError (Bytes × State)) where
  take stream :=
    match recv noise ⟨state, ⟨stream, false⟩⟩ with
    | .waits => none
    | .fails error => some (.error error, stream)
    | .ok (message, input) =>
        some (.ok (message, input.noise), input.reader.bytes)
  stable := by
    intro stream rest value htake more
    cases hrecv : recv noise ⟨state, ⟨stream, false⟩⟩ with
    | waits => rw [hrecv] at htake; cases htake
    | fails error =>
        rw [hrecv] at htake
        obtain ⟨rfl, rfl⟩ : .error error = value ∧ stream = rest := by
          simpa using htake
        have hmore : recv noise ⟨state, ⟨stream ++ more, false⟩⟩ =
            .fails error := recvLoop_fails_later rfl hrecv more
        rw [hmore]
    | ok taken =>
        obtain ⟨message, input⟩ := taken
        rw [hrecv] at htake
        obtain ⟨rfl, rfl⟩ : .ok (message, input.noise) = value ∧
            input.reader.bytes = rest := by
          simpa using htake
        have hmore : recv noise ⟨state, ⟨stream ++ more, false⟩⟩ =
            .ok (message, input.later more false) :=
          recvLoop_later hrecv more false
        rw [hmore]
        rfl

theorem wholeMessage_take {noise : Noise State} {state : State}
    {stream message : Bytes} {input : Incoming State}
    (hrecv : recv noise ⟨state, ⟨stream, false⟩⟩ = .ok (message, input)) :
    (wholeMessage noise state).take stream =
      some (.ok (message, input.noise), input.reader.bytes) := by
  simp only [wholeMessage, hrecv]

/-- `Cipher::recv`. -/
def Cipher.recv (cipher : Cipher State) :
    Talk UInt8 LanError (Bytes × Cipher State) :=
  .read (wholeMessage noise cipher.reading) id fun received =>
    .done (received.map fun (message, reading) =>
      (message, { cipher with reading }))

end Cipher

/-! ## Handshakes -/

structure Keys where
  privateKey : BitVec 256
  publicKey : PublicKey
  deriving DecidableEq

/-- The handshakes of the Noise library.  Each end draws a key of its own for
each handshake, which `random` stands for. -/
structure Handshakes (State : Type) where
  Handshake : Type
  /-- `Noise_KK`, with the key that the other end is known by. -/
  session : (initiator : Bool) → (privateKey : BitVec 256) →
    (remoteKey : PublicKey) → (prologue : Bytes) → (random : ℕ) →
      Except String Handshake
  /-- `Noise_XXpsk3`. -/
  pairing : (initiator : Bool) → (privateKey : BitVec 256) → (psk : Bytes) →
    (prologue : Bytes) → (random : ℕ) → Except String Handshake
  writeMessage : Handshake → Except String (Bytes × Handshake)
  readMessage : Handshake → Bytes → Except String Handshake
  getRemoteStatic : Handshake → Option Bytes
  intoTransportMode : Handshake → Except String State

section Handshake

variable {State : Type} (handshakes : Handshakes State)

/-- An error of the Noise library. -/
def noiseError {A : Type} : Except String A → Except LanError A
  | .ok value => .ok value
  | .error text => .error (.noise text)

/-- What `handshake` returns once the handshake is finished. -/
def finish (state : handshakes.Handshake) : Except LanError (State × PublicKey) := do
  let some remote := handshakes.getRemoteStatic state
    | .error (.other "peer sent no static key")
  let remote ← toKey remote
  let transport ← noiseError (handshakes.intoTransportMode state)
  return (transport, remote)

/-- `handshake`.  `turns` are the messages of the pattern that are left, and
whether this end writes them. -/
def handshake : (turns : List Bool) → handshakes.Handshake →
    Talk UInt8 LanError (State × PublicKey)
  | [], state => .done (finish handshakes state)
  | true :: turns, state =>
      match handshakes.writeMessage state with
      | .error text => .done (.error (.noise text))
      | .ok (message, next) =>
          (sendFrame message).andThen fun _ => handshake turns next
  | false :: turns, state =>
      .read oneFrame id fun message =>
        match handshakes.readMessage state message with
        | .error text => .done (.error (.noise text))
        | .ok next => handshake turns next

/-- The first message is the initiator's, and so on in turn. -/
def turns (initiator : Bool) : ℕ → List Bool
  | 0 => []
  | count + 1 => initiator :: turns (!initiator) count

/-- `session_handshake`.  The pattern has two messages. -/
def sessionHandshake (initiator : Bool) (keys : Keys) (remoteKey : PublicKey)
    (prologue : Bytes) (random : ℕ) : Talk UInt8 LanError (Cipher State) :=
  match handshakes.session initiator keys.privateKey remoteKey prologue random with
  | .error text => .done (.error (.noise text))
  | .ok state =>
      (handshake handshakes (turns initiator 2) state).andThen fun (state, _) =>
        .done (.ok (Cipher.new state))

/-- `pairing_handshake`.  The pattern has three messages. -/
def pairingHandshake (initiator : Bool) (keys : Keys) (psk prologue : Bytes)
    (random : ℕ) : Talk UInt8 LanError (State × PublicKey) :=
  match handshakes.pairing initiator keys.privateKey psk prologue random with
  | .error text => .done (.error (.noise text))
  | .ok state => handshake handshakes (turns initiator 3) state

end Handshake

/-! ## Who connects, and what for -/

/-- `DeviceId::to_bytes`. -/
def deviceBytes (device : DeviceId) : Bytes := beBytes 16 device.toBytes.toNat

/-- `DeviceId::from_bytes`, of 16 bytes. -/
def readDevice (bytes : Bytes) : DeviceId :=
  .fromBytes (BitVec.ofNat 128 (fromBe bytes))

/-- `CLED`. -/
def magic : Bytes := [0x43, 0x4c, 0x45, 0x44]

def preambleVersion : UInt8 := 1

def kindSession : UInt8 := 1

def kindPairing : UInt8 := 2

def protocolVersion : UInt16 := 1

def preamble (kind : UInt8) (device : DeviceId) : Bytes :=
  magic ++ preambleVersion :: kind :: deviceBytes device

def sessionPrologue (initiator responder : DeviceId) : Bytes :=
  utf8 "cled-session-v1" ++ deviceBytes initiator ++ deviceBytes responder

def pairingPrologue (listener joiner : DeviceId) : Bytes :=
  utf8 "cled-pair-v1" ++ deviceBytes listener ++ deviceBytes joiner

/-- `address` with a different port. -/
def withPort (address : SocketAddr) (port : UInt16) : SocketAddr :=
  match address with
  | .v4 ip _ => .v4 ip port
  | .v6 ip _ flowinfo scopeId => .v6 ip port flowinfo scopeId

/-- What a node is to others. -/
structure Inner where
  deviceId : DeviceId
  name : String
  keys : Keys
  listenPort : UInt16
  deriving DecidableEq

def Inner.hello (inner : Inner) (nowMs : ℕ) : Wire.Hello :=
  { protocol := protocolVersion
    deviceId := inner.deviceId.toBytes
    name := inner.name
    listenPort := inner.listenPort
    timeMs := nowMs }

section Hello

variable {State : Type} (noise : Noise State) (postcard : Wire.Postcard)

/-- What `exchange_hellos` makes of the message it received. -/
def checkHello (expectedPeer : DeviceId) (bytes : Bytes) :
    Except LanError Wire.Hello :=
  match Wire.Message.decode postcard bytes with
  | .error error => .error error
  | .ok (.hello hello) =>
      if hello.protocol ≠ protocolVersion then
        .error (.incompatibleVersion hello.protocol.toNat)
      else if DeviceId.fromBytes hello.deviceId ≠ expectedPeer then
        .error .unknownPeer
      else .ok hello
  | .ok _ => .error (.malformed "expected Hello")

/-- `exchange_hellos`, with the cipher after it.  The code sends and reads at
the same time; what it sends does not depend on what it reads. -/
def exchangeHellos (cipher : Cipher State) (mine : Wire.Hello)
    (expectedPeer : DeviceId) : Talk UInt8 LanError (Wire.Hello × Cipher State) :=
  match (Wire.Message.hello mine).encode postcard with
  | .error error => .done (.error error)
  | .ok hello =>
      (cipher.send noise hello).andThen fun cipher =>
        (cipher.recv noise).andThen fun (received, cipher) =>
          .done ((checkHello postcard expectedPeer received).map (·, cipher))

end Hello

/-! ## Sessions -/

/-- What a session starts with: the arguments of `start_session`. -/
structure Started (State : Type) where
  peer : DeviceId
  initiator : DeviceId
  hello : Wire.Hello
  address : Option SocketAddr
  cipher : Cipher State

/-- A newly paired device: the arguments of `store_peer`. -/
structure Paired where
  deviceId : DeviceId
  hello : Wire.Hello
  publicKey : PublicKey
  address : Option SocketAddr
  deriving DecidableEq

/-- The entry that `store_peer` saves. -/
def Paired.peer (paired : Paired) (nowMs : ℕ) : Peer :=
  { deviceId := paired.deviceId
    name := paired.hello.name
    publicKey := paired.publicKey
    pairedAtMs := nowMs
    lastAddress := paired.address.map (withPort · paired.hello.listenPort) }

/-- What an incoming connection comes to. -/
inductive Accepted (State : Type) where
  | session (started : Started State)
  /-- The device was removed, and has been told so now. -/
  | dismissed (initiator : DeviceId)
  | paired (joiner : Paired)

/-- Where an incoming connection comes from. -/
inductive Origin where
  | tcp (address : SocketAddr)
  /-- Through a tunnel that this device claims to have opened. -/
  | tunnel (opener : DeviceId)
  deriving DecidableEq

/-- A tunnel's claimed opener must be the device that the preamble names. -/
def Origin.fits (origin : Origin) (sender : DeviceId) : Bool :=
  match origin with
  | .tcp _ => true
  | .tunnel opener => opener == sender

def Origin.address : Origin → Option SocketAddr
  | .tcp address => some address
  | .tunnel _ => none

section Sessions

variable {State : Type} (noise : Noise State) (handshakes : Handshakes State)
  (postcard : Wire.Postcard) (inner : Inner)

/-- `connect_over`. -/
def connectOver (peer : Peer) (address : Option SocketAddr) (random nowMs : ℕ) :
    Talk UInt8 LanError (Started State) :=
  let me := inner.deviceId
  .write (preamble kindSession me) id <|
    (sessionHandshake handshakes true inner.keys peer.publicKey
      (sessionPrologue me peer.deviceId) random).andThen fun cipher =>
        (exchangeHellos noise postcard cipher (inner.hello nowMs)
          peer.deviceId).andThen fun (hello, cipher) =>
            .done (.ok
              { peer := peer.deviceId
                initiator := me
                hello
                address := address.map (withPort · hello.listenPort)
                cipher })

/-- The device as it is known here, and whether it was removed. -/
def PeerStore.known (store : PeerStore) (device : DeviceId) :
    Option (Peer × Bool) :=
  match store.get device, store.getRemoved device with
  | some peer, _ => some (peer, false)
  | none, some removed => some (removed, true)
  | none, none => none

/-- What `accept_session` does once it has the other's hello.  A removed device,
authenticated with its old key, is told. -/
def welcome (peerAddr : Option SocketAddr) (initiator : DeviceId)
    (wasRemoved : Bool) (hello : Wire.Hello) (cipher : Cipher State) :
    Talk UInt8 LanError (Accepted State) :=
  if wasRemoved then
    match (Wire.Message.bye .unpaired).encode postcard with
    | .error error => .done (.error error)
    | .ok bye =>
        (cipher.send noise bye).andThen fun _ =>
          .done (.ok (.dismissed initiator))
  else
    .done (.ok (.session
      { peer := initiator
        initiator
        hello
        address := peerAddr.map (withPort · hello.listenPort)
        cipher }))

/-- `accept_session`, up to what it does with the session. -/
def acceptSession (store : PeerStore) (peerAddr : Option SocketAddr)
    (initiator : DeviceId) (random nowMs : ℕ) :
    Talk UInt8 LanError (Accepted State) :=
  match store.known initiator with
  | none => .done (.error .unknownPeer)
  | some (peer, wasRemoved) =>
      (sessionHandshake handshakes false inner.keys peer.publicKey
        (sessionPrologue initiator inner.deviceId) random).andThen fun cipher =>
          (exchangeHellos noise postcard cipher (inner.hello nowMs)
            initiator).andThen fun (hello, cipher) =>
              welcome noise postcard peerAddr initiator wasRemoved hello cipher

end Sessions

/-! ## Pairing -/

/-- The key exchange of the SPAKE2 library.  `random` stands for the number that
each end draws. -/
structure Spake2 where
  State : Type
  startA : (password identityA identityB : Bytes) → (random : ℕ) → State × Bytes
  startB : (password identityA identityB : Bytes) → (random : ℕ) → State × Bytes
  finish : State → Bytes → Except String Bytes

/-- `spake_key`. -/
def spakeKey : Except String Bytes → Except LanError Bytes
  | .error _ => .error .wrongCode
  | .ok key => if key.length = 32 then .ok key else .error .wrongCode

/-- `PairingCode::as_bytes`. -/
def PairingCode.asBytes (code : PairingCode) : Bytes := utf8 code.text

/-- The code that is shown, and whether it has expired. -/
structure Shown where
  code : PairingCode
  expired : Bool

section Pairing

variable {State : Type} (noise : Noise State) (handshakes : Handshakes State)
  (postcard : Wire.Postcard) (spake : Spake2) (inner : Inner)

/-- Anything that goes wrong is put down to the code.  A timeout is around the
whole exchange. -/
def wrongCode : LanError → LanError
  | .timeout => .timeout
  | _ => .wrongCode

/-- The hellos of a pairing, once the other's key is known. -/
def greet (other : DeviceId) (helloFailed : LanError → LanError) (nowMs : ℕ)
    (finished : State × PublicKey) :
    Talk UInt8 LanError (Wire.Hello × PublicKey) :=
  ((exchangeHellos noise postcard (Cipher.new finished.1) (inner.hello nowMs)
    other).mapError helloFailed).andThen fun (hello, _) =>
      .done (.ok (hello, finished.2))

/-- The Noise part of either side of a pairing, and the hellos after it. -/
def exchangeKeys (initiator : Bool) (psk prologue : Bytes) (other : DeviceId)
    (helloFailed : LanError → LanError) (random nowMs : ℕ) :
    Talk UInt8 LanError (Wire.Hello × PublicKey) :=
  ((pairingHandshake handshakes initiator inner.keys psk prologue
    random).mapError wrongCode).andThen
      (greet noise postcard inner other helloFailed nowMs)

/-- `pairing_exchange`, once it has sent this device's ID. -/
def exchangeWithJoiner (code : PairingCode) (joiner : DeviceId)
    (random nowMs : ℕ) : Talk UInt8 LanError (Wire.Hello × PublicKey) :=
  let me := inner.deviceId
  let begun :=
    spake.startA code.asBytes (deviceBytes me) (deviceBytes joiner) random
  .write begun.2 id <|
    .read (exactly begun.2.length) id fun inbound =>
      match spakeKey (spake.finish begun.1 inbound) with
      | .error error => .done (.error error)
      | .ok key =>
          exchangeKeys noise handshakes postcard inner false key
            (pairingPrologue me joiner) joiner id random nowMs

/-- `pairing_exchange`. -/
def pairingExchange (code : PairingCode) (joiner : DeviceId)
    (random nowMs : ℕ) : Talk UInt8 LanError (Wire.Hello × PublicKey) :=
  .write (deviceBytes inner.deviceId) id
    (exchangeWithJoiner noise handshakes postcard spake inner code joiner random
      nowMs)

/-- `pairing_exchange_joiner`. -/
def pairingExchangeJoiner (code : PairingCode) (listener : DeviceId)
    (random nowMs : ℕ) : Talk UInt8 LanError (Wire.Hello × PublicKey) :=
  let me := inner.deviceId
  let begun :=
    spake.startB code.asBytes (deviceBytes listener) (deviceBytes me) random
  .read (exactly begun.2.length) id fun inbound =>
    .write begun.2 id <|
      match spakeKey (spake.finish begun.1 inbound) with
      | .error error => .done (.error error)
      | .ok key =>
          exchangeKeys noise handshakes postcard inner true key
            (pairingPrologue listener me) listener wrongCode random nowMs

/-- `join_pairing_over`, up to what it does with the new peer. -/
def joinPairingOver (address : Option SocketAddr) (expected : Option DeviceId)
    (code : PairingCode) (random nowMs : ℕ) : Talk UInt8 LanError Paired :=
  .write (preamble kindPairing inner.deviceId) id <|
    .read (exactly 16) (fun _ => .notPairing) fun listenerId =>
      let listener := readDevice listenerId
      if expected.any (· ≠ listener) then .done (.error .unknownPeer)
      else
        (pairingExchangeJoiner noise handshakes postcard spake inner code
          listener random nowMs).andThen fun (hello, publicKey) =>
            .done (.ok { deviceId := listener, hello, publicKey, address })

/-- `accept_pairing`, up to what it does with the new peer. -/
def acceptPairing (shown : Option Shown) (peerAddr : Option SocketAddr)
    (joiner : DeviceId) (random nowMs : ℕ) :
    Talk UInt8 LanError (Accepted State) :=
  match shown with
  | none => .done (.error .notPairing)
  | some shown =>
      if shown.expired then .done (.error .codeExpired)
      else
        (pairingExchange noise handshakes postcard spake inner shown.code joiner
          random nowMs).andThen fun (hello, publicKey) =>
            .done (.ok (.paired
              { deviceId := joiner, hello, publicKey, address := peerAddr }))

/-! ## Incoming connections -/

/-- What a node knows when a connection comes in. -/
structure Listener where
  inner : Inner
  store : PeerStore
  shown : Option Shown

/-- What `handle_incoming` does once it has read a preamble that is one. -/
def dispatch (listener : Listener) (origin : Origin) (random nowMs : ℕ)
    (kind : UInt8) (sender : DeviceId) : Talk UInt8 LanError (Accepted State) :=
  if sender = listener.inner.deviceId then
    .done (.error (.malformed "connection from self"))
  else if !origin.fits sender then
    .done (.error (.malformed "tunnel opener doesn't match"))
  else if kind = kindSession then
    acceptSession noise handshakes postcard listener.inner listener.store
      origin.address sender random nowMs
  else if kind = kindPairing then
    acceptPairing noise handshakes postcard spake listener.inner listener.shown
      origin.address sender random nowMs
  else
    .done (.error
      (.malformed ("unknown connection kind " ++ toString kind.toNat)))

/-- `handle_incoming`. -/
def handleIncoming (listener : Listener) (origin : Origin)
    (random nowMs : ℕ) : Talk UInt8 LanError (Accepted State) :=
  .read (exactly 22) id fun received =>
    if received.take 4 ≠ magic ∨ received.getD 4 0 ≠ preambleVersion then
      .done (.error (.malformed "not a Cled connection"))
    else
      dispatch noise handshakes postcard spake listener origin random nowMs
        (received.getD 5 0) (readDevice (received.drop 6))

end Pairing

end Cled.Lan
