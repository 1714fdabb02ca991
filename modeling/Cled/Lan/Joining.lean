import Cled.Lan.Meeting
import Cled.Sync.Identity

/-!
# Pairing with a code

A device that joins with the code that the other one shows, and the one that
shows it, both learn the other's key, or neither does.  After that each can dial
the other.
-/

namespace Cled.Lan

open Cled.Core Cled.Clipboard Cled.Sync

/-! ## What the libraries promise -/

section Promises

variable {State : Type} (handshakes : Handshakes State)

/-- `Noise_XXpsk3`: the two ends finish if they have the same key between them.
Otherwise the responder refuses the last message. -/
structure Handshakes.PairingsAgree (publicOf : BitVec 256 → PublicKey)
    (inStep : State → State → Prop) : Prop where
  finishes : ∀ initiator responder psk prologue random other,
    psk.length = 32 → prologue.length ≤ maxPrologue →
    ∃ left right lastLeft lastRight,
      handshakes.pairing true initiator psk prologue random = .ok left ∧
      handshakes.pairing false responder psk prologue other = .ok right ∧
      handshakes.Exchanges (turns true 3) left right lastLeft lastRight ∧
      handshakes.Finished inStep lastLeft lastRight (publicOf initiator)
        (publicOf responder)
  refuses : ∀ initiator responder psk otherPsk prologue random other,
    psk.length = 32 → otherPsk.length = 32 → psk ≠ otherPsk →
    prologue.length ≤ maxPrologue →
    ∃ left right nextLeft nextRight,
      handshakes.pairing true initiator psk prologue random = .ok left ∧
      handshakes.pairing false responder otherPsk prologue other = .ok right ∧
      handshakes.Exchanges (turns true 2) left right nextLeft nextRight ∧
      ∀ message last, handshakes.writeMessage nextLeft = .ok (message, last) →
        ∃ text, handshakes.readMessage nextRight message = .error text

/-- SPAKE2: each end sends 33 bytes, and they come to the same key if they have
the same password, and to different keys if they have different codes. -/
structure Spake2.Agrees (spake : Spake2) : Prop where
  lengthA : ∀ password identityA identityB random,
    (spake.startA password identityA identityB random).2.length = 33
  lengthB : ∀ password identityA identityB random,
    (spake.startB password identityA identityB random).2.length = 33
  finishes : ∀ password identityA identityB random other,
    ∃ key, key.length = 32 ∧
      spake.finish (spake.startA password identityA identityB random).1
        (spake.startB password identityA identityB other).2 = .ok key ∧
      spake.finish (spake.startB password identityA identityB other).1
        (spake.startA password identityA identityB random).2 = .ok key
  differs : ∀ (code otherCode : PairingCode) identityA identityB random other,
    code ≠ otherCode →
    ∃ key otherKey, key.length = 32 ∧ otherKey.length = 32 ∧ key ≠ otherKey ∧
      spake.finish (spake.startA code.asBytes identityA identityB random).1
        (spake.startB otherCode.asBytes identityA identityB other).2 = .ok key ∧
      spake.finish (spake.startB otherCode.asBytes identityA identityB other).1
        (spake.startA code.asBytes identityA identityB random).2 = .ok otherKey

end Promises

/-! ## Stalling -/

section Stalls

variable {A B : Type}

variable {unread : Bytes}

theorem Idle.andThen {talk : Talk UInt8 LanError A} (hidle : Idle unread talk)
    (next : A → Talk UInt8 LanError B) : Idle unread (talk.andThen next) := by
  obtain ⟨hadvance, hdone⟩ := hidle
  cases talk with
  | done result =>
      cases result with
      | ok value => exact absurd rfl (hdone value)
      | error error => exact idle_error unread error
  | write letters failed rest => cases hadvance
  | read reading failed rest =>
      have htake := Option.map_eq_none_iff.mp hadvance
      exact ⟨Option.map_eq_none_iff.mpr htake, nofun⟩

theorem Idle.mapError {talk : Talk UInt8 LanError A} (hidle : Idle unread talk)
    (change : LanError → LanError) : Idle unread (talk.mapError change) := by
  obtain ⟨hadvance, hdone⟩ := hidle
  cases talk with
  | done result =>
      cases result with
      | ok value => exact absurd rfl (hdone value)
      | error error => exact idle_error unread (change error)
  | write letters failed rest => cases hadvance
  | read reading failed rest =>
      have htake := Option.map_eq_none_iff.mp hadvance
      exact ⟨Option.map_eq_none_iff.mpr htake, nofun⟩

/-- With nothing to read it comes to a halt without success. -/
def Stalls (talk : Talk UInt8 LanError A) : Prop :=
  ∃ rest added, Idle [] rest ∧
    ∀ {B : Type} (right : Talk UInt8 LanError B) (toRight : Bytes),
      Dialogue.Reaches ⟨talk, right, [], toRight⟩
        ⟨rest, right, [], toRight ++ added⟩

theorem Stalls.write {talk : Talk UInt8 LanError A} (hstalls : Stalls talk)
    (letters : Bytes) (failed : LanError → LanError) :
    Stalls (.write letters failed talk) := by
  obtain ⟨rest, added, hidle, hreaches⟩ := hstalls
  refine ⟨rest, letters ++ added, hidle, fun right toRight => ?_⟩
  have hrest := hreaches right (toRight ++ letters)
  rw [List.append_assoc] at hrest
  exact (Dialogue.reaches_left (.wrote letters failed talk [])).trans hrest

theorem Stalls.andThen {talk : Talk UInt8 LanError A} (hstalls : Stalls talk)
    (next : A → Talk UInt8 LanError B) : Stalls (talk.andThen next) := by
  obtain ⟨rest, added, hidle, hreaches⟩ := hstalls
  exact ⟨rest.andThen next, added, hidle.andThen next, fun right toRight =>
    (hreaches right toRight).map (Dialogue.lifts_andThen next)
      Dialogue.lifts_id⟩

theorem Stalls.mapError {talk : Talk UInt8 LanError A} (hstalls : Stalls talk)
    (change : LanError → LanError) : Stalls (talk.mapError change) := by
  obtain ⟨rest, added, hidle, hreaches⟩ := hstalls
  exact ⟨rest.mapError change, added, hidle.mapError change,
    fun right toRight =>
      (hreaches right toRight).map (Dialogue.lifts_mapError change)
        Dialogue.lifts_id⟩

end Stalls

section Greeting

variable {State : Type} {noise : Noise State} {postcard : Wire.Postcard}

end Greeting

section Pairing

variable {State : Type} {noise : Noise State} {handshakes : Handshakes State}
  {postcard : Wire.Postcard} {spake : Spake2}
  {publicOf : BitVec 256 → PublicKey} {inStep : State → State → Prop}

/-- With one key between them, both ends learn each other's keys. -/
theorem reaches_exchangeKeys (hnoise : noise.Inverts inStep)
    (hpairings : handshakes.PairingsAgree publicOf inStep)
    (hpostcard : postcard.Lossless) {ours theirs : Inner}
    (hours : ours.keys.Pair publicOf) (htheirs : theirs.keys.Pair publicOf)
    {ourMs theirMs : ℕ} {ourBytes theirBytes : Bytes}
    (hourHello : (Wire.Message.hello (ours.hello ourMs)).encode postcard =
      .ok ourBytes)
    (htheirHello : (Wire.Message.hello (theirs.hello theirMs)).encode postcard =
      .ok theirBytes)
    {psk prologue : Bytes} (hpsk : psk.length = 32)
    (hprologue : prologue.length ≤ maxPrologue)
    (ourFailed theirFailed : LanError → LanError) (random other : ℕ) :
    Dialogue.Reaches
      ⟨exchangeKeys noise handshakes postcard ours true psk prologue
          theirs.deviceId ourFailed random ourMs,
        exchangeKeys noise handshakes postcard theirs false psk prologue
          ours.deviceId theirFailed other theirMs, [], []⟩
      ⟨.done (.ok (theirs.hello theirMs, theirs.keys.publicKey)),
        .done (.ok (ours.hello ourMs, ours.keys.publicKey)), [], []⟩ := by
  obtain ⟨left, right, lastLeft, lastRight, hleft, hright, hexchanges,
      leftState, rightState, hfinishLeft, hfinishRight, hforth, hback⟩ :=
    hpairings.finishes ours.keys.privateKey theirs.keys.privateKey psk prologue
      random other hpsk hprologue
  rw [← htheirs] at hfinishLeft
  rw [← hours] at hfinishRight
  have hhandshake := hexchanges.reaches []
  rw [List.append_nil, List.map_nil, handshake, handshake, hfinishLeft,
    hfinishRight] at hhandshake
  obtain ⟨left', right', -, hhellos⟩ := reaches_hellos hnoise hpostcard
    (⟨hforth, hback⟩ : (Cipher.new leftState).InStep inStep
      (Cipher.new rightState)) hourHello htheirHello
  simp only [exchangeKeys, pairingHandshake, hleft, hright]
  have hmapped := hhandshake.map (Dialogue.lifts_mapError wrongCode)
    (Dialogue.lifts_mapError wrongCode)
  refine (hmapped.andThen _ _).trans ?_
  have hgreeted := hhellos.map (Dialogue.lifts_mapError ourFailed)
    (Dialogue.lifts_mapError theirFailed)
  exact hgreeted.andThen _ _

theorem length_pairingPrologue (listener joiner : DeviceId) :
    (pairingPrologue listener joiner).length ≤ maxPrologue := by
  rw [pairingPrologue, List.length_append, List.length_append,
    length_deviceBytes, length_deviceBytes]
  decide

theorem spakeKey_ok {key : Bytes} (hkey : key.length = 32) :
    spakeKey (.ok key) = .ok key := if_pos hkey

/-- Both ends send their part of the key exchange, and each makes its key of
what it receives. -/
theorem reaches_spake (hspake : spake.Agrees) {ours theirs : Inner}
    {code shown : PairingCode} {random other ourMs theirMs : ℕ}
    {key otherKey : Bytes} (hkey : key.length = 32)
    (hotherKey : otherKey.length = 32)
    (hfinish : spake.finish
      (spake.startA shown.asBytes (deviceBytes theirs.deviceId)
        (deviceBytes ours.deviceId) other).1
      (spake.startB code.asBytes (deviceBytes theirs.deviceId)
        (deviceBytes ours.deviceId) random).2 = .ok otherKey)
    (hfinishOurs : spake.finish
      (spake.startB code.asBytes (deviceBytes theirs.deviceId)
        (deviceBytes ours.deviceId) random).1
      (spake.startA shown.asBytes (deviceBytes theirs.deviceId)
        (deviceBytes ours.deviceId) other).2 = .ok key) :
    Dialogue.Reaches
      ⟨pairingExchangeJoiner noise handshakes postcard spake ours code
          theirs.deviceId random ourMs,
        exchangeWithJoiner noise handshakes postcard spake theirs shown
          ours.deviceId other theirMs, [], []⟩
      ⟨exchangeKeys noise handshakes postcard ours true key
          (pairingPrologue theirs.deviceId ours.deviceId) theirs.deviceId
          wrongCode random ourMs,
        exchangeKeys noise handshakes postcard theirs false otherKey
          (pairingPrologue theirs.deviceId ours.deviceId) ours.deviceId id
          other theirMs, [], []⟩ := by
  have hlengthA := hspake.lengthA shown.asBytes (deviceBytes theirs.deviceId)
    (deviceBytes ours.deviceId) other
  have hlengthB := hspake.lengthB code.asBytes (deviceBytes theirs.deviceId)
    (deviceBytes ours.deviceId) random
  simp only [pairingExchangeJoiner, exchangeWithJoiner]
  refine (Dialogue.reaches_answered
    (exactly_take (hlengthA.trans hlengthB.symm)) _ _ _ _ []).trans ?_
  refine (Dialogue.reaches_sent
    (exactly_take (hlengthB.trans hlengthA.symm)) _ _ _ _ []).trans ?_
  simp only [hfinish, hfinishOurs, spakeKey_ok hkey, spakeKey_ok hotherKey]
  exact .refl

/-- With one code, both ends learn each other's keys. -/
theorem reaches_exchange (hnoise : noise.Inverts inStep)
    (hpairings : handshakes.PairingsAgree publicOf inStep)
    (hspake : spake.Agrees) (hpostcard : postcard.Lossless)
    {ours theirs : Inner} (hours : ours.keys.Pair publicOf)
    (htheirs : theirs.keys.Pair publicOf) {ourMs theirMs : ℕ}
    {ourBytes theirBytes : Bytes}
    (hourHello : (Wire.Message.hello (ours.hello ourMs)).encode postcard =
      .ok ourBytes)
    (htheirHello : (Wire.Message.hello (theirs.hello theirMs)).encode postcard =
      .ok theirBytes)
    (code : PairingCode) (random other : ℕ) :
    Dialogue.Reaches
      ⟨pairingExchangeJoiner noise handshakes postcard spake ours code
          theirs.deviceId random ourMs,
        exchangeWithJoiner noise handshakes postcard spake theirs code
          ours.deviceId other theirMs, [], []⟩
      ⟨.done (.ok (theirs.hello theirMs, theirs.keys.publicKey)),
        .done (.ok (ours.hello ourMs, ours.keys.publicKey)), [], []⟩ := by
  obtain ⟨key, hkey, hfinish, hfinishOurs⟩ := hspake.finishes code.asBytes
    (deviceBytes theirs.deviceId) (deviceBytes ours.deviceId) other random
  exact (reaches_spake hspake hkey hkey hfinish hfinishOurs).trans
    (reaches_exchangeKeys hnoise hpairings hpostcard hours htheirs hourHello
      htheirHello hkey (length_pairingPrologue _ _) _ _ _ _)

/-- A device on which a code was typed. -/
structure Joining where
  inner : Inner
  address : Option SocketAddr
  /-- The device at the other end of the tunnel, if it goes through one. -/
  expected : Option DeviceId
  code : PairingCode
  random : ℕ
  nowMs : ℕ

/-- The connection to pair, before anything was sent. -/
def pairing (noise : Noise State) (handshakes : Handshakes State)
    (postcard : Wire.Postcard) (spake : Spake2) (joining : Joining)
    (taking : Taking) : Dialogue UInt8 LanError Paired (Accepted State) :=
  .start
    (joinPairingOver noise handshakes postcard spake joining.inner
      joining.address joining.expected joining.code joining.random joining.nowMs)
    (handleIncoming noise handshakes postcard spake taking.listener
      taking.origin taking.random taking.nowMs)

/-- The typed code is the one that the other device shows, and each device is
the one that the other end expects. -/
structure SameCode (joining : Joining) (taking : Taking) : Prop where
  other : joining.inner.deviceId ≠ taking.listener.inner.deviceId
  fits : taking.origin.fits joining.inner.deviceId = true
  expected : ∀ device ∈ joining.expected,
    device = taking.listener.inner.deviceId
  shown : ∃ shown ∈ taking.listener.shown,
    shown.expired = false ∧ shown.code = joining.code

/-- What the other end makes of the preamble. -/
def pairingAnswer (noise : Noise State) (handshakes : Handshakes State)
    (postcard : Wire.Postcard) (spake : Spake2) (joining : Joining)
    (taking : Taking) : Talk UInt8 LanError (Accepted State) :=
  dispatch noise handshakes postcard spake taking.listener taking.origin
    taking.random taking.nowMs kindPairing joining.inner.deviceId

/-- The other end refuses the connection, or answers with the device ID and goes
on with the code that it shows. -/
theorem pairingAnswer_cases (noise : Noise State) (handshakes : Handshakes State)
    (postcard : Wire.Postcard) (spake : Spake2) (joining : Joining)
    (taking : Taking) :
    (∃ error, pairingAnswer noise handshakes postcard spake joining taking =
        .done (.error error) ∧ ¬ SameCode joining taking) ∨
      ∃ shown ∈ taking.listener.shown, shown.expired = false ∧
        joining.inner.deviceId ≠ taking.listener.inner.deviceId ∧
        taking.origin.fits joining.inner.deviceId = true ∧
        pairingAnswer noise handshakes postcard spake joining taking =
          .write (deviceBytes taking.listener.inner.deviceId) id
            ((exchangeWithJoiner noise handshakes postcard spake
              taking.listener.inner shown.code joining.inner.deviceId
              taking.random taking.nowMs).andThen fun (hello, publicKey) =>
                .done (.ok (.paired
                  { deviceId := joining.inner.deviceId
                    hello
                    publicKey
                    address := taking.origin.address }))) := by
  unfold pairingAnswer dispatch
  split
  · next hself => exact .inl ⟨_, rfl, fun hsame => hsame.other hself⟩
  next hother =>
  split
  · next hfits =>
    refine .inl ⟨_, rfl, fun hsame => ?_⟩
    rw [hsame.fits] at hfits
    cases hfits
  next hfits =>
  rw [if_neg (by decide), if_pos rfl]
  cases hshown : taking.listener.shown with
  | none =>
      refine .inl ⟨_, rfl, fun hsame => ?_⟩
      obtain ⟨shown, hmem, -⟩ := hsame.shown
      rw [hshown] at hmem
      cases hmem
  | some shown =>
      cases hexpired : shown.expired with
      | true =>
          refine .inl ⟨.codeExpired, if_pos hexpired, fun hsame => ?_⟩
          obtain ⟨other, hmem, hlive, -⟩ := hsame.shown
          obtain rfl : shown = other := by simpa [hshown] using hmem
          exact absurd (hexpired.symm.trans hlive) nofun
      | false =>
          refine .inr ⟨shown, rfl, hexpired, hother, by simpa using hfits, ?_⟩
          simp only [acceptPairing, hexpired, Bool.false_eq_true, if_false]
          rfl

/-- The joining end reads the device ID of the other one, and goes on unless it
expects another device. -/
def pairingWith (noise : Noise State) (handshakes : Handshakes State)
    (postcard : Wire.Postcard) (spake : Spake2) (joining : Joining)
    (listener : DeviceId) : Talk UInt8 LanError Paired :=
  if joining.expected.any (· ≠ listener) then .done (.error .unknownPeer)
  else
    (pairingExchangeJoiner noise handshakes postcard spake joining.inner
      joining.code listener joining.random joining.nowMs).andThen
        fun (hello, publicKey) =>
          .done (.ok
            { deviceId := listener, hello, publicKey
              address := joining.address })

theorem joinPairingOver_eq (joining : Joining) :
    joinPairingOver noise handshakes postcard spake joining.inner
        joining.address joining.expected joining.code joining.random
        joining.nowMs =
      .write (preamble kindPairing joining.inner.deviceId) id
        (.read (exactly 16) (fun _ => .notPairing) fun listenerId =>
          pairingWith noise handshakes postcard spake joining
            (readDevice listenerId)) := rfl

variable {joining : Joining} {taking : Taking}

theorem pairing_opens : (pairing noise handshakes postcard spake joining
    taking).Reaches
      ⟨.read (exactly 16) (fun _ => .notPairing) fun listenerId =>
          pairingWith noise handshakes postcard spake joining
            (readDevice listenerId),
        pairingAnswer noise handshakes postcard spake joining taking, [], []⟩ := by
  rw [pairing, Dialogue.start, joinPairingOver_eq]
  exact reaches_dispatch _ _ _ _ _ _ _

theorem pairing_meets {right : Talk UInt8 LanError (Accepted State)}
    (hanswer : pairingAnswer noise handshakes postcard spake joining taking =
      .write (deviceBytes taking.listener.inner.deviceId) id right) :
    (pairing noise handshakes postcard spake joining taking).Reaches
      ⟨pairingWith noise handshakes postcard spake joining
        taking.listener.inner.deviceId, right, [], []⟩ := by
  have hopens : (pairing noise handshakes postcard spake joining taking).Reaches
      _ := pairing_opens
  rw [hanswer] at hopens
  have hanswered := hopens.trans (Dialogue.reaches_answered
    (exactly_take (length_deviceBytes _)) _ _ _ _ [])
  rwa [readDevice_deviceBytes] at hanswered

/-- The peer that the joining device stores. -/
def Joining.learns (joining : Joining) (taking : Taking) : Paired :=
  { deviceId := taking.listener.inner.deviceId
    hello := taking.listener.inner.hello taking.nowMs
    publicKey := taking.listener.inner.keys.publicKey
    address := joining.address }

/-- The peer that the other device stores. -/
def Taking.learns (taking : Taking) (joining : Joining) : Paired :=
  { deviceId := joining.inner.deviceId
    hello := joining.inner.hello joining.nowMs
    publicKey := joining.inner.keys.publicKey
    address := taking.origin.address }

/-- With the same code, both ends come to know each other. -/
theorem SameCode.reaches (hnoise : noise.Inverts inStep)
    (hpairings : handshakes.PairingsAgree publicOf inStep)
    (hspake : spake.Agrees) (hpostcard : postcard.Lossless)
    (hjoining : joining.inner.keys.Pair publicOf)
    (htaking : taking.listener.inner.keys.Pair publicOf)
    {ourBytes theirBytes : Bytes}
    (hourHello : (Wire.Message.hello
      (joining.inner.hello joining.nowMs)).encode postcard = .ok ourBytes)
    (htheirHello : (Wire.Message.hello
      (taking.listener.inner.hello taking.nowMs)).encode postcard =
        .ok theirBytes)
    (hsame : SameCode joining taking) :
    (pairing noise handshakes postcard spake joining taking).Reaches
      ⟨.done (.ok (joining.learns taking)),
        .done (.ok (.paired (taking.learns joining))), [], []⟩ := by
  cases pairingAnswer_cases noise handshakes postcard spake joining taking with
  | inl hrefused =>
      obtain ⟨error, -, hother⟩ := hrefused
      exact absurd hsame hother
  | inr hshows =>
      obtain ⟨shown, hshown, -, -, -, hanswer⟩ := hshows
      obtain ⟨other, hmem, -, hcode⟩ := hsame.shown
      obtain rfl : shown = other := Option.some.inj (hshown.symm.trans hmem)
      have hexpected : joining.expected.any
          (· ≠ taking.listener.inner.deviceId) = false := by
        cases hdevice : joining.expected with
        | none => rfl
        | some device => simp [hsame.expected device hdevice]
      refine (pairing_meets hanswer).trans ?_
      rw [pairingWith, hexpected, hcode]
      exact (reaches_exchange hnoise hpairings hspake hpostcard hjoining htaking
        hourHello htheirHello joining.code joining.random
          taking.random).andThen _ _

end Pairing

/-! ## Two devices with a code -/

end Cled.Lan
