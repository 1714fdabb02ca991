import Mathlib.Data.List.Count
import Mathlib.Data.Nat.Basic
import Cled.Core.Machine
import Cled.Lan.Wire

/-!
# Pairing codes

The side that shows a code keeps its pairing session behind a lock, which is
handed to those who wait for it in the order they asked.  An attempt holds the
lock while it runs against the code.  One that pairs, or finds the code expired,
clears the session and lets go of the lock; then `end_pairing` asks for the lock
once more and clears the session again, whatever it is by then.

Codes are numbered in the order they are put into the session, and the histories
of what happened to each are kept beside it.
-/

namespace Cled.Lan

open Cled.Core

/-- How long a code is valid. -/
def codeLifetimeMs : ℕ := 120000

def maxPairingFailures : ℕ := 3

structure PairingSession where
  code : ℕ
  expiresAt : ℕ
  failures : ℕ
  deriving DecidableEq

/-- Who waits for the lock. -/
inductive Waiter where
  /-- `start_pairing`, and when it was called: the expiry counts from then. -/
  | startPairing (calledAt : ℕ)
  | endPairing
  /-- An attempt with the code that was typed.  `informed`: the code had been
  shown when the attempt began. -/
  | attempt (typed : ℕ) (informed : Bool)
  deriving DecidableEq

structure Pairing where
  now : ℕ
  session : Option PairingSession
  /-- The code of the exchange that holds the lock. -/
  exchange : Option ℕ
  waiting : List Waiter
  /-- Attempts that have let go of the lock and not yet asked for it again. -/
  ending : ℕ
  /-- When each code expires. -/
  expiries : List ℕ
  /-- The codes that `start_pairing` returned since it or `cancel_pairing` was
  last called. -/
  fresh : List ℕ
  /-- The codes of exchanges that succeeded. -/
  paired : List ℕ
  /-- The codes of exchanges that failed. -/
  failed : List ℕ
  /-- The codes that were cancelled or replaced. -/
  withdrawn : List ℕ
  deriving DecidableEq

inductive PairingAction where
  | wait (ms : ℕ)
  | callStart
  | callCancel
  /-- A device connects to pair, and the code typed there is this one. -/
  | callAttempt (typed : ℕ)
  /-- The next waiter gets the lock. -/
  | lock
  /-- The exchange ends: in success, with an error or in a timeout. -/
  | finish (result : Except LanError Unit)
  /-- An attempt that ended the session calls `end_pairing`. -/
  | callEnd

namespace Pairing

def start : Pairing :=
  { now := 0
    session := none
    exchange := none
    waiting := []
    ending := 0
    expiries := []
    fresh := []
    paired := []
    failed := []
    withdrawn := [] }

/-- Drops the session, if there is one, and with it its code. -/
def withdraw (pairing : Pairing) : Pairing :=
  { pairing with
    session := none
    withdrawn :=
      pairing.withdrawn ++ (pairing.session.map PairingSession.code).toList }

/-- A session with a new code, in place of the one there was.  The code is valid
from `since`. -/
def renew (pairing : Pairing) (since : ℕ) : Pairing :=
  let expiresAt := since + codeLifetimeMs
  { pairing.withdraw with
    session := some ⟨pairing.expiries.length, expiresAt, 0⟩
    expiries := pairing.expiries ++ [expiresAt] }

/-- What `accept_pairing` does before the exchange, once it has the lock. -/
def acceptPairing (pairing : Pairing) : Pairing :=
  match pairing.session with
  | none => pairing
  | some session =>
      if session.expiresAt < pairing.now then
        { pairing with session := none, ending := pairing.ending + 1 }
      else { pairing with exchange := some session.code }

/-- What `accept_pairing` does after the exchange, before it lets go of the
lock. -/
def finishExchange (pairing : Pairing) (session : PairingSession) :
    Except LanError Unit → Pairing
  | .ok _ =>
      { pairing with
        session := none
        exchange := none
        ending := pairing.ending + 1
        paired := pairing.paired ++ [session.code] }
  | .error _ =>
      let failed :=
        { pairing with
          session := some { session with failures := session.failures + 1 }
          exchange := none
          failed := pairing.failed ++ [session.code] }
      if maxPairingFailures ≤ session.failures + 1 then failed.renew pairing.now
      else failed

/-- The waiter at the head of the queue gets the lock. -/
def serve (pairing : Pairing) : Waiter → Pairing
  | .startPairing calledAt =>
      { pairing.renew calledAt with
        fresh := pairing.expiries.length :: pairing.fresh }
  | .endPairing => pairing.withdraw
  | .attempt _ _ => pairing.acceptPairing

def step (pairing : Pairing) : PairingAction → Option Pairing
  | .wait ms => some { pairing with now := pairing.now + ms }
  | .callStart =>
      some
        { pairing with
          waiting := pairing.waiting ++ [.startPairing pairing.now], fresh := [] }
  | .callCancel =>
      some
        { pairing with
          waiting := pairing.waiting ++ [.endPairing], fresh := [] }
  | .callAttempt typed =>
      some
        { pairing with
          waiting := pairing.waiting ++
            [.attempt typed (pairing.fresh.contains typed)] }
  | .lock =>
      match pairing.exchange, pairing.waiting with
      | none, waiter :: waiting =>
          some ({ pairing with waiting }.serve waiter)
      | _, _ => none
  | .finish result =>
      match pairing.exchange, pairing.session with
      | some _, some session => some (pairing.finishExchange session result)
      | _, _ => none
  | .callEnd =>
      if pairing.ending = 0 then none
      else
        some
          { pairing with
            ending := pairing.ending - 1
            waiting := pairing.waiting ++ [.endPairing] }

def machine : Machine Pairing PairingAction := ⟨step⟩

/-- What a possible action leaves. -/
inductive Stepped (pairing : Pairing) : PairingAction → Pairing → Prop
  | wait (ms : ℕ) :
      Stepped pairing (.wait ms) { pairing with now := pairing.now + ms }
  | callStart :
      Stepped pairing .callStart
        { pairing with
          waiting := pairing.waiting ++ [.startPairing pairing.now], fresh := [] }
  | callCancel :
      Stepped pairing .callCancel
        { pairing with
          waiting := pairing.waiting ++ [.endPairing], fresh := [] }
  | callAttempt (typed : ℕ) :
      Stepped pairing (.callAttempt typed)
        { pairing with
          waiting := pairing.waiting ++
            [.attempt typed (pairing.fresh.contains typed)] }
  | lock (waiter : Waiter) (waiting : List Waiter)
      (hidle : pairing.exchange = none)
      (hwaiting : pairing.waiting = waiter :: waiting) :
      Stepped pairing .lock ({ pairing with waiting }.serve waiter)
  | finish (session : PairingSession) (result : Except LanError Unit)
      (hsession : pairing.session = some session) :
      Stepped pairing (.finish result) (pairing.finishExchange session result)
  | callEnd (hending : pairing.ending ≠ 0) :
      Stepped pairing .callEnd
        { pairing with
          ending := pairing.ending - 1
          waiting := pairing.waiting ++ [.endPairing] }

theorem stepped_of_step {pairing next : Pairing} {action : PairingAction}
    (hstep : pairing.step action = some next) : pairing.Stepped action next := by
  cases action with
  | wait ms =>
      obtain rfl := Option.some.inj hstep
      exact .wait ms
  | callStart =>
      obtain rfl := Option.some.inj hstep
      exact .callStart
  | callCancel =>
      obtain rfl := Option.some.inj hstep
      exact .callCancel
  | callAttempt typed =>
      obtain rfl := Option.some.inj hstep
      exact .callAttempt typed
  | lock =>
      dsimp only [step] at hstep
      split at hstep
      · next waiter waiting hidle hwaiting =>
        obtain rfl := Option.some.inj hstep
        exact .lock waiter waiting hidle hwaiting
      · contradiction
  | finish result =>
      dsimp only [step] at hstep
      split at hstep
      · next session _ hsession =>
        obtain rfl := Option.some.inj hstep
        exact .finish session result hsession
      · contradiction
  | callEnd =>
      obtain ⟨hending, hnext⟩ := Option.ite_none_left_eq_some.mp hstep
      obtain rfl := Option.some.inj hnext
      exact .callEnd hending

/-! ## A guess limit -/

/-- The code that an exchange starts with in this step. -/
def startsExchange (pairing : Pairing) (action : PairingAction) : Option ℕ :=
  match action with
  | .lock => (pairing.step action).bind Pairing.exchange
  | _ => none

/-- Whether the code has expired. -/
def Expired (pairing : Pairing) (code : ℕ) : Prop :=
  ∃ expiresAt ∈ pairing.expiries[code]?, expiresAt < pairing.now

/-- An exchange starts only with a code that was made and has not expired, was
not cancelled or replaced, and has not paired a device. -/
def StartsWithLiveCode (pairing : Pairing) (action : PairingAction) : Prop :=
  ∀ code ∈ pairing.startsExchange action,
    code < pairing.expiries.length ∧ ¬ pairing.Expired code ∧
      code ∉ pairing.withdrawn ∧ code ∉ pairing.paired

/-- No code has had too many exchanges. -/
def Limited (pairing : Pairing) : Prop :=
  ∀ code, pairing.failed.count code ≤ maxPairingFailures ∧
    pairing.paired.count code ≤ 1

/-- The code of the session is live, and its failures are counted. -/
structure LiveSession (pairing : Pairing) (session : PairingSession) : Prop where
  expires : pairing.expiries[session.code]? = some session.expiresAt
  notWithdrawn : session.code ∉ pairing.withdrawn
  notPaired : session.code ∉ pairing.paired
  counted : pairing.failed.count session.code = session.failures
  limited : session.failures < maxPairingFailures

/-- No more codes than were made appear in the histories. -/
def Made (pairing : Pairing) : Prop :=
  ∀ code, pairing.expiries.length ≤ code →
    code ∉ pairing.withdrawn ∧ code ∉ pairing.paired ∧ code ∉ pairing.failed

structure Sound (pairing : Pairing) : Prop where
  session : ∀ session ∈ pairing.session, pairing.LiveSession session
  exchange : ∀ code ∈ pairing.exchange,
    ∃ session ∈ pairing.session, session.code = code
  limited : pairing.Limited
  made : pairing.Made

theorem sound_start : start.Sound where
  session := nofun
  exchange := nofun
  limited _ := ⟨Nat.zero_le _, Nat.zero_le _⟩
  made _ _ := ⟨List.not_mem_nil, List.not_mem_nil, List.not_mem_nil⟩

section Sound

variable {pairing : Pairing}

theorem LiveSession.code_lt {session : PairingSession}
    (hlive : pairing.LiveSession session) :
    session.code < pairing.expiries.length :=
  (List.getElem?_eq_some_iff.mp hlive.expires).1

/-- What is known of a session is in the histories. -/
theorem LiveSession.of_histories {other : Pairing} {session : PairingSession}
    (hlive : pairing.LiveSession session)
    (hexpiries : other.expiries = pairing.expiries)
    (hwithdrawn : other.withdrawn = pairing.withdrawn)
    (hpaired : other.paired = pairing.paired)
    (hfailed : other.failed = pairing.failed) : other.LiveSession session where
  expires := hexpiries ▸ hlive.expires
  notWithdrawn := hwithdrawn ▸ hlive.notWithdrawn
  notPaired := hpaired ▸ hlive.notPaired
  counted := hfailed ▸ hlive.counted
  limited := hlive.limited

theorem made_withdraw (hmade : pairing.Made)
    (hsession : ∀ session ∈ pairing.session,
      session.code < pairing.expiries.length) : pairing.withdraw.Made := by
  intro code hcode
  obtain ⟨hwithdrawn, hrest⟩ := hmade code hcode
  refine ⟨fun hmem => ?_, hrest⟩
  rcases List.mem_append.mp hmem with hold | hnew
  · exact hwithdrawn hold
  · obtain ⟨session, hsome, rfl⟩ :=
      Option.map_eq_some_iff.mp (Option.mem_toList.mp hnew)
    exact absurd (hsession session hsome) (Nat.not_lt.mpr hcode)

theorem sound_withdraw (hlimited : pairing.Limited) (hmade : pairing.Made)
    (hsession : ∀ session ∈ pairing.session,
      session.code < pairing.expiries.length)
    (hidle : pairing.exchange = none) : pairing.withdraw.Sound where
  session := nofun
  exchange code hcode := by
    have hnone : pairing.withdraw.exchange = none := hidle
    rw [hnone] at hcode
    contradiction
  limited := hlimited
  made := made_withdraw hmade hsession

/-- A new code has no history. -/
theorem sound_renew (hlimited : pairing.Limited) (hmade : pairing.Made)
    (hsession : ∀ session ∈ pairing.session,
      session.code < pairing.expiries.length)
    (hidle : pairing.exchange = none) (since : ℕ) : (pairing.renew since).Sound where
  session session hmem := by
    obtain rfl := Option.some.inj hmem
    obtain ⟨hwithdrawn, hpaired, hfailed⟩ :=
      made_withdraw hmade hsession pairing.expiries.length le_rfl
    exact
      { expires := List.getElem?_concat_length
        notWithdrawn := hwithdrawn
        notPaired := hpaired
        counted := List.count_eq_zero.mpr hfailed
        limited := Nat.succ_pos 2 }
  exchange code hcode := by
    have hnone : (pairing.renew since).exchange = none := hidle
    rw [hnone] at hcode
    contradiction
  limited := hlimited
  made code hcode := by
    have hlength : pairing.expiries.length + 1 ≤ code := by
      simpa [renew] using hcode
    exact made_withdraw hmade hsession code (Nat.le_of_succ_le hlength)

theorem Sound.acceptPairing (hsound : pairing.Sound)
    (hidle : pairing.exchange = none) : pairing.acceptPairing.Sound := by
  unfold Pairing.acceptPairing
  split
  · exact hsound
  next session hsession =>
    split
    · refine ⟨nofun, ?_, hsound.limited, hsound.made⟩
      dsimp only
      rw [hidle]
      exact nofun
    · refine ⟨fun other hother => ?_, fun code hcode => ?_, hsound.limited,
        hsound.made⟩
      · exact (hsound.session other hother).of_histories rfl rfl rfl rfl
      · obtain rfl := Option.some.inj hcode
        exact ⟨session, hsession, rfl⟩

theorem Sound.finishExchange (hsound : pairing.Sound) {session : PairingSession}
    (hsession : pairing.session = some session) (result : Except LanError Unit) :
    (pairing.finishExchange session result).Sound := by
  have hlive := hsound.session session hsession
  have hmade : ∀ code, pairing.expiries.length ≤ code → code ≠ session.code :=
    fun code hcode => (lt_of_lt_of_le hlive.code_lt hcode).ne'
  cases result with
  | ok paired =>
      refine ⟨nofun, nofun, fun code => ?_, fun code hcode => ?_⟩
      · obtain ⟨hfailed, hpaired⟩ := hsound.limited code
        refine ⟨hfailed, ?_⟩
        dsimp only [Pairing.finishExchange]
        rw [List.count_append]
        by_cases hcode : code = session.code
        · subst hcode
          rw [List.count_eq_zero.mpr hlive.notPaired, List.count_singleton_self]
        · rw [List.count_singleton, if_neg (by simpa using Ne.symm hcode)]
          exact hpaired
      · obtain ⟨hwithdrawn, hpaired, hfailed⟩ := hsound.made code hcode
        refine ⟨hwithdrawn, fun hmem => ?_, hfailed⟩
        rcases List.mem_append.mp hmem with hold | hnew
        · exact hpaired hold
        · exact hmade code hcode (List.mem_singleton.mp hnew)
  | error message =>
      let failed : Pairing :=
        { pairing with
          session := some { session with failures := session.failures + 1 }
          exchange := none
          failed := pairing.failed ++ [session.code] }
      have hcount : failed.failed.count session.code = session.failures + 1 := by
        rw [List.count_append, hlive.counted, List.count_singleton_self]
      have hlimited : failed.Limited := by
        intro code
        obtain ⟨hfailed, hpaired⟩ := hsound.limited code
        refine ⟨?_, hpaired⟩
        by_cases hcode : code = session.code
        · subst hcode
          rw [hcount]
          exact hlive.limited
        · rw [List.count_append, List.count_singleton,
            if_neg (by simpa using Ne.symm hcode)]
          exact hfailed
      have hfailedMade : failed.Made := by
        intro code hcode
        obtain ⟨hwithdrawn, hpaired, hfailed⟩ := hsound.made code hcode
        refine ⟨hwithdrawn, hpaired, fun hmem => ?_⟩
        rcases List.mem_append.mp hmem with hold | hnew
        · exact hfailed hold
        · exact hmade code hcode (List.mem_singleton.mp hnew)
      change (if maxPairingFailures ≤ session.failures + 1 then
        failed.renew pairing.now else failed).Sound
      split
      · refine sound_renew hlimited hfailedMade (fun other hother => ?_) rfl _
        obtain rfl := Option.some.inj hother
        exact hlive.code_lt
      · next hfew =>
        refine ⟨fun other hother => ?_, nofun, hlimited, hfailedMade⟩
        obtain rfl := Option.some.inj hother
        exact
          { expires := hlive.expires
            notWithdrawn := hlive.notWithdrawn
            notPaired := hlive.notPaired
            counted := hcount
            limited := Nat.not_le.mp hfew }

/-- Steps that change neither the session nor the histories. -/
theorem Sound.of_same (hsound : pairing.Sound) {other : Pairing}
    (hsession : other.session = pairing.session)
    (hexchange : other.exchange = pairing.exchange)
    (hexpiries : other.expiries = pairing.expiries)
    (hwithdrawn : other.withdrawn = pairing.withdrawn)
    (hpaired : other.paired = pairing.paired)
    (hfailed : other.failed = pairing.failed) : other.Sound where
  session session hmem := (hsound.session session (hsession ▸ hmem)).of_histories
    hexpiries hwithdrawn hpaired hfailed
  exchange := by
    rw [hexchange, hsession]
    exact hsound.exchange
  limited := by
    unfold Limited
    rw [hfailed, hpaired]
    exact hsound.limited
  made := by
    unfold Made
    rw [hexpiries, hwithdrawn, hpaired, hfailed]
    exact hsound.made

theorem Sound.serve (hsound : pairing.Sound) (hidle : pairing.exchange = none)
    (waiter : Waiter) : (pairing.serve waiter).Sound := by
  have hsession : ∀ session ∈ pairing.session,
      session.code < pairing.expiries.length :=
    fun session hmem => (hsound.session session hmem).code_lt
  cases waiter with
  | startPairing calledAt =>
      exact (sound_renew hsound.limited hsound.made hsession hidle calledAt).of_same
        rfl rfl rfl rfl rfl rfl
  | endPairing =>
      exact sound_withdraw hsound.limited hsound.made hsession hidle
  | attempt typed informed => exact hsound.acceptPairing hidle

theorem sound_step {action : PairingAction} {next : Pairing}
    (hsound : pairing.Sound) (hstep : pairing.step action = some next) :
    next.Sound := by
  cases stepped_of_step hstep with
  | wait | callStart | callCancel | callAttempt | callEnd =>
      exact hsound.of_same rfl rfl rfl rfl rfl rfl
  | lock waiter waiting hidle hwaiting =>
      have hpopped : Pairing.Sound { pairing with waiting } :=
        hsound.of_same rfl rfl rfl rfl rfl rfl
      exact hpopped.serve hidle waiter
  | finish session result hsession =>
      exact hsound.finishExchange hsession result

theorem startsWithLiveCode (hsound : pairing.Sound) (action : PairingAction) :
    pairing.StartsWithLiveCode action := by
  intro code hcode
  cases action with
  | lock =>
      obtain ⟨next, hstep, hexchange⟩ := Option.bind_eq_some_iff.mp hcode
      cases stepped_of_step hstep with
      | lock waiter waiting hidle hwaiting =>
          cases waiter with
          | startPairing calledAt =>
              exact absurd (hidle.symm.trans hexchange) nofun
          | endPairing => exact absurd (hidle.symm.trans hexchange) nofun
          | attempt typed informed =>
              dsimp only [serve, acceptPairing] at hexchange
              split at hexchange
              · exact absurd (hidle.symm.trans hexchange) nofun
              next session hsession =>
                split at hexchange
                · exact absurd (hidle.symm.trans hexchange) nofun
                next hvalid =>
                  obtain rfl := Option.some.inj hexchange
                  have hlive := hsound.session session hsession
                  refine ⟨hlive.code_lt, ?_, hlive.notWithdrawn, hlive.notPaired⟩
                  rintro ⟨expiresAt, hexpires, hpast⟩
                  obtain rfl :=
                    Option.some.inj (hlive.expires.symm.trans hexpires)
                  exact hvalid hpast
  | _ => contradiction

end Sound

/-- However attempts, starts and cancellations interleave, each code has at most
`maxPairingFailures` failed exchanges and one that succeeds, and no exchange
starts with a code that is no longer good. -/
theorem guessLimit {actions : List PairingAction} {final : Pairing}
    (hrun : machine.run start actions = some final) :
    final.Limited ∧ machine.Along StartsWithLiveCode start actions := by
  have hstep : ∀ pairing action next, Sound pairing →
      machine.step pairing action = some next → Sound next :=
    fun _ _ _ hsound hnext => sound_step hsound hnext
  have hsound : final.Sound :=
    Machine.run_of_step_invariant hstep sound_start hrun
  refine ⟨hsound.limited, ?_⟩
  exact Machine.along_of_step_invariant
    (fun _ action hstate => startsWithLiveCode hstate action) hstep actions
    sound_start

/-- An attempt with this code that ends like this, with nobody else waiting. -/
def attempt (typed : ℕ) (result : Except LanError Unit) : List PairingAction :=
  [.callAttempt typed, .lock, .finish result]

/-- Three wrong guesses, and a fourth against the code that replaced the first
one, which then pairs a device. -/
def guesses : List PairingAction :=
  let wrong := .error LanError.wrongCode
  [.callStart, .lock] ++ attempt 7 wrong ++ attempt 7 (.error .timeout) ++
    attempt 7 wrong ++ attempt 0 wrong ++ attempt 1 (.ok ()) ++
    [.callEnd, .lock, .callAttempt 1, .lock]

theorem guessLimit_guesses :
    ∃ final, machine.run start guesses = some final ∧
      final.failed = [0, 0, 0, 1] ∧ final.paired = [1] ∧ final.Limited := by
  have hsome : (machine.run start guesses).map
      (fun final => (final.failed, final.paired)) = some ([0, 0, 0, 1], [1]) := by
    decide
  obtain ⟨final, hrun, hhistories⟩ := Option.map_eq_some_iff.mp hsome
  obtain ⟨hfailed, hpaired⟩ := Prod.mk.inj hhistories
  exact ⟨final, hrun, hfailed, hpaired, (guessLimit hrun).1⟩

end Pairing

end Cled.Lan
