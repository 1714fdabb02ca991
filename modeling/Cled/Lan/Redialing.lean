import Cled.Core.Tasks
import Cled.Lan.Dialing

/-!
# When a device is dialed again

The backoff table says, for each device, what its failures in a row since it was
last forgotten say.  So the dial loop leaves a device alone for at most 30 s after
its last failure.
-/

namespace Cled.Lan

open Cled.Core Cled.Sync

/-- The entry of a device with these failures in a row. -/
def backoffOf (streak : Streak) : Option Backoff :=
  if streak.count = 0 then none
  else
    some
      { nextAttempt :=
          streak.last + delayAfter firstDelay maxBackoff (streak.count - 1)
        delay := delayAfter firstDelay maxBackoff streak.count }

theorem failed_backoffOf (streak : Streak) (now : ℕ) :
    some (Backoff.failed now (backoffOf streak)) =
      backoffOf ⟨streak.count + 1, now⟩ := by
  have hfirst : delayAfter firstDelay maxBackoff 0 = firstDelay :=
    delayAfter_zero (by decide)
  rcases Nat.eq_zero_or_pos streak.count with hzero | hpos
  · simp only [backoffOf, hzero, if_true, Backoff.failed, Option.getD_none,
      Nat.zero_add, one_ne_zero, if_false, Nat.sub_self, hfirst,
      delayAfter_succ]
  · have hcount : streak.count - 1 + 1 = streak.count := Nat.sub_add_cancel hpos
    simp only [backoffOf, hpos.ne', if_false, Backoff.failed, Option.getD_some,
      Nat.succ_ne_zero, Nat.add_sub_cancel, delayAfter_succ]

theorem backoffOf_none : backoffOf Streak.none = none := rfl

theorem forall_backoffOf_iff (streak : Streak) (now : ℕ) :
    (∀ entry ∈ backoffOf streak, entry.nextAttempt ≤ now) ↔
      streak.Over firstDelay maxBackoff now := by
  rw [backoffOf, Streak.Over]
  by_cases hzero : streak.count = 0 <;> simp [hzero]

namespace Dialer

variable {me : DeviceId} {redialInterval : ℕ}

/-! ## The backoff table -/

/-- Every entry is what the history of its device says. -/
def Scheduled (dialer : Dialer) : Prop :=
  ∀ device, dialer.backoff device = backoffOf (streakOf device dialer.marks)

/-- The changes to the table and the marks that go with them. -/
theorem Scheduled.note {dialer : Dialer} (hscheduled : dialer.Scheduled)
    (device : DeviceId) {entry : Option Backoff} {mark : Mark DeviceId}
    (hentry : backoffOf ((streakOf device dialer.marks).note device mark) = entry)
    (hothers : ∀ other, other ≠ device → ∀ streak : Streak,
      streak.note other mark = streak) (other : DeviceId) :
    Function.update dialer.backoff device entry other =
      backoffOf (streakOf other (dialer.marks ++ [mark])) := by
  rw [streakOf_concat]
  by_cases hother : other = device
  · subst hother
    rw [Function.update_self, hentry]
  · rw [Function.update_of_ne hother, hothers other hother, hscheduled other]

theorem Scheduled.forget {dialer : Dialer} (hscheduled : dialer.Scheduled)
    (device : DeviceId) : (dialer.forget device).Scheduled := by
  apply hscheduled.note device
  · rw [Streak.note, if_pos rfl, backoffOf_none]
  · intro other hother streak
    rw [Streak.note, if_neg hother.symm]

theorem Scheduled.record {dialer : Dialer} (hscheduled : dialer.Scheduled)
    (peer : DeviceId) (result : Except LanError Unit) :
    (dialer.record peer result).Scheduled := by
  cases result with
  | ok _ => exact hscheduled.forget peer
  | error error =>
      apply hscheduled.note peer
      · rw [Streak.note, if_pos rfl, hscheduled peer, failed_backoffOf]
      · intro other hother streak
        rw [Streak.note, if_neg hother.symm]

theorem scheduled_step (dialer : Dialer) (action : DialAction) (next : Dialer)
    (hscheduled : dialer.Scheduled)
    (hstep : (machine me redialInterval).step dialer action = some next) :
    next.Scheduled := by
  cases stepped hstep with
  | triggered action device => exact hscheduled.forget device
  | recorded index peer result hdial => exact hscheduled.record peer result
  | backoffDropped device => exact hscheduled.forget device
  | backoffCleared =>
      intro device
      dsimp only
      rw [streakOf_concat, Streak.note, backoffOf_none]
  | _ => exact hscheduled

theorem Scheduled.ready_iff {dialer : Dialer} (hscheduled : dialer.Scheduled)
    (device : DeviceId) :
    dialer.Ready device ↔
      (streakOf device dialer.marks).Over firstDelay maxBackoff dialer.now := by
  rw [Ready, hscheduled device, forall_backoffOf_iff]

/-! ## Times of a run -/

/-- Since when the device is taken to be offline, if it is. -/
def offlineFrom (dialer : Dialer) (device : DeviceId) : ℕ :=
  (dialer.offlineSince device).getD dialer.started

/-- Nothing that was noted is in the future, and the next tick is not far off. -/
structure Timely (redialInterval : ℕ) (dialer : Dialer) : Prop where
  failures : ∀ device, (streakOf device dialer.marks).last ≤ dialer.now
  tick : dialer.nextTick ≤ dialer.now + redialInterval
  started : dialer.started ≤ dialer.now
  offline : ∀ device, dialer.offlineFrom device ≤ dialer.now

theorem last_note_le {device : DeviceId} {streak : Streak} {mark : Mark DeviceId}
    {bound : ℕ} (hlast : streak.last ≤ bound)
    (hmark : ∀ time, mark = .failed device time → time ≤ bound) :
    (streak.note device mark).last ≤ bound := by
  cases mark with
  | failed other time =>
      rw [Streak.note]
      split
      · next heq => exact hmark time (heq ▸ rfl)
      · exact hlast
  | forgotten other =>
      rw [Streak.note]
      split
      · exact Nat.zero_le _
      · exact hlast
  | allForgotten => exact Nat.zero_le _

theorem last_forget_le {dialer : Dialer} {bound : ℕ} {device : DeviceId}
    (hlast : (streakOf device dialer.marks).last ≤ bound) (other : DeviceId) :
    (streakOf device (dialer.forget other).marks).last ≤ bound := by
  rw [forget]
  dsimp only
  rw [streakOf_concat]
  exact last_note_le hlast nofun

theorem last_record_le {dialer : Dialer} {bound : ℕ} {device peer : DeviceId}
    (hlast : (streakOf device dialer.marks).last ≤ bound)
    (hnow : peer = device → dialer.now ≤ bound) (result : Except LanError Unit) :
    (streakOf device (dialer.record peer result).marks).last ≤ bound := by
  cases result with
  | ok _ => exact last_forget_le hlast peer
  | error error =>
      rw [record]
      dsimp only
      rw [streakOf_concat]
      refine last_note_le hlast fun time htime => ?_
      obtain ⟨hpeer, rfl⟩ := Mark.failed.inj htime
      exact hnow hpeer

theorem record_now (dialer : Dialer) (peer : DeviceId)
    (result : Except LanError Unit) : (dialer.record peer result).now = dialer.now := by
  cases result <;> rfl

theorem record_offlineSince (dialer : Dialer) (peer : DeviceId)
    (result : Except LanError Unit) :
    (dialer.record peer result).offlineSince = dialer.offlineSince ∧
      (dialer.record peer result).started = dialer.started := by
  cases result <;> exact ⟨rfl, rfl⟩

theorem record_nextTick (dialer : Dialer) (peer : DeviceId)
    (result : Except LanError Unit) :
    (dialer.record peer result).nextTick = dialer.nextTick := by
  cases result <;> rfl

/-- What becomes of the time a device is offline from when the entry of one
device changes. -/
theorem offlineFrom_update_le {dialer : Dialer} {bound : ℕ} {device : DeviceId}
    (hoffline : dialer.offlineFrom device ≤ bound) {other : DeviceId}
    {entry : Option ℕ} (hentry : other = device → entry.getD dialer.started ≤ bound) :
    (Function.update dialer.offlineSince other entry device).getD dialer.started ≤
      bound := by
  by_cases hother : device = other
  · subst hother
    rw [Function.update_self]
    exact hentry rfl
  · rw [Function.update_of_ne hother]
    exact hoffline

theorem timely_step (dialer : Dialer) (action : DialAction) (next : Dialer)
    (htimely : dialer.Timely redialInterval)
    (hstep : (machine me redialInterval).step dialer action = some next) :
    next.Timely redialInterval := by
  obtain ⟨hfailures, htick, hstarted, hoffline⟩ := htimely
  cases stepped hstep with
  | passed ms =>
      have hlater := Nat.le_add_right dialer.now ms
      exact ⟨fun device => (hfailures device).trans hlater,
        htick.trans (Nat.add_le_add_right hlater _), hstarted.trans hlater,
        fun device => (hoffline device).trans hlater⟩
  | ticked hdue htime =>
      exact ⟨hfailures, Nat.add_le_add_right htime _, hstarted, hoffline⟩
  | triggered action device =>
      exact ⟨fun other => last_forget_le (hfailures other) device, htick, hstarted,
        hoffline⟩
  | recorded index peer result hdial =>
      obtain ⟨hsince, hstart⟩ := record_offlineSince dialer peer result
      constructor
      · intro device
        exact (last_record_le (hfailures device) (fun _ => le_refl _)
          result).trans_eq (record_now dialer peer result).symm
      · exact (record_nextTick dialer peer result).trans_le
          (htick.trans_eq (by rw [move, record_now]))
      · rw [move]
        exact hstart.trans_le (hstarted.trans_eq (record_now dialer peer result).symm)
      · intro device
        rw [offlineFrom, move]
        dsimp only
        rw [hsince, hstart, record_now]
        exact hoffline device
  | offlineCleared device =>
      refine ⟨hfailures, htick, hstarted, fun other => ?_⟩
      exact offlineFrom_update_le (hoffline other) fun _ => hstarted
  | offlineNoted device =>
      refine ⟨hfailures, htick, hstarted, fun other => ?_⟩
      exact offlineFrom_update_le (hoffline other) fun _ => le_refl _
  | backoffDropped device =>
      exact ⟨fun other => last_forget_le (hfailures other) device, htick, hstarted,
        hoffline⟩
  | backoffCleared =>
      refine ⟨fun device => ?_, htick, hstarted, hoffline⟩
      dsimp only
      rw [streakOf_concat]
      exact Nat.zero_le _
  | _ => exact ⟨hfailures, htick, hstarted, hoffline⟩

/-! ## What holds of every run -/

/-- The invariant of the node. -/
structure DialInv (redialInterval : ℕ) (dialer : Dialer) : Prop where
  once : dialer.DialsOnce
  scheduled : dialer.Scheduled
  timely : dialer.Timely redialInterval

theorem dialInv_start (redialInterval now : ℕ) (store : PeerStore) :
    (start now store).DialInv redialInterval where
  once := HeldOnce.nil
  scheduled := fun _ => rfl
  timely :=
    ⟨fun _ => Nat.zero_le _, Nat.le_add_right _ _, le_refl _, fun _ => le_refl _⟩

theorem dialInv_step (dialer : Dialer) (action : DialAction) (next : Dialer)
    (hinv : dialer.DialInv redialInterval)
    (hstep : (machine me redialInterval).step dialer action = some next) :
    next.DialInv redialInterval where
  once := dialsOnce_step dialer action next hinv.once hstep
  scheduled := scheduled_step dialer action next hinv.scheduled hstep
  timely := timely_step dialer action next hinv.timely hstep

theorem dialInv_run {now : ℕ} {store : PeerStore} {actions : List DialAction}
    {final : Dialer}
    (hrun : (machine me redialInterval).run (start now store) actions =
      some final) : final.DialInv redialInterval :=
  Machine.run_of_step_invariant dialInv_step (dialInv_start _ now store) hrun

/-- In every run the devices in `dialing` are those being dialed, and each of
them by one dial. -/
theorem one_dial_at_a_time {now : ℕ} {store : PeerStore}
    {actions : List DialAction} {final : Dialer}
    (hrun : (machine me redialInterval).run (start now store) actions =
      some final) :
    (heldKeys Dial.holds final.dials).Nodup ∧
      ∀ device, device ∈ final.dialing ↔
        ∃ dial ∈ final.dials, dial.holds = some device := by
  obtain ⟨honce, hmem⟩ := (dialInv_run hrun).once
  refine ⟨honce, fun device => ?_⟩
  rw [hmem, heldKeys, List.mem_filterMap]

/-- A paired device that answers on one address. -/
def server : Peer :=
  { deviceId := ⟨7⟩, name := "server", publicKey := 9, pairedAtMs := 1
    lastAddress := some (.v4 0x0a000007 4000) }

/-- A store that lists it. -/
def withServer : PeerStore := ⟨[server], []⟩

/-- It is found while it is dialed already. -/
def foundTwice : List DialAction :=
  [.tick, .spawnDue, .advance 0, .advance 0, .advance 0, .onDiscovered ⟨7⟩,
    .advance 1, .advance 1, .advance 1]

theorem one_dial_at_a_time_foundTwice :
    ∃ final, (machine ⟨3⟩ 5000).run (start 0 withServer) foundTwice = some final ∧
      (heldKeys Dial.holds final.dials).Nodup ∧
        ∀ device, device ∈ final.dialing ↔
          ∃ dial ∈ final.dials, dial.holds = some device := by
  obtain ⟨final, hrun⟩ : ∃ final,
      (machine ⟨3⟩ 5000).run (start 0 withServer) foundTwice = some final :=
    Option.isSome_iff_exists.mp (by decide)
  exact ⟨final, hrun, one_dial_at_a_time hrun⟩

end Dialer

end Cled.Lan
