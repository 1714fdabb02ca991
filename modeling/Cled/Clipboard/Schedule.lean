import Mathlib.Data.List.DropRight
import Mathlib.Order.Lattice
import Cled.Core.Machine

/-!
# When the clipboard is checked next

The loop of the clipboard service checks at regular intervals, and shortly after
a change notification.  Its schedule keeps only the next deadline.  From the
calls it was given, the deadline is the earlier of two: the one that the last
check has set, and the one of the first notification since.
-/

namespace Cled.Clipboard

open Cled.Core

/-- Nanoseconds of a clock that never goes back. -/
abbrev Instant := ℕ

/-- Nanoseconds. -/
abbrev Duration := ℕ

def notifyDebounce : Duration := 25000000

/-- `now + delay`.  It panics past `limit`, the last instant of the platform. -/
def Instant.add (now limit : Instant) (delay : Duration) : Option Instant :=
  if now + delay ≤ limit then some (now + delay) else none

structure Schedule where
  interval : Duration
  next : Instant
  deriving DecidableEq

/-- What the loop tells its schedule, and when. -/
inductive ScheduleCall where
  | notified (now : Instant)
  | checked (now : Instant)
  deriving DecidableEq

namespace Schedule

variable (limit : Instant)

def new (now : Instant) (interval : Duration) : Option Schedule :=
  (now.add limit interval).map fun next => { interval, next }

def nextCheck (schedule : Schedule) : Instant := schedule.next

def notified (schedule : Schedule) (now : Instant) : Option Schedule :=
  (now.add limit notifyDebounce).map fun due =>
    { schedule with next := min schedule.next due }

def checked (schedule : Schedule) (now : Instant) : Option Schedule :=
  (now.add limit schedule.interval).map fun next => { schedule with next }

def step (schedule : Schedule) : ScheduleCall → Option Schedule
  | .notified now => schedule.notified limit now
  | .checked now => schedule.checked limit now

def machine : Machine Schedule ScheduleCall := ⟨step limit⟩

/-- A new schedule after `calls`, or `none` if one of them panics. -/
def run (start : Instant) (interval : Duration) (calls : List ScheduleCall) :
    Option Schedule :=
  (new limit start interval).bind fun schedule => (machine limit).run schedule calls

end Schedule

/-! ## The deadlines of a history -/

namespace ScheduleCall

def now : ScheduleCall → Instant
  | .notified now => now
  | .checked now => now

def isNotified : ScheduleCall → Bool
  | .notified _ => true
  | .checked _ => false

/-- The instant the call adds up. -/
def due (interval : Duration) : ScheduleCall → Instant
  | .notified now => now + notifyDebounce
  | .checked now => now + interval

end ScheduleCall

/-- No call is earlier than the one before it. -/
def Ordered (calls : List ScheduleCall) : Prop :=
  (calls.map ScheduleCall.now).Pairwise (· ≤ ·)

instance (calls : List ScheduleCall) : Decidable (Ordered calls) :=
  inferInstanceAs (Decidable (List.Pairwise _ _))

/-- When the last check was, or the creation if there was none. -/
def lastCheck (start : Instant) (calls : List ScheduleCall) : Instant :=
  let checks := calls.filter fun call => !call.isNotified
  (checks.getLast?.map ScheduleCall.now).getD start

/-- The notifications since the last check. -/
def sinceLastCheck (calls : List ScheduleCall) : List Instant :=
  (calls.rtakeWhile ScheduleCall.isNotified).map ScheduleCall.now

/-- The earlier of the two deadlines. -/
def deadline (start : Instant) (interval : Duration) (calls : List ScheduleCall) :
    Instant :=
  match (sinceLastCheck calls).head? with
  | some first => min (lastCheck start calls + interval) (first + notifyDebounce)
  | none => lastCheck start calls + interval

/-- Every instant that is added up is one the platform has. -/
def Fits (limit start : Instant) (interval : Duration) (calls : List ScheduleCall) :
    Prop :=
  start + interval ≤ limit ∧ ∀ call ∈ calls, call.due interval ≤ limit

instance (limit start : Instant) (interval : Duration) (calls : List ScheduleCall) :
    Decidable (Fits limit start interval calls) :=
  inferInstanceAs (Decidable (_ ∧ _))

section History

variable (start : Instant) (interval : Duration) (calls : List ScheduleCall)

@[simp]
theorem lastCheck_notified (now : Instant) :
    lastCheck start (calls ++ [.notified now]) = lastCheck start calls := by
  simp [lastCheck, ScheduleCall.isNotified]

@[simp]
theorem lastCheck_checked (now : Instant) :
    lastCheck start (calls ++ [.checked now]) = now := by
  simp [lastCheck, ScheduleCall.isNotified, ScheduleCall.now]

@[simp]
theorem sinceLastCheck_notified (now : Instant) :
    sinceLastCheck (calls ++ [.notified now]) = sinceLastCheck calls ++ [now] := by
  rw [sinceLastCheck, List.rtakeWhile_concat_pos _ _ _ rfl, List.map_append]
  rfl

@[simp]
theorem sinceLastCheck_checked (now : Instant) :
    sinceLastCheck (calls ++ [.checked now]) = [] := by
  rw [sinceLastCheck, List.rtakeWhile_concat_neg _ _ _ Bool.false_ne_true]
  rfl

theorem deadline_checked (now : Instant) :
    deadline start interval (calls ++ [.checked now]) = now + interval := by
  simp [deadline]

/-- More notifications are all that a burst adds. -/
theorem history_burst (burst : List Instant) :
    lastCheck start (calls ++ burst.map .notified) = lastCheck start calls ∧
      sinceLastCheck (calls ++ burst.map .notified) =
        sinceLastCheck calls ++ burst := by
  induction burst using List.reverseRecOn with
  | nil => simp
  | append_singleton burst now ih =>
      rw [List.map_append, List.map_singleton, ← List.append_assoc,
        lastCheck_notified, sinceLastCheck_notified, ih.1, ih.2, List.append_assoc]
      exact ⟨rfl, rfl⟩

variable {calls}

theorem mem_of_mem_sinceLastCheck {instant : Instant}
    (hmem : instant ∈ sinceLastCheck calls) :
    instant ∈ calls.map ScheduleCall.now :=
  ((List.rtakeWhile_suffix _ _).map ScheduleCall.now).subset hmem

/-- Further notifications leave a deadline that a notification has set. -/
theorem deadline_burst_of_ne_nil (burst : List Instant)
    (hpending : sinceLastCheck calls ≠ []) :
    deadline start interval (calls ++ burst.map .notified) =
      deadline start interval calls := by
  obtain ⟨hlast, hsince⟩ := history_burst start calls burst
  rw [deadline, deadline, hlast, hsince, List.head?_append_of_ne_nil _ hpending]

theorem deadline_burst_le (burst : List Instant) :
    deadline start interval (calls ++ burst.map .notified) ≤
      deadline start interval calls := by
  by_cases hpending : sinceLastCheck calls = []
  · obtain ⟨hlast, hsince⟩ := history_burst start calls burst
    rw [deadline, deadline, hlast, hsince, hpending]
    cases burst with
    | nil => exact le_rfl
    | cons first burst => exact min_le_left _ _
  · exact (deadline_burst_of_ne_nil start interval burst hpending).le

/-- A notification can only bring the deadline forward, and only the first one
since the last check does. -/
theorem deadline_notified {now : Instant}
    (hordered : Ordered (calls ++ [.notified now])) :
    deadline start interval (calls ++ [.notified now]) =
      min (deadline start interval calls) (now + notifyDebounce) := by
  rw [deadline, deadline, lastCheck_notified, sinceLastCheck_notified]
  cases hsince : sinceLastCheck calls with
  | nil => rfl
  | cons first others =>
      have hfirst : first ∈ calls.map ScheduleCall.now := by
        apply mem_of_mem_sinceLastCheck
        rw [hsince]
        exact List.mem_cons_self
      have hle : first ≤ now := by
        rw [Ordered, List.map_append, List.pairwise_append] at hordered
        exact hordered.2.2 first hfirst now List.mem_cons_self
      have hdue : first + notifyDebounce ≤ now + notifyDebounce :=
        Nat.add_le_add_right hle notifyDebounce
      simp only [List.cons_append, List.head?_cons]
      rw [min_assoc, min_eq_left hdue]

end History

/-! ## Runs -/

namespace Schedule

variable (limit start : Instant) (interval : Duration) (calls : List ScheduleCall)

/-- Without the panic. -/
def after (schedule : Schedule) (call : ScheduleCall) : Schedule :=
  match call with
  | .notified now =>
      { schedule with next := min schedule.next (now + notifyDebounce) }
  | .checked now => { schedule with next := now + schedule.interval }

theorem step_eq (schedule : Schedule) (call : ScheduleCall) :
    schedule.step limit call =
      if call.due schedule.interval ≤ limit then some (schedule.after call)
      else none := by
  cases call with
  | notified now =>
      rw [step, notified, Instant.add, ScheduleCall.due]
      split <;> rfl
  | checked now =>
      rw [step, checked, Instant.add, ScheduleCall.due]
      split <;> rfl

theorem run_concat (call : ScheduleCall) :
    run limit start interval (calls ++ [call]) =
      (run limit start interval calls).bind fun schedule =>
        schedule.step limit call := by
  simp only [run, Machine.run_append, Option.bind_assoc]
  congr 1
  funext schedule
  congr 1
  funext next
  change (next.step limit call).bind some = next.step limit call
  exact Option.bind_fun_some _

variable {calls}

/-- One more call moves the deadline as it moves the deadline of the history. -/
theorem after_deadline {call : ScheduleCall}
    (hordered : Ordered (calls ++ [call])) :
    after { interval, next := deadline start interval calls } call =
      { interval, next := deadline start interval (calls ++ [call]) } := by
  cases call with
  | notified now => rw [after, deadline_notified start interval hordered]
  | checked now => rw [after, deadline_checked]

theorem ordered_of_append {front back : List ScheduleCall}
    (hordered : Ordered (front ++ back)) : Ordered front := by
  rw [Ordered, List.map_append] at hordered
  exact (List.pairwise_append.mp hordered).1

/-- The schedule keeps the earlier of the two deadlines, unless a call has
panicked. -/
theorem run_eq (hordered : Ordered calls) :
    run limit start interval calls =
      if Fits limit start interval calls then
        some { interval, next := deadline start interval calls }
      else none := by
  induction calls using List.reverseRecOn with
  | nil =>
      rw [run, new, Instant.add]
      by_cases hfits : start + interval ≤ limit
      · simp [Fits, hfits, deadline, sinceLastCheck, lastCheck]
      · simp [Fits, hfits]
  | append_singleton calls call ih =>
      rw [run_concat, ih (ordered_of_append hordered)]
      have hfits : Fits limit start interval (calls ++ [call]) ↔
          Fits limit start interval calls ∧ call.due interval ≤ limit := by
        simp only [Fits, List.forall_mem_append, List.forall_mem_singleton,
          and_assoc]
      by_cases hbefore : Fits limit start interval calls
      · rw [if_pos hbefore, Option.bind_some, step_eq, after_deadline _ _ hordered]
        simp only [hfits, hbefore, true_and]
      · rw [if_neg hbefore, if_neg fun h => hbefore (hfits.mp h).1]
        rfl

variable {limit start interval} in
theorem run_eq_some_iff (hordered : Ordered calls) {schedule : Schedule} :
    run limit start interval calls = some schedule ↔
      Fits limit start interval calls ∧
        schedule = { interval, next := deadline start interval calls } := by
  rw [run_eq limit start interval hordered, Option.ite_none_right_eq_some,
    Option.some.injEq]
  exact and_congr_right fun _ => eq_comm

/-- Unless a sum overflows, the next check is due at the earlier of both
deadlines.  Notifications never delay it; once there is one, more of them change
nothing, and after the check that follows it is as if there had been none. -/
theorem nextCheck_eq_deadline (hordered : Ordered calls) :
    ((run limit start interval calls).map nextCheck =
        if Fits limit start interval calls then some (deadline start interval calls)
        else none) ∧
      (∀ front (burst : List Instant), calls = front ++ burst.map .notified →
        ∀ before ∈ run limit start interval front,
          ∀ after ∈ run limit start interval calls,
            after.nextCheck ≤ before.nextCheck ∧
              (sinceLastCheck front ≠ [] → after = before)) ∧
      (∀ front (burst : List Instant) now,
        calls = front ++ burst.map .notified ++ [.checked now] →
        ∀ after ∈ run limit start interval calls,
          run limit start interval (front ++ [.checked now]) = some after ∧
            after.nextCheck = now + interval) := by
  refine ⟨?_, ?_, ?_⟩
  · rw [run_eq limit start interval hordered]
    split <;> rfl
  · intro front burst hcalls before hbefore after hafter
    have hfront : Ordered front := ordered_of_append (hcalls ▸ hordered)
    obtain ⟨-, hbefore⟩ := (run_eq_some_iff hfront).mp hbefore
    obtain ⟨-, hafter⟩ := (run_eq_some_iff hordered).mp hafter
    rw [hafter, hbefore, hcalls]
    refine ⟨deadline_burst_le start interval burst, fun hpending => ?_⟩
    rw [deadline_burst_of_ne_nil start interval burst hpending]
  · intro front burst now hcalls after hafter
    obtain ⟨hfits, hafter⟩ := (run_eq_some_iff hordered).mp hafter
    rw [hcalls, deadline_checked] at hafter
    have hsublist : (front ++ [ScheduleCall.checked now]).Sublist calls := by
      rw [hcalls]
      exact (List.sublist_append_left _ _).append_right _
    have hordered' : Ordered (front ++ [.checked now]) :=
      hordered.sublist (hsublist.map _)
    refine ⟨(run_eq_some_iff hordered').mpr ⟨?_, ?_⟩, ?_⟩
    · exact ⟨hfits.1, fun call hcall => hfits.2 call (hsublist.subset hcall)⟩
    · rw [hafter, deadline_checked]
    · rw [hafter, nextCheck]

/-- Three notifications in a burst, the deadline is that of the first. -/
theorem nextCheck_eq_deadline_burst :
    let calls : List ScheduleCall :=
      [.notified 0, .notified 5000000, .notified 10000000]
    Ordered calls ∧
      (run 10000000000 0 5000000000 calls).map nextCheck = some notifyDebounce := by
  have hordered : Ordered [.notified 0, .notified 5000000, .notified 10000000] := by
    decide
  exact ⟨hordered, (nextCheck_eq_deadline 10000000000 0 5000000000 hordered).1⟩

/-- A notification does not delay an earlier check. -/
example :
    (run 10000000000 0 10000000 [.notified 5000000]).map nextCheck =
      some 10000000 := by
  decide

end Schedule

end Cled.Clipboard
