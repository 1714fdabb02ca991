import Mathlib.Data.List.Basic
import Mathlib.Data.List.DropRight
import Mathlib.Data.List.Infix
import Cled.Core.Machine
import Cled.Desktop.Control

/-!
# The connection task

The task connects to the relay as long as it should, and connects again when a
connection ends: after a growing delay while connecting fails, and once with a
fresh token when the token was rejected.  Both counters start afresh when a
change is noticed while a connection is there or none is tried any more, but not
when it is noticed anywhere else.
-/

namespace Cled.Desktop

open Cled.Core

/-- In seconds. -/
def minRetry : ℕ := 1

def maxRetry : ℕ := 30

theorem minRetry_le_maxRetry : minRetry ≤ maxRetry := by decide

inductive EndKind where
  /-- Failed before registering: retry with backoff. -/
  | failed
  /-- Dropped after registering: retry soon. -/
  | dropped
  /-- Another connection took over this device. -/
  | replaced
  /-- The relay rejected the access token. -/
  | unauthorized
  /-- No access token: the sign-in is gone. -/
  | signedOut
  deriving DecidableEq

/-- How a connection ended. -/
structure Ended where
  error : String
  kind : EndKind
  deriving DecidableEq

inductive RelayStatus where
  | off
  | needsSignIn
  | connecting
  | connected
  | failed (error : String) (retryInSecs : Option ℕ)
  deriving DecidableEq

/-- Where the task is.  Access tokens are told apart by numbers. -/
inductive Phase where
  /-- At the top of its loop. -/
  | top
  /-- There is nothing to connect to. -/
  | idle
  /-- A connection, from connecting until it ends. -/
  | session (token : Option ℕ)
  /-- The access token of a connection that was rejected is to be discarded. -/
  | discarding (token : Option ℕ) (error : String)
  /-- It waits for a change, or for this long. -/
  | waiting (kind : EndKind) (retryIn : Option ℕ)
  deriving DecidableEq

/-- The access token that is in use. -/
def Phase.token : Phase → Option ℕ
  | .session token | .discarding token _ => token
  | .top | .idle | .waiting _ _ => none

/-- What the task does about the outside, to be spoken about. -/
inductive Event where
  /-- It notices a change of the desired state. -/
  | changed
  /-- A connection with this token ended, and it waits this long. -/
  | ended (kind : EndKind) (token retryIn : Option ℕ)
  deriving DecidableEq

structure RelayTask where
  control : Control
  /-- The version of the desired state it has seen. -/
  seen : ℕ
  phase : Phase
  retry : ℕ
  /-- Rejections in a row. -/
  rejections : ℕ
  status : RelayStatus
  /-- The access token that is kept. -/
  token : Option ℕ
  /-- How many access tokens there have been. -/
  fetched : ℕ
  log : List Event

namespace RelayTask

inductive Move where
  /-- The settings or the sign-in state change. -/
  | change (inputs : Inputs)
  /-- A sign-in brings an access token. -/
  | newToken
  | next
  /-- The access token is there: the kept one, or a fresh one. -/
  | fetch (kept : Bool)
  | register
  | ends (ended : Ended)
  /-- A change is noticed. -/
  | notice
  | discard
  | timeUp
  deriving DecidableEq

def start (format : UrlFormat) (inputs : Inputs) (token : Option ℕ) :
    RelayTask where
  control := .start format inputs
  seen := 0
  phase := .top
  retry := minRetry
  rejections := 0
  status := .off
  token := token
  fetched := token.getD 0
  log := []

/-- A change has not been noticed. -/
def Unseen (task : RelayTask) : Prop := task.seen ≠ task.control.version

instance (task : RelayTask) : Decidable task.Unseen :=
  inferInstanceAs (Decidable (_ ≠ _))

/-- `desired.borrow_and_update` or `desired.changed`. -/
def see (task : RelayTask) : RelayTask :=
  { task with
    seen := task.control.version
    log := if task.Unseen then task.log ++ [.changed] else task.log }

/-- Starts over with the desired state. -/
def next (task : RelayTask) : Option RelayTask :=
  if task.phase = .top then
    match task.control.desired with
    | .off => some { task.see with phase := .idle, status := .off }
    | .needsSignIn => some { task.see with phase := .idle, status := .needsSignIn }
    | .connect _ => some { task.see with phase := .session none, status := .connecting }
  else none

/-- `access_token`. -/
def fetch (task : RelayTask) (kept : Bool) : Option RelayTask :=
  if task.phase = .session none then
    if kept then
      task.token.map fun token => { task with phase := .session (some token) }
    else
      some { task with
        phase := .session (some (task.fetched + 1))
        token := some (task.fetched + 1)
        fetched := task.fetched + 1 }
  else none

/-- The relay confirms the registration. -/
def register (task : RelayTask) : Option RelayTask :=
  match task.phase with
  | .session (some _) => some { task with status := .connected }
  | _ => none

/-- A connection ended, and the task waits. -/
def wait (task : RelayTask) (ended : Ended) (token retryIn : Option ℕ) :
    RelayTask :=
  let error :=
    if ended.kind = .unauthorized ∧ retryIn = none then
      "The relay didn't accept your sign-in. Sign out and sign in again."
    else ended.error
  { task with
    phase := .waiting ended.kind retryIn
    status := .failed error retryIn
    log := task.log ++ [.ended ended.kind token retryIn] }

/-- What the task does when a connection ends. -/
def onEnded (format : UrlFormat) (task : RelayTask) (token : Option ℕ)
    (ended : Ended) : RelayTask :=
  match ended.kind with
  | .signedOut =>
      { task with
        control := task.control.setSignedIn format false
        phase := .top
        log := task.log ++ [.ended .signedOut token none] }
  | .unauthorized =>
      if task.rejections = 0 then
        { task with
          rejections := task.rejections + 1
          phase := .discarding token ended.error }
      else task.wait ended token none
  | .replaced => task.wait ended token none
  | .dropped =>
      { task with rejections := 0, retry := minRetry }.wait ended token
        (some minRetry)
  | .failed => task.wait ended token (some task.retry)

/-- How far a connection gets before it ends so. -/
def canEnd : EndKind → Option ℕ → Bool
  | .failed, _ => true
  | .signedOut, token => token.isNone
  | .dropped, token => token.isSome
  | .replaced, token => token.isSome
  | .unauthorized, token => token.isSome

def ends (format : UrlFormat) (task : RelayTask) (ended : Ended) :
    Option RelayTask :=
  match task.phase with
  | .session token =>
      if canEnd ended.kind token then some (task.onEnded format token ended)
      else none
  | _ => none

/-- `discard_access_token` returns. -/
def discard (task : RelayTask) : Option RelayTask :=
  match task.phase with
  | .discarding token error =>
      some ({ task with token := none }.wait ⟨error, .unauthorized⟩ token (some 0))
  | _ => none

/-- The wait after a connection is over. -/
def resume (task : RelayTask) (kind : EndKind) (retryIn : Option ℕ) : RelayTask :=
  let retry := if kind = .failed then min (task.retry * 2) maxRetry else task.retry
  if retryIn = none then
    { task with phase := .top, retry := minRetry, rejections := 0 }
  else { task with phase := .top, retry }

def notice (task : RelayTask) : Option RelayTask :=
  if task.Unseen then
    match task.phase with
    | .idle => some { task.see with phase := .top }
    | .session _ =>
        some { task.see with phase := .top, retry := minRetry, rejections := 0 }
    | .waiting kind retryIn => some (task.see.resume kind retryIn)
    | .top | .discarding _ _ => none
  else none

def timeUp (task : RelayTask) : Option RelayTask :=
  match task.phase with
  | .waiting kind (some delay) => some (task.resume kind (some delay))
  | _ => none

def machine (format : UrlFormat) : Machine RelayTask Move where
  step task
    | .change inputs =>
        some { task with control := task.control.update format fun _ => inputs }
    | .newToken =>
        some { task with
          token := some (task.fetched + 1)
          fetched := task.fetched + 1 }
    | .next => task.next
    | .fetch kept => task.fetch kept
    | .register => task.register
    | .ends ended => task.ends format ended
    | .notice => task.notice
    | .discard => task.discard
    | .timeUp => task.timeUp

/-! ## What a run is to look like -/

/-- What happened since a change was noticed. -/
def sinceChange (log : List Event) : List Event := log.rtakeWhile (· ≠ .changed)

/-- The task did the right thing about this event after those. -/
def Fine (before : List Event) : Event → Prop
  | .changed => True
  | .ended kind token retryIn =>
      -- The first failure is retried soon, and every one within the bounds.
      (kind = .failed → ∃ delay, retryIn = some delay ∧
        minRetry ≤ delay ∧ delay ≤ maxRetry ∧
        ((∀ token retryIn, .ended .failed token retryIn ∉ sinceChange before) →
          delay = minRetry)) ∧
      -- The first rejection is retried at once.
      (kind = .unauthorized →
        (∀ token retryIn,
          .ended .unauthorized token retryIn ∉ sinceChange before) →
        retryIn = some 0) ∧
      -- The task gives up on the second of two rejections in a row.
      (kind = .unauthorized → retryIn = none →
        ∃ token, before.getLast? = some (.ended .unauthorized token (some 0))) ∧
      -- After a rejection it uses a token that was fetched later.
      ∀ used rejected, token = some used →
        .ended .unauthorized (some rejected) (some 0) ∈ before → rejected < used

def StartsAfresh (log : List Event) : Prop :=
  ∀ before event, before ++ [event] <+: log → Fine before event

theorem startsAfresh_nil : StartsAfresh [] := by
  intro before event hstart
  exact absurd (List.prefix_nil.mp hstart) (List.concat_ne_nil event before)

theorem StartsAfresh.concat {log : List Event} (hlog : StartsAfresh log)
    {event : Event} (hfine : Fine log event) : StartsAfresh (log ++ [event]) := by
  intro before other hstart
  rcases List.prefix_concat_iff.mp hstart with heq | hstart
  · obtain ⟨rfl, hlast⟩ := List.append_inj' heq rfl
    obtain ⟨rfl, -⟩ := List.cons.inj hlast
    exact hfine
  · exact hlog before other hstart

/-! ## The two counters -/

/-- Without a failure since the last change, the next one is retried soon. -/
def Pace (log : List Event) (retry : ℕ) : Prop :=
  (∀ token retryIn, .ended .failed token retryIn ∉ sinceChange log) →
    retry = minRetry

/-- What is counted as rejected is the last thing that happened. -/
def Streak (log : List Event) (rejections : ℕ) : Prop :=
  rejections = 0 ∨
    ∃ token, log.getLast? = some (.ended .unauthorized token (some 0))

section Counters

variable {log : List Event} {kind : EndKind} {token retryIn : Option ℕ}

theorem sinceChange_changed (log : List Event) :
    sinceChange (log ++ [.changed]) = [] :=
  List.rtakeWhile_concat_neg _ _ _ (by simp)

theorem sinceChange_ended (log : List Event) (kind : EndKind)
    (token retryIn : Option ℕ) :
    sinceChange (log ++ [.ended kind token retryIn]) =
      sinceChange log ++ [.ended kind token retryIn] :=
  List.rtakeWhile_concat_pos _ _ _ (by simp)

/-- What happened last happened since the last change. -/
theorem mem_sinceChange_of_last
    (hlast : log.getLast? = some (.ended kind token retryIn)) :
    .ended kind token retryIn ∈ sinceChange log := by
  obtain ⟨before, rfl⟩ := List.getLast?_eq_some_iff.mp hlast
  rw [sinceChange_ended]
  exact List.mem_append_right _ List.mem_cons_self

theorem Pace.minRetry (log : List Event) : Pace log minRetry := fun _ => rfl

theorem Pace.ended {retry : ℕ} (hpace : Pace log retry) :
    Pace (log ++ [.ended kind token retryIn]) retry := by
  intro hnone
  rw [sinceChange_ended] at hnone
  exact hpace fun token retryIn hmem =>
    hnone token retryIn (List.mem_append_left _ hmem)

theorem Pace.failed (log : List Event) (token retryIn : Option ℕ) (retry : ℕ) :
    Pace (log ++ [.ended .failed token retryIn]) retry := by
  intro hnone
  refine absurd ?_ (hnone token retryIn)
  exact mem_sinceChange_of_last List.getLast?_concat

end Counters

/-- Both counters are as at the start. -/
def AtStart (task : RelayTask) : Prop :=
  task.retry = minRetry ∧ task.rejections = 0

instance (task : RelayTask) : Decidable task.AtStart :=
  inferInstanceAs (Decidable (_ ∧ _))

/-- Where a change that is noticed leaves both counters as at the start. -/
def NoticesAfresh (task : RelayTask) : Phase → Prop
  | .idle => task.AtStart
  | .waiting kind retryIn => retryIn = none ∨ kind = .dropped
  | .top | .session _ | .discarding _ _ => True

/-- Changes are noticed where both counters are or will be as at the start, and a
rejection is followed by a connection that gets as far as the relay. -/
def Unhurried (task : RelayTask) : Move → Prop
  | .next => task.Unseen → task.AtStart
  | .notice => task.NoticesAfresh task.phase
  | .ends ended =>
      ended.kind = .failed ∨ ended.kind = .signedOut → task.rejections = 0
  | .change _ | .newToken | .fetch _ | .register | .discard | .timeUp => True

instance (task : RelayTask) :
    ∀ phase : Phase, Decidable (task.NoticesAfresh phase)
  | .idle => inferInstanceAs (Decidable (_ ∧ _))
  | .waiting _ _ => inferInstanceAs (Decidable (_ ∨ _))
  | .top => .isTrue trivial
  | .session _ => .isTrue trivial
  | .discarding _ _ => .isTrue trivial

instance (task : RelayTask) : ∀ move : Move, Decidable (task.Unhurried move)
  | .next => inferInstanceAs (Decidable (_ → _))
  | .notice => inferInstanceAs (Decidable (task.NoticesAfresh task.phase))
  | .ends _ => inferInstanceAs (Decidable (_ ∨ _ → _))
  | .change _ => .isTrue trivial
  | .newToken => .isTrue trivial
  | .fetch _ => .isTrue trivial
  | .register => .isTrue trivial
  | .discard => .isTrue trivial
  | .timeUp => .isTrue trivial

/-- What the counters say in each phase. -/
def Counted (task : RelayTask) : Prop :=
  match task.phase with
  | .top | .idle | .session _ =>
      Pace task.log task.retry ∧ Streak task.log task.rejections
  | .discarding _ _ => Pace task.log task.retry
  | .waiting kind (some delay) =>
      Pace task.log task.retry ∧ Streak task.log task.rejections ∧
        (kind = .dropped → task.AtStart) ∧
        ∃ token, task.log.getLast? = some (.ended kind token (some delay))
  | .waiting _ none => True

/-- Tokens in use were fetched after every token that was rejected. -/
structure Tokens (log : List Event) (phase : Phase) (token : Option ℕ)
    (fetched : ℕ) : Prop where
  rejected : ∀ rejected,
    .ended .unauthorized (some rejected) (some 0) ∈ log → rejected ≤ fetched
  kept : ∀ kept, token = some kept → kept ≤ fetched ∧ ∀ rejected,
    .ended .unauthorized (some rejected) (some 0) ∈ log → rejected < kept
  used : ∀ used, phase.token = some used → used ≤ fetched ∧ ∀ rejected,
    .ended .unauthorized (some rejected) (some 0) ∈ log → rejected < used

structure Inv (task : RelayTask) : Prop where
  afresh : StartsAfresh task.log
  counted : task.Counted
  tokens : Tokens task.log task.phase task.token task.fetched

/-! ### The delay -/

/-- The next delay is within its bounds, and so was each one after a failure. -/
structure Bounded (task : RelayTask) : Prop where
  least : minRetry ≤ task.retry
  most : task.retry ≤ maxRetry
  waits : ∀ token retryIn, .ended .failed token retryIn ∈ task.log →
    ∃ delay, retryIn = some delay ∧ minRetry ≤ delay ∧ delay ≤ maxRetry

/-- What a step does to the delay. -/
def Delays (task task' : RelayTask) : Prop :=
  task'.retry = task.retry ∨ task'.retry = minRetry ∨
    task'.retry = min (task.retry * 2) maxRetry

/-- What a step adds to what happened. -/
def Logs (task task' : RelayTask) : Prop :=
  task'.log = task.log ∨ ∃ event, task'.log = task.log ++ [event] ∧
    ∀ token retryIn, event = .ended .failed token retryIn →
      retryIn = some task.retry

section Delay

variable {format : UrlFormat} {task task' : RelayTask}

theorem logs_see (task : RelayTask) : Logs task task.see := by
  by_cases hunseen : task.Unseen
  · exact .inr ⟨.changed, if_pos hunseen, nofun⟩
  · exact .inl (if_neg hunseen)

theorem delays_resume (task : RelayTask) (kind : EndKind) (retryIn : Option ℕ) :
    Delays task (task.resume kind retryIn) := by
  rw [resume]
  split
  · exact .inr (.inl rfl)
  · by_cases hfailed : kind = .failed
    · exact .inr (.inr (if_pos hfailed))
    · exact .inl (if_neg hfailed)

theorem resume_log (task : RelayTask) (kind : EndKind) (retryIn : Option ℕ) :
    (task.resume kind retryIn).log = task.log := by
  rw [resume]
  split <;> rfl

theorem delays_and_logs_ends {ended : Ended}
    (hstep : task.ends format ended = some task') :
    Delays task task' ∧ Logs task task' := by
  rw [RelayTask.ends] at hstep
  split at hstep
  on_goal 2 => cases hstep
  split at hstep
  on_goal 2 => cases hstep
  obtain rfl := Option.some.inj hstep
  obtain ⟨error, kind⟩ := ended
  cases kind with
  | failed =>
      refine ⟨.inl rfl, .inr ⟨_, rfl, ?_⟩⟩
      rintro _ _ ⟨⟩
      rfl
  | dropped => exact ⟨.inr (.inl rfl), .inr ⟨_, rfl, nofun⟩⟩
  | replaced | signedOut => exact ⟨.inl rfl, .inr ⟨_, rfl, nofun⟩⟩
  | unauthorized =>
      dsimp only [onEnded]
      split
      · exact ⟨.inl rfl, .inl rfl⟩
      · exact ⟨.inl rfl, .inr ⟨_, rfl, nofun⟩⟩

theorem delays_and_logs {move : Move}
    (hstep : (machine format).step task move = some task') :
    Delays task task' ∧ Logs task task' := by
  cases move with
  | change | newToken =>
      obtain rfl := Option.some.inj hstep
      exact ⟨.inl rfl, .inl rfl⟩
  | next =>
      dsimp only [machine, RelayTask.next] at hstep
      split at hstep
      · split at hstep
        all_goals
          obtain rfl := Option.some.inj hstep
          exact ⟨.inl rfl, logs_see task⟩
      · cases hstep
  | fetch kept =>
      dsimp only [machine, fetch] at hstep
      split at hstep
      · split at hstep
        · obtain ⟨token, -, rfl⟩ := Option.map_eq_some_iff.mp hstep
          exact ⟨.inl rfl, .inl rfl⟩
        · obtain rfl := Option.some.inj hstep
          exact ⟨.inl rfl, .inl rfl⟩
      · cases hstep
  | register =>
      dsimp only [machine, register] at hstep
      split at hstep
      · obtain rfl := Option.some.inj hstep
        exact ⟨.inl rfl, .inl rfl⟩
      · cases hstep
  | ends => exact delays_and_logs_ends hstep
  | notice =>
      dsimp only [machine, RelayTask.notice] at hstep
      split at hstep
      on_goal 2 => cases hstep
      split at hstep
      · obtain rfl := Option.some.inj hstep
        exact ⟨.inl rfl, logs_see task⟩
      · obtain rfl := Option.some.inj hstep
        exact ⟨.inr (.inl rfl), logs_see task⟩
      · next kind retryIn _ =>
        obtain rfl := Option.some.inj hstep
        have hlogs := logs_see task
        rw [Logs, ← resume_log task.see kind retryIn] at hlogs
        exact ⟨delays_resume task.see kind retryIn, hlogs⟩
      · cases hstep
      · cases hstep
  | discard =>
      dsimp only [machine, RelayTask.discard] at hstep
      split at hstep
      · obtain rfl := Option.some.inj hstep
        exact ⟨.inl rfl, .inr ⟨_, rfl, nofun⟩⟩
      · cases hstep
  | timeUp =>
      dsimp only [machine, RelayTask.timeUp] at hstep
      split at hstep
      · next kind delay _ =>
        obtain rfl := Option.some.inj hstep
        exact ⟨delays_resume task kind _, .inl (resume_log task kind _)⟩
      · cases hstep

theorem Bounded.step (task : RelayTask) (move : Move) (task' : RelayTask)
    (hbounded : task.Bounded)
    (hstep : (machine format).step task move = some task') : task'.Bounded := by
  obtain ⟨hdelays, hlogs⟩ := delays_and_logs hstep
  have hretry : minRetry ≤ task'.retry ∧ task'.retry ≤ maxRetry := by
    have hleast := hbounded.least
    have hmost := hbounded.most
    rw [Delays] at hdelays
    dsimp only [minRetry, maxRetry] at hdelays hleast hmost ⊢
    omega
  refine ⟨hretry.1, hretry.2, fun token retryIn hmem => ?_⟩
  rcases hlogs with hsame | ⟨event, hlog, hevent⟩
  · exact hbounded.waits token retryIn (hsame ▸ hmem)
  · rw [hlog] at hmem
    rcases List.mem_append.mp hmem with hold | hnew
    · exact hbounded.waits token retryIn hold
    · exact ⟨task.retry, hevent token retryIn (List.mem_singleton.mp hnew).symm,
        hbounded.least, hbounded.most⟩

theorem bounded_start (format : UrlFormat) (inputs : Inputs)
    (token : Option ℕ) : (start format inputs token).Bounded :=
  ⟨Nat.le_refl _, minRetry_le_maxRetry, nofun⟩

end Delay

/-! ### Noticing a change -/

section See

variable {task : RelayTask} {phase : Phase} {token : Option ℕ} {fetched : ℕ}

theorem see_of_unseen (hunseen : task.Unseen) :
    task.see.log = task.log ++ [.changed] :=
  if_pos hunseen

theorem see_of_seen (hseen : ¬ task.Unseen) : task.see.log = task.log :=
  if_neg hseen

theorem StartsAfresh.see (hlog : StartsAfresh task.log) :
    StartsAfresh task.see.log := by
  by_cases hunseen : task.Unseen
  · rw [see_of_unseen hunseen]
    exact hlog.concat trivial
  · rw [see_of_seen hunseen]
    exact hlog

theorem mem_log_of_mem_see {kind : EndKind} {used retryIn : Option ℕ}
    (hmem : .ended kind used retryIn ∈ task.see.log) :
    .ended kind used retryIn ∈ task.log := by
  by_cases hunseen : task.Unseen
  · rw [see_of_unseen hunseen] at hmem
    rcases List.mem_append.mp hmem with hold | hnew
    · exact hold
    · cases List.mem_singleton.mp hnew
  · rwa [see_of_seen hunseen] at hmem

/-- Fewer tokens are in use, and no more were rejected. -/
theorem Tokens.mono {log log' : List Event} {phase' : Phase}
    (htokens : Tokens log phase token fetched)
    (hlog : ∀ rejected,
      .ended .unauthorized (some rejected) (some 0) ∈ log' →
        .ended .unauthorized (some rejected) (some 0) ∈ log)
    (hphase : phase'.token = phase.token ∨ phase'.token = none) :
    Tokens log' phase' token fetched where
  rejected rejected hmem := htokens.rejected rejected (hlog rejected hmem)
  kept kept hkept :=
    ⟨(htokens.kept kept hkept).1, fun rejected hmem =>
      (htokens.kept kept hkept).2 rejected (hlog rejected hmem)⟩
  used used hused := by
    rcases hphase with hsame | hnone
    · obtain ⟨hle, hless⟩ := htokens.used used (hsame ▸ hused)
      exact ⟨hle, fun rejected hmem => hless rejected (hlog rejected hmem)⟩
    · rw [hnone] at hused
      cases hused

/-- A change noticed at the start of both counters leaves them so. -/
theorem pace_see (hpace : Pace task.log task.retry)
    (hstart : task.Unseen → task.AtStart) : Pace task.see.log task.retry := by
  by_cases hunseen : task.Unseen
  · rw [(hstart hunseen).1]
    exact .minRetry _
  · rwa [see_of_seen hunseen]

theorem streak_see (hstreak : Streak task.log task.rejections)
    (hstart : task.Unseen → task.AtStart) :
    Streak task.see.log task.rejections := by
  by_cases hunseen : task.Unseen
  · exact .inl (hstart hunseen).2
  · rwa [see_of_seen hunseen]

end See

/-! ### What each step keeps -/

section Steps

variable {format : UrlFormat} {task task' : RelayTask}

theorem Inv.next (hinv : Inv task) (hcalm : task.Unseen → task.AtStart)
    (hstep : task.next = some task') : Inv task' := by
  rw [RelayTask.next] at hstep
  split at hstep
  · next htop =>
    have hcounted := hinv.counted
    rw [Counted, htop] at hcounted
    have hpace := pace_see hcounted.1 hcalm
    have hstreak := streak_see hcounted.2 hcalm
    have htokens (phase : Phase) (hnone : phase.token = none) :
        Tokens task.see.log phase task.token task.fetched :=
      hinv.tokens.mono (fun _ => mem_log_of_mem_see) (.inr hnone)
    split at hstep
    all_goals
      obtain rfl := Option.some.inj hstep
      exact ⟨hinv.afresh.see, ⟨hpace, hstreak⟩, htokens _ rfl⟩
  · cases hstep

theorem Inv.fetch {kept : Bool} (hinv : Inv task)
    (hstep : task.fetch kept = some task') : Inv task' := by
  rw [RelayTask.fetch] at hstep
  split at hstep
  · next hsession =>
    have hcounted := hinv.counted
    rw [Counted, hsession] at hcounted
    have htokens := hinv.tokens
    split at hstep
    · obtain ⟨token, htoken, rfl⟩ := Option.map_eq_some_iff.mp hstep
      refine ⟨hinv.afresh, hcounted, htokens.rejected, htokens.kept, ?_⟩
      rintro _ ⟨rfl⟩
      exact htokens.kept token htoken
    · obtain rfl := Option.some.inj hstep
      have hnew (rejected : ℕ)
          (hmem : .ended .unauthorized (some rejected) (some 0) ∈ task.log) :
          rejected < task.fetched + 1 :=
        Nat.lt_succ_of_le (htokens.rejected rejected hmem)
      refine ⟨hinv.afresh, hcounted, ?_, ?_, ?_⟩
      · exact fun rejected hmem => Nat.le_of_lt (hnew rejected hmem)
      · rintro _ ⟨rfl⟩
        exact ⟨Nat.le_refl _, hnew⟩
      · rintro _ ⟨rfl⟩
        exact ⟨Nat.le_refl _, hnew⟩
  · cases hstep

theorem Inv.newToken (hinv : Inv task) :
    Inv { task with
      token := some (task.fetched + 1), fetched := task.fetched + 1 } := by
  have htokens := hinv.tokens
  have hnew (rejected : ℕ)
      (hmem : .ended .unauthorized (some rejected) (some 0) ∈ task.log) :
      rejected < task.fetched + 1 :=
    Nat.lt_succ_of_le (htokens.rejected rejected hmem)
  refine ⟨hinv.afresh, hinv.counted, ?_, ?_, ?_⟩
  · exact fun rejected hmem => Nat.le_of_lt (hnew rejected hmem)
  · rintro _ ⟨rfl⟩
    exact ⟨Nat.le_refl _, hnew⟩
  · intro used hused
    obtain ⟨hle, hless⟩ := htokens.used used hused
    exact ⟨Nat.le_succ_of_le hle, hless⟩

/-- A connection that was not rejected for the first time ended. -/
theorem Tokens.ended {log : List Event} {phase phase' : Phase}
    {token used retryIn : Option ℕ} {fetched : ℕ} {kind : EndKind}
    (htokens : Tokens log phase token fetched)
    (hkind : kind ≠ .unauthorized ∨ retryIn ≠ some 0)
    (hphase : phase'.token = none) :
    Tokens (log ++ [.ended kind used retryIn]) phase' token fetched := by
  refine htokens.mono (fun rejected hmem => ?_) (.inr hphase)
  rcases List.mem_append.mp hmem with hold | hnew
  · exact hold
  · obtain ⟨rfl, -, rfl⟩ := Event.ended.inj (List.mem_singleton.mp hnew)
    simp at hkind

theorem Inv.ends {ended : Ended} (hinv : Inv task) (hbounded : task.Bounded)
    (hcalm : ended.kind = .failed ∨ ended.kind = .signedOut →
      task.rejections = 0)
    (hstep : task.ends format ended = some task') : Inv task' := by
  rw [RelayTask.ends] at hstep
  split at hstep
  on_goal 2 => cases hstep
  next token hsession =>
  split at hstep
  on_goal 2 => cases hstep
  obtain rfl := Option.some.inj hstep
  have hcounted := hinv.counted
  rw [Counted, hsession] at hcounted
  obtain ⟨hpace, hstreak⟩ := hcounted
  have htokens := hinv.tokens
  rw [hsession] at htokens
  have hused : ∀ used rejected, token = some used →
      .ended .unauthorized (some rejected) (some 0) ∈ task.log →
        rejected < used :=
    fun used rejected heq hmem => (htokens.used used heq).2 rejected hmem
  obtain ⟨error, kind⟩ := ended
  cases kind with
  | failed =>
      have hzero := hcalm (.inl rfl)
      refine ⟨hinv.afresh.concat ⟨?_, nofun, nofun, hused⟩, ?_,
        htokens.ended (.inl nofun) rfl⟩
      · exact fun _ => ⟨_, rfl, hbounded.least, hbounded.most, hpace⟩
      · exact ⟨.failed _ _ _ _, .inl hzero, nofun, token, List.getLast?_concat⟩
  | dropped =>
      refine ⟨hinv.afresh.concat ⟨nofun, nofun, nofun, hused⟩, ?_,
        htokens.ended (.inl nofun) rfl⟩
      exact ⟨.minRetry _, .inl rfl, fun _ => ⟨rfl, rfl⟩, token,
        List.getLast?_concat⟩
  | replaced =>
      exact ⟨hinv.afresh.concat ⟨nofun, nofun, nofun, hused⟩, trivial,
        htokens.ended (.inl nofun) rfl⟩
  | unauthorized =>
      dsimp only [onEnded]
      split
      · exact ⟨hinv.afresh, hpace, htokens.mono (fun _ => id) (.inl rfl)⟩
      · next hrejected =>
        obtain ⟨last, hlast⟩ := hstreak.resolve_left hrejected
        refine ⟨hinv.afresh.concat ⟨nofun, ?_, ?_, hused⟩, trivial,
          htokens.ended (.inr nofun) rfl⟩
        · exact fun _ hnone => absurd (mem_sinceChange_of_last hlast) (hnone _ _)
        · exact fun _ _ => ⟨last, hlast⟩
  | signedOut =>
      have hzero := hcalm (.inr rfl)
      exact ⟨hinv.afresh.concat ⟨nofun, nofun, nofun, hused⟩,
        ⟨hpace.ended, .inl hzero⟩, htokens.ended (.inl nofun) rfl⟩

theorem Inv.discard (hinv : Inv task) (hstep : task.discard = some task') :
    Inv task' := by
  rw [RelayTask.discard] at hstep
  split at hstep
  on_goal 2 => cases hstep
  next token error hphase =>
  obtain rfl := Option.some.inj hstep
  have hcounted := hinv.counted
  rw [Counted, hphase] at hcounted
  have htokens := hinv.tokens
  rw [hphase] at htokens
  refine ⟨hinv.afresh.concat ⟨nofun, fun _ _ => rfl, nofun, ?_⟩, ?_, ?_, nofun,
    nofun⟩
  · exact fun used rejected heq hmem => (htokens.used used heq).2 rejected hmem
  · exact ⟨hcounted.ended, .inr ⟨token, List.getLast?_concat⟩, nofun, token,
      List.getLast?_concat⟩
  · intro rejected hmem
    rcases List.mem_append.mp hmem with hold | hnew
    · exact htokens.rejected rejected hold
    · obtain ⟨-, heq, -⟩ := Event.ended.inj (List.mem_singleton.mp hnew)
      exact (htokens.used rejected heq.symm).1

theorem Inv.timeUp (hinv : Inv task) (hstep : task.timeUp = some task') :
    Inv task' := by
  rw [RelayTask.timeUp] at hstep
  split at hstep
  on_goal 2 => cases hstep
  next kind delay hphase =>
  obtain rfl := Option.some.inj hstep
  have hcounted := hinv.counted
  rw [Counted, hphase] at hcounted
  obtain ⟨hpace, hstreak, -, token, hlast⟩ := hcounted
  by_cases hfailed : kind = .failed
  · subst hfailed
    refine ⟨hinv.afresh, ⟨fun hnone => ?_, hstreak⟩,
      hinv.tokens.mono (fun _ => id) (.inr rfl)⟩
    exact absurd (mem_sinceChange_of_last hlast) (hnone _ _)
  · have hsame : task.resume kind (some delay) = { task with phase := .top } := by
      rw [resume, if_neg hfailed]
      rfl
    rw [hsame]
    exact ⟨hinv.afresh, ⟨hpace, hstreak⟩,
      hinv.tokens.mono (fun _ => id) (.inr rfl)⟩

/-- A change is noticed, and both counters are as at the start. -/
theorem Inv.noticed (hinv : Inv task) (hlog : task'.log = task.see.log)
    (hphase : task'.phase = .top) (hstart : task'.AtStart)
    (htoken : task'.token = task.token) (hfetched : task'.fetched = task.fetched) :
    Inv task' := by
  refine ⟨hlog ▸ hinv.afresh.see, ?_, ?_⟩
  · rw [Counted, hphase, hstart.1, hstart.2]
    exact ⟨.minRetry _, .inl rfl⟩
  · rw [hlog, hphase, htoken, hfetched]
    exact hinv.tokens.mono (fun _ => mem_log_of_mem_see) (.inr rfl)

theorem Inv.notice (hinv : Inv task) (hcalm : task.Unhurried .notice)
    (hstep : task.notice = some task') : Inv task' := by
  rw [RelayTask.notice] at hstep
  split at hstep
  on_goal 2 => cases hstep
  dsimp only [Unhurried] at hcalm
  split at hstep
  · next hphase =>
    obtain rfl := Option.some.inj hstep
    rw [hphase] at hcalm
    exact hinv.noticed rfl rfl hcalm rfl rfl
  · obtain rfl := Option.some.inj hstep
    exact hinv.noticed rfl rfl ⟨rfl, rfl⟩ rfl rfl
  · next kind retryIn hphase =>
    obtain rfl := Option.some.inj hstep
    rw [hphase] at hcalm
    cases retryIn with
    | none => exact hinv.noticed rfl rfl ⟨rfl, rfl⟩ rfl rfl
    | some delay =>
        obtain rfl := hcalm.resolve_left (Option.some_ne_none delay)
        have hcounted := hinv.counted
        rw [Counted, hphase] at hcounted
        exact hinv.noticed rfl rfl (hcounted.2.2.1 rfl) rfl rfl
  · cases hstep
  · cases hstep

theorem Inv.step {move : Move} (hinv : Inv task) (hbounded : task.Bounded)
    (hcalm : task.Unhurried move)
    (hstep : (machine format).step task move = some task') : Inv task' := by
  cases move with
  | change inputs =>
      obtain rfl := Option.some.inj hstep
      exact ⟨hinv.afresh, hinv.counted, hinv.tokens⟩
  | newToken =>
      obtain rfl := Option.some.inj hstep
      exact hinv.newToken
  | next => exact hinv.next hcalm hstep
  | fetch => exact hinv.fetch hstep
  | register =>
      dsimp only [machine, register] at hstep
      split at hstep
      · obtain rfl := Option.some.inj hstep
        exact ⟨hinv.afresh, hinv.counted, hinv.tokens⟩
      · cases hstep
  | ends => exact hinv.ends hbounded hcalm hstep
  | notice => exact hinv.notice hcalm hstep
  | discard => exact hinv.discard hstep
  | timeUp => exact hinv.timeUp hstep

end Steps

theorem inv_start (format : UrlFormat) (inputs : Inputs) (token : Option ℕ) :
    Inv (start format inputs token) := by
  refine ⟨startsAfresh_nil, ⟨.minRetry _, .inl rfl⟩, nofun,
    fun kept hkept => ⟨?_, nofun⟩, nofun⟩
  have hsame : token = some kept := hkept
  rw [start, hsame]
  exact Nat.le_refl kept

/-- Every wait after a failure is within its bounds.  As long as changes are
noticed where the counters are or will be as at the start, and no connection
after a rejection fails on the way to the relay, the task starts afresh after
every change. -/
theorem starts_afresh {format : UrlFormat} {inputs : Inputs} {token : Option ℕ}
    {moves : List Move} {final : RelayTask}
    (hrun : (machine format).run (start format inputs token) moves =
      some final) :
    (∀ token retryIn, .ended .failed token retryIn ∈ final.log →
      ∃ delay, retryIn = some delay ∧ minRetry ≤ delay ∧ delay ≤ maxRetry) ∧
    ((machine format).Along Unhurried (start format inputs token) moves →
      StartsAfresh final.log) := by
  have hbounded : final.Bounded :=
    Machine.run_of_step_invariant Bounded.step
      (bounded_start format inputs token) hrun
  refine ⟨hbounded.waits, fun hcalm => ?_⟩
  have hstep : ∀ task move task', Inv task ∧ task.Bounded → task.Unhurried move →
      (machine format).step task move = some task' →
        Inv task' ∧ task'.Bounded :=
    fun task move task' hinv hcalm hstep =>
      ⟨hinv.1.step hinv.2 hcalm hstep, hinv.2.step _ _ _ hstep⟩
  exact (Machine.run_of_invariant hstep
    ⟨inv_start format inputs token, bounded_start format inputs token⟩ hcalm
    hrun).1.afresh

def exampleInputs : Inputs := ⟨.relay, "https://a.example", true⟩

/-- Connecting fails, the URL changes during the next connection, connecting
fails again, and the token is rejected twice. -/
def changedInTime : List Move :=
  [.next, .fetch false, .ends ⟨"", .failed⟩, .timeUp, .next, .fetch true,
    .change ⟨.relay, "https://b.example", true⟩, .notice, .next, .fetch true,
    .ends ⟨"", .failed⟩, .timeUp, .next, .fetch true, .register,
    .ends ⟨"", .unauthorized⟩, .discard, .timeUp, .next, .fetch false,
    .ends ⟨"", .unauthorized⟩]

theorem starts_afresh_changedInTime :
    ∃ final, (machine exampleUrls).run (start exampleUrls exampleInputs none)
        changedInTime = some final ∧
      final.log = [.ended .failed (some 1) (some 1), .changed,
        .ended .failed (some 1) (some 1),
        .ended .unauthorized (some 1) (some 0),
        .ended .unauthorized (some 2) none] ∧
      StartsAfresh final.log := by
  have hcalm : (machine exampleUrls).Along Unhurried
      (start exampleUrls exampleInputs none) changedInTime := by decide
  have hlog : ((machine exampleUrls).run
      (start exampleUrls exampleInputs none) changedInTime).map log =
      some [.ended .failed (some 1) (some 1), .changed,
        .ended .failed (some 1) (some 1),
        .ended .unauthorized (some 1) (some 0),
        .ended .unauthorized (some 2) none] := by decide
  obtain ⟨final, hrun, hfinal⟩ := Option.map_eq_some_iff.mp hlog
  exact ⟨final, hrun, hfinal, (starts_afresh hrun).2 hcalm⟩

/-- The URL changes while the task waits to connect again. -/
def changedInWait : List Move :=
  [.next, .fetch false, .ends ⟨"", .failed⟩,
    .change ⟨.relay, "https://b.example", true⟩, .notice, .next, .fetch true,
    .ends ⟨"", .failed⟩]

/-- The first failure after the change is retried after two seconds. -/
theorem not_startsAfresh_changedInWait :
    ∃ final, (machine exampleUrls).run (start exampleUrls exampleInputs none)
        changedInWait = some final ∧
      final.log = [.ended .failed (some 1) (some 1), .changed,
        .ended .failed (some 1) (some 2)] ∧
      ¬ StartsAfresh final.log := by
  have hlog : ((machine exampleUrls).run
      (start exampleUrls exampleInputs none) changedInWait).map log =
      some [.ended .failed (some 1) (some 1), .changed,
        .ended .failed (some 1) (some 2)] := by decide
  obtain ⟨final, hrun, hfinal⟩ := Option.map_eq_some_iff.mp hlog
  refine ⟨final, hrun, hfinal, fun hafresh => ?_⟩
  rw [hfinal] at hafresh
  obtain ⟨hfailed, -⟩ :=
    hafresh [.ended .failed (some 1) (some 1), .changed] _ (List.prefix_refl _)
  obtain ⟨delay, hdelay, -, -, hfirst⟩ := hfailed rfl
  have hnone : sinceChange [.ended .failed (some 1) (some 1), .changed] = [] :=
    sinceChange_changed [.ended .failed (some 1) (some 1)]
  have hsoon := hfirst fun token retryIn hmem => by
    rw [hnone] at hmem
    cases hmem
  rw [hsoon] at hdelay
  cases hdelay

end RelayTask

end Cled.Desktop
