import Cled.Core.Machine
import Cled.Clipboard.Detector

/-!
# The clipboard service and its change token

A check asks the platform for its change token first and skips the read when the
token is the one it was given last.  The token is remembered before the read, so
a read that fails is not tried again until the token changes.

Beside the loop runs the same loop without the shortcut, for comparison.
-/

namespace Cled.Clipboard

open Cled.Core

inductive ClipboardError where
  | unavailable (reason : String)
  | busy
  | conversion
  | serviceStopped
  | other (reason : String)
  deriving DecidableEq

/-- `ClipboardError::to_string`. -/
def ClipboardError.message : ClipboardError → String
  | .unavailable reason => "clipboard is not available: " ++ reason
  | .busy => "clipboard is busy"
  | .conversion => "clipboard content could not be converted"
  | .serviceStopped => "clipboard service has stopped"
  | .other reason => "clipboard error: " ++ reason

/-- The detector, and what `on_change` was called with so far. -/
structure Watch where
  detector : ChangeDetector
  reports : List Snapshot
  deriving DecidableEq

/-- What the loop does with a snapshot it has read. -/
def Watch.observe (hasher : Hasher) (watch : Watch) (snapshot : Snapshot) :
    Watch :=
  match watch.detector.observe hasher snapshot with
  | (true, detector) => { detector, reports := watch.reports ++ [snapshot] }
  | (false, detector) => { watch with detector }

/-- Where the loop is. -/
inductive ServicePhase where
  /-- It has asked for the first token and reads the baseline next. -/
  | starting
  | waiting
  /-- It has asked for a new token and reads the clipboard next. -/
  | reading
  deriving DecidableEq

structure Service where
  clipboard : Snapshot
  /-- The platform's change token, or `none` if it has none. -/
  token : Option UInt64
  lastToken : Option UInt64
  phase : ServicePhase
  watch : Watch
  /-- The same loop without the shortcut. -/
  plain : Watch
  lastError : Option String
  warnings : List String
  /-- Whether the content has changed since `lastToken` was asked for. -/
  changed : Bool
  /-- Whether the read after `lastToken` succeeded. -/
  wasRead : Bool
  /-- What the clipboard holds, if `on_change` still has to be called with it. -/
  awaited : Option Snapshot
  deriving DecidableEq

inductive ServiceAction where
  /-- Someone puts something on the clipboard: the user, or Cled. -/
  | put (snapshot : Snapshot) (token : Option UInt64)
  /-- The read at startup ends. -/
  | baseline (result : Except ClipboardError Unit)
  /-- A check starts.  `readable`: a read would succeed. -/
  | check (readable : Bool)
  /-- The read of a check ends. -/
  | read (result : Except ClipboardError Unit)

namespace Service

variable (hasher : Hasher)

/-- The service asks for its first token. -/
def start (clipboard : Snapshot) (token : Option UInt64) : Service :=
  { clipboard
    token
    lastToken := token
    phase := .starting
    watch := { detector := ChangeDetector.default, reports := [] }
    plain := { detector := ChangeDetector.default, reports := [] }
    lastError := none
    warnings := []
    changed := false
    wasRead := false
    awaited := none }

/-- The platform can cheaply tell that nothing changed. -/
def Skips (service : Service) : Prop :=
  service.token.isSome ∧ service.token = service.lastToken

instance (service : Service) : Decidable service.Skips :=
  inferInstanceAs (Decidable (_ ∧ _))

/-- New content, with the token that the platform gives it.  A change since the
last token was asked for has another token. -/
def put (service : Service) (snapshot : Snapshot) (token : Option UInt64) :
    Option Service :=
  let after :=
    { service with
      clipboard := snapshot
      token
      changed := service.changed || snapshot ≠ service.clipboard
      awaited :=
        if service.phase ≠ .starting ∧
            (service.watch.detector.observe hasher snapshot).1 then
          some snapshot
        else none }
  if after.changed ∧ after.Skips then none else some after

/-- `baseline(&clipboard.read().unwrap_or(Snapshot::Empty))`. -/
def baseline (service : Service) (result : Except ClipboardError Unit) :
    Service :=
  let snapshot := if result.isOk then service.clipboard else .empty
  let detector := service.watch.detector.baseline hasher snapshot
  { service with
    phase := .waiting
    watch := { service.watch with detector }
    plain := { service.plain with detector }
    wasRead := result.isOk }

/-- A check up to its read.  The loop without the shortcut reads here when this
one does not. -/
def check (service : Service) (readable : Bool) : Service :=
  if service.Skips then
    if readable then
      { service with plain := service.plain.observe hasher service.clipboard }
    else service
  else
    { service with
      lastToken := service.token
      phase := .reading
      changed := false
      wasRead := false }

/-- What a check does with the result of its read. -/
def finishRead (service : Service) : Except ClipboardError Unit → Service
  | .ok _ =>
      let snapshot := service.clipboard
      { service with
        phase := .waiting
        watch := service.watch.observe hasher snapshot
        plain := service.plain.observe hasher snapshot
        lastError := none
        wasRead := true
        awaited :=
          if (service.watch.detector.observe hasher snapshot).1 ∧
              service.awaited = some snapshot then
            none
          else service.awaited }
  | .error .busy => { service with phase := .waiting }
  | .error error =>
      if service.lastError = some error.message then
        { service with phase := .waiting }
      else
        { service with
          phase := .waiting
          lastError := some error.message
          warnings :=
            service.warnings ++ ["clipboard read failed: " ++ error.message] }

def step (service : Service) : ServiceAction → Option Service
  | .put snapshot token => service.put hasher snapshot token
  | .baseline result =>
      if service.phase = .starting then some (service.baseline hasher result)
      else none
  | .check readable =>
      if service.phase = .waiting then some (service.check hasher readable)
      else none
  | .read result =>
      if service.phase = .reading then some (service.finishRead hasher result)
      else none

def machine : Machine Service ServiceAction := ⟨step hasher⟩

/-! ## No change is lost -/

/-- The action ends a check at which the clipboard can be read. -/
def EndsReadableCheck (service : Service) : ServiceAction → Prop
  | .check readable => readable ∧ service.Skips
  | .read result => result.isOk
  | _ => False

/-- By the end of a check at which the clipboard can be read, `on_change` has
been called with what it holds, as in the loop without the shortcut. -/
def NoChangeLost (service : Service) (action : ServiceAction) : Prop :=
  service.EndsReadableCheck action →
    ∀ next ∈ service.step hasher action,
      next.awaited = none ∧ next.watch = next.plain

/-- A check that finds the token it was given last skips a read only if the one
before it succeeded. -/
def SkipsAfterRead (service : Service) : ServiceAction → Prop
  | .check readable => readable → service.Skips → service.wasRead
  | _ => True

/-- What is skipped has been observed. -/
structure ServiceInv (service : Service) : Prop where
  same : service.watch = service.plain
  starting : service.phase = .starting → service.awaited = none
  awaited : ∀ snapshot ∈ service.awaited,
    snapshot = service.clipboard ∧
      (service.watch.detector.observe hasher snapshot).1
  token : service.changed → ¬ service.Skips
  reading : service.phase = .reading → service.wasRead = false
  observed : service.phase = .waiting → service.wasRead → ¬ service.changed →
    service.clipboard.fingerprint hasher = service.watch.detector.last

variable {hasher}

theorem serviceInv_start (clipboard : Snapshot) (token : Option UInt64) :
    (start clipboard token).ServiceInv hasher where
  same := rfl
  starting _ := rfl
  awaited _ hawaited := by cases hawaited
  token hchanged := by cases hchanged
  reading hphase := by cases hphase
  observed hphase := by cases hphase

/-- What is observed again changes nothing. -/
theorem observe_of_last {watch : Watch} {snapshot : Snapshot}
    (hlast : snapshot.fingerprint hasher = watch.detector.last) :
    watch.observe hasher snapshot = watch := by
  have hsame : watch.detector.observe hasher snapshot =
      (false, watch.detector) := by
    simp [ChangeDetector.observe, hlast]
  rw [Watch.observe, hsame]

@[simp]
theorem observe_detector_last (watch : Watch) (snapshot : Snapshot) :
    (watch.observe hasher snapshot).detector.last =
      snapshot.fingerprint hasher := by
  unfold Watch.observe ChangeDetector.observe
  split
  · next heq => exact congrArg (·.2.last) heq.symm
  · next heq => exact congrArg (·.2.last) heq.symm

section Steps

variable {service next : Service}

/-- Nothing is awaited on a clipboard that has been observed. -/
theorem ServiceInv.awaited_eq_none (hinv : service.ServiceInv hasher)
    (hlast : service.clipboard.fingerprint hasher = service.watch.detector.last) :
    service.awaited = none := by
  by_contra hawaited
  obtain ⟨snapshot, hsnapshot⟩ := Option.ne_none_iff_exists'.mp hawaited
  obtain ⟨rfl, hchange⟩ := hinv.awaited snapshot hsnapshot
  exact ((ChangeDetector.observe_changed_iff hasher _ _).mp hchange).2 hlast

/-- A check that skips its read finds what was read before. -/
theorem ServiceInv.skipped (hinv : service.ServiceInv hasher)
    (hphase : service.phase = .waiting) (hskips : service.Skips)
    (hread : service.wasRead) :
    service.clipboard.fingerprint hasher = service.watch.detector.last :=
  hinv.observed hphase hread fun hchanged => hinv.token hchanged hskips

theorem serviceInv_put (hinv : service.ServiceInv hasher) {snapshot : Snapshot}
    {token : Option UInt64}
    (hput : service.put hasher snapshot token = some next) :
    next.ServiceInv hasher := by
  obtain ⟨hallowed, hnext⟩ := Option.ite_none_left_eq_some.mp hput
  rw [← Option.some.inj hnext]
  constructor
  case same => exact hinv.same
  case starting => exact fun hstarting => if_neg fun h => h.1 hstarting
  case awaited =>
    intro awaited hawaited
    obtain ⟨⟨_, hchange⟩, hsome⟩ := Option.ite_none_right_eq_some.mp hawaited
    obtain rfl := Option.some.inj hsome
    exact ⟨rfl, hchange⟩
  case token => exact fun hchanged hskips => hallowed ⟨hchanged, hskips⟩
  case reading => exact hinv.reading
  case observed =>
    intro hphase hread hunchanged
    have hboth : ¬ (service.changed ∨ snapshot ≠ service.clipboard) := by
      simpa using hunchanged
    obtain ⟨hbefore, hsame⟩ := not_or.mp hboth
    dsimp only
    rw [not_not.mp hsame]
    exact hinv.observed hphase hread hbefore

theorem serviceInv_baseline (hinv : service.ServiceInv hasher)
    (hphase : service.phase = .starting)
    (result : Except ClipboardError Unit) :
    (service.baseline hasher result).ServiceInv hasher where
  same := by
    dsimp only [baseline]
    rw [hinv.same]
  starting := nofun
  awaited snapshot hawaited := by
    have hnone := hinv.starting hphase
    exact absurd (hnone.symm.trans hawaited) nofun
  token := hinv.token
  reading := nofun
  observed _ hread _ := by
    have hok : result.isOk = true := hread
    simp only [baseline, hok, if_true]
    rfl

theorem serviceInv_check (hinv : service.ServiceInv hasher)
    (hphase : service.phase = .waiting) {readable : Bool}
    (hafter : service.SkipsAfterRead (.check readable)) :
    (service.check hasher readable).ServiceInv hasher := by
  unfold check
  split
  · next hskips =>
    split
    · next hreadable =>
      have hlast := hinv.skipped hphase hskips (hafter hreadable hskips)
      constructor
      case same =>
        dsimp only
        rw [← hinv.same, observe_of_last hlast]
      case starting => exact hinv.starting
      case awaited => exact hinv.awaited
      case token => exact hinv.token
      case reading => exact hinv.reading
      case observed => exact hinv.observed
    · exact hinv
  · constructor
    case same => exact hinv.same
    case starting => nofun
    case awaited => exact hinv.awaited
    case token => nofun
    case reading => exact fun _ => rfl
    case observed => nofun

/-- `on_change` is called with what is awaited as soon as it is read. -/
theorem ServiceInv.finishRead_awaited (hinv : service.ServiceInv hasher) :
    (service.finishRead hasher (.ok ())).awaited = none := by
  dsimp only [finishRead]
  split
  · rfl
  · next hnot =>
    by_contra hawaited
    obtain ⟨snapshot, hsnapshot⟩ := Option.ne_none_iff_exists'.mp hawaited
    obtain ⟨rfl, hchange⟩ := hinv.awaited snapshot hsnapshot
    exact hnot ⟨hchange, hsnapshot⟩

/-- A read that fails leaves everything but the log as it was. -/
theorem ServiceInv.readFailed (hinv : service.ServiceInv hasher)
    (hphase : service.phase = .reading) (lastError : Option String)
    (warnings : List String) :
    ServiceInv hasher
      { service with phase := .waiting, lastError, warnings } where
  same := hinv.same
  starting := nofun
  awaited := hinv.awaited
  token := hinv.token
  reading := nofun
  observed _ hread _ :=
    absurd ((hinv.reading hphase).symm.trans hread) nofun

theorem serviceInv_finishRead (hinv : service.ServiceInv hasher)
    (hphase : service.phase = .reading)
    (result : Except ClipboardError Unit) :
    (service.finishRead hasher result).ServiceInv hasher := by
  cases result with
  | ok _ =>
      constructor
      case same =>
        dsimp only [finishRead]
        rw [hinv.same]
      case starting => nofun
      case awaited =>
        rw [hinv.finishRead_awaited]
        nofun
      case token => exact hinv.token
      case reading => nofun
      case observed =>
        intro _ _ _
        exact (observe_detector_last service.watch service.clipboard).symm
  | error error =>
      have hfailed := hinv.readFailed hphase
      cases error with
      | busy => exact hfailed _ _
      | _ =>
          dsimp only [finishRead]
          split
          · exact hfailed _ _
          · exact hfailed _ _

theorem serviceInv_step {action : ServiceAction}
    (hinv : service.ServiceInv hasher) (hafter : service.SkipsAfterRead action)
    (hstep : service.step hasher action = some next) :
    next.ServiceInv hasher := by
  cases action with
  | put snapshot token => exact serviceInv_put hinv hstep
  | baseline result =>
      obtain ⟨hphase, hnext⟩ := Option.ite_none_right_eq_some.mp hstep
      obtain rfl := Option.some.inj hnext
      exact serviceInv_baseline hinv hphase result
  | check readable =>
      obtain ⟨hphase, hnext⟩ := Option.ite_none_right_eq_some.mp hstep
      obtain rfl := Option.some.inj hnext
      exact serviceInv_check hinv hphase hafter
  | read result =>
      obtain ⟨hphase, hnext⟩ := Option.ite_none_right_eq_some.mp hstep
      obtain rfl := Option.some.inj hnext
      exact serviceInv_finishRead hinv hphase result

theorem noChangeLost_of_skipsAfterRead {action : ServiceAction}
    (hinv : service.ServiceInv hasher) (hafter : service.SkipsAfterRead action) :
    service.NoChangeLost hasher action := by
  intro hends next hstep
  have hnext := serviceInv_step hinv hafter hstep
  refine ⟨?_, hnext.same⟩
  cases action with
  | put snapshot token => cases hends
  | baseline result => cases hends
  | check readable =>
      obtain ⟨hphase, hnext⟩ := Option.ite_none_right_eq_some.mp hstep
      obtain rfl := Option.some.inj hnext
      obtain ⟨hreadable, hskips⟩ := hends
      have hlast := hinv.skipped hphase hskips (hafter hreadable hskips)
      rw [check, if_pos hskips, if_pos hreadable]
      exact hinv.awaited_eq_none hlast
  | read result =>
      obtain ⟨hphase, hnext⟩ := Option.ite_none_right_eq_some.mp hstep
      obtain rfl := Option.some.inj hnext
      cases result with
      | ok _ => exact hinv.finishRead_awaited
      | error error => cases hends

end Steps

/-- In every run in which a token that is found again was followed by a read
that succeeded, no change is lost, and the loop reports what it reports without
the shortcut. -/
theorem noChangeLost_along {clipboard : Snapshot} {token : Option UInt64}
    {actions : List ServiceAction} {final : Service}
    (hafter : (machine hasher).Along SkipsAfterRead (start clipboard token)
      actions)
    (hrun : (machine hasher).run (start clipboard token) actions = some final) :
    (machine hasher).Along (NoChangeLost hasher) (start clipboard token)
        actions ∧
      final.watch = final.plain := by
  have hstep : ∀ service action next, ServiceInv hasher service →
      SkipsAfterRead service action →
        (machine hasher).step service action = some next →
          ServiceInv hasher next :=
    fun _ _ _ hinv hhere hnext => serviceInv_step hinv hhere hnext
  have hgood : ∀ service action, ServiceInv hasher service →
      SkipsAfterRead service action → NoChangeLost hasher service action :=
    fun _ _ hinv hhere => noChangeLost_of_skipsAfterRead hinv hhere
  have hfinal : ServiceInv hasher final :=
    Machine.run_of_invariant hstep (serviceInv_start clipboard token) hafter hrun
  exact ⟨Machine.along_of_invariant hgood hstep
    (serviceInv_start clipboard token) hafter, hfinal.same⟩

instance (service : Service) (action : ServiceAction) :
    Decidable (service.SkipsAfterRead action) := by
  apply ServiceAction.casesOn
    (motive := fun action => Decidable (service.SkipsAfterRead action)) action
  all_goals
    intros
    dsimp only [SkipsAfterRead]
    infer_instance

instance (service : Service) (action : ServiceAction) :
    Decidable (service.EndsReadableCheck action) := by
  apply ServiceAction.casesOn
    (motive := fun action => Decidable (service.EndsReadableCheck action)) action
  all_goals
    intros
    dsimp only [EndsReadableCheck]
    infer_instance

instance (service : Service) (action : ServiceAction) :
    Decidable (service.NoChangeLost hasher action) :=
  inferInstanceAs (Decidable (_ → ∀ next ∈ service.step hasher action, _))

/-- A text is copied, and the check that sees its token reads the clipboard with
this result.  The clipboard does not change any more. -/
def copiedOnce (result : Except ClipboardError Unit) : List ServiceAction :=
  [.baseline (.ok ()), .put (.content (.text "text")) (some 2), .check true,
    .read result, .check true]

theorem noChangeLost_read :
    ∃ final ∈ (machine shortHasher).run (start .empty (some 1))
        (copiedOnce (.ok ())),
      final.watch.reports = [.content (.text "text")] ∧
        final.watch = final.plain := by
  obtain ⟨final, hrun, hreports⟩ :
      ∃ final ∈ (machine shortHasher).run (start .empty (some 1))
          (copiedOnce (.ok ())),
        final.watch.reports = [.content (.text "text")] := by
    decide
  exact ⟨final, hrun, hreports, (noChangeLost_along (by decide) hrun).2⟩

/-- Another application holds the clipboard during the read.  The text is never
reported, although it can be read at the next check. -/
theorem not_noChangeLost_busy :
    ¬ (machine shortHasher).Along (NoChangeLost shortHasher)
        (start .empty (some 1)) (copiedOnce (.error .busy)) ∧
      ((machine shortHasher).run (start .empty (some 1))
        (copiedOnce (.error .busy))).map
          (fun final => (final.watch.reports, final.plain.reports)) =
        some ([], [.content (.text "text")]) := by
  decide

end Service

end Cled.Clipboard
