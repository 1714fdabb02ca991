import Cled.Core.Machine
import Cled.Clipboard.Detector
import Cled.Sync.Engine

/-!
# The event thread and the clipboard thread

Two threads share the engine.  The event thread takes one received item at a
time: it asks the engine, hands the content to the clipboard thread, and reports
a failed write.  The clipboard thread serves a write or checks the clipboard:
it takes a snapshot, observes it and reports a change.  The engine lock is held
for single engine calls only, so everything else interleaves.

A check that cannot read the clipboard, or that sees an unchanged change token,
does nothing and is no action here.
-/

namespace Cled.Desktop

open Cled.Clipboard Cled.Core Cled.Sync

/-- Who put the clipboard's content there. -/
inductive Source where
  /-- The user.  `checked` says that a check had run since the last write.  What
  is there at startup counts as put there without a check. -/
  | user (checked : Bool)
  /-- A write of received content. -/
  | write
  deriving DecidableEq

/-- Where the clipboard thread is. -/
inductive Checker where
  | idle
  /-- It has taken a snapshot. -/
  | read (snapshot : Snapshot) (source : Source)
  /-- It has observed a change. -/
  | changed (snapshot : Snapshot) (source : Source)
  deriving DecidableEq

/-- The change it is about to report is one of content. -/
def Checker.reportsContent : Checker → Bool
  | .changed (.content _) _ => true
  | _ => false

/-- Where the event thread is. -/
inductive EventThread where
  | idle
  /-- The engine answered with a write of `content`. -/
  | writing (content : ClipboardContent)
  /-- The write failed. -/
  | failed
  deriving DecidableEq

/-- It is between the engine's answer and the write. -/
def EventThread.isWriting : EventThread → Bool
  | .writing _ => true
  | _ => false

structure Threads where
  engine : SyncEngine
  detector : ChangeDetector
  clipboard : Snapshot
  source : Source
  checker : Checker
  events : EventThread
  /-- Whether a check has run since the last write. -/
  checked : Bool
  deriving DecidableEq

inductive Action where
  /-- The user copies something, or clears the clipboard. -/
  | userPut (snapshot : Snapshot)
  | receive (item : ClipboardItem)
  | write
  | writeFails
  | onWriteFailed
  | takeSnapshot
  | observe
  | report (stamp : Stamp)
  deriving DecidableEq

namespace Threads

variable (hasher : Hasher) (blake3 : Blake3)

/-- Both threads at startup, with what the clipboard holds as the baseline. -/
def start (device : DeviceId) (clipboard : Snapshot) : Threads :=
  { engine := SyncEngine.new device
    detector := ChangeDetector.default.baseline hasher clipboard
    clipboard
    source := .user false
    checker := .idle
    events := .idle
    checked := true }

/-- `handle_event` up to the write. -/
def receive (threads : Threads) (item : ClipboardItem) : Threads :=
  match threads.engine.onRemoteItem blake3 item with
  | (.write content, engine) =>
      { threads with engine, events := .writing content }
  | (.ignore _, engine) => { threads with engine }

/-- `ClipboardService::write` is served. -/
def write (threads : Threads) (content : ClipboardContent) : Threads :=
  { threads with
    clipboard := .content content
    source := .write
    events := .idle
    checked := false }

/-- `observe`, and on to the report if there is a change. -/
def observe (threads : Threads) (snapshot : Snapshot) (source : Source) :
    Threads :=
  match threads.detector.observe hasher snapshot with
  | (true, detector) =>
      { threads with detector, checker := .changed snapshot source }
  | (false, detector) =>
      { threads with detector, checker := .idle, checked := true }

/-- The engine's part of `process_change`. -/
def processChange (engine : SyncEngine) (snapshot : Snapshot) (stamp : Stamp) :
    Option LocalChange × SyncEngine :=
  match snapshot with
  | .content content =>
      let (change, engine) := engine.onLocalChange blake3 content stamp
      (some change, engine)
  | _ => (none, engine)

def report (threads : Threads) (snapshot : Snapshot) (stamp : Stamp) :
    Threads :=
  { threads with
    engine := (processChange blake3 threads.engine snapshot stamp).2
    checker := .idle
    checked := true }

def step (threads : Threads) : Action → Option Threads
  | .userPut snapshot =>
      some
        { threads with
          clipboard := snapshot
          source := .user threads.checked }
  | .receive item =>
      if threads.events = .idle then some (threads.receive blake3 item)
      else none
  | .write =>
      match threads.events, threads.checker with
      | .writing content, .idle => some (threads.write content)
      | _, _ => none
  | .writeFails =>
      match threads.events with
      | .writing _ => some { threads with events := .failed }
      | _ => none
  | .onWriteFailed =>
      if threads.events = .failed then
        some
          { threads with
            engine := threads.engine.onWriteFailed
            events := .idle }
      else none
  | .takeSnapshot =>
      if threads.checker = .idle then
        some
          { threads with
            checker := .read threads.clipboard threads.source }
      else none
  | .observe =>
      match threads.checker with
      | .read snapshot source =>
          some (threads.observe hasher snapshot source)
      | _ => none
  | .report stamp =>
      match threads.checker with
      | .changed snapshot _ => some (threads.report blake3 snapshot stamp)
      | _ => none

def machine : Machine Threads Action := ⟨step hasher blake3⟩

/-! ## What a step does -/

variable {hasher : Hasher} {blake3 : Blake3}

theorem receive_ignored_or_accepted (engine : SyncEngine)
    (item : ClipboardItem) :
    (∃ reason after, engine.onRemoteItem blake3 item = (.ignore reason, after) ∧
        after.pendingWrite = engine.pendingWrite) ∨
      ∃ after, engine.onRemoteItem blake3 item = (.write item.content, after) ∧
        after.pendingWrite = some item ∧ item.IsIntact blake3 := by
  have houtcome := engine.onRemoteItem_outcome blake3 item
  generalize engine.onRemoteItem blake3 item = answer at houtcome ⊢
  cases houtcome with
  | written hpasses _ => exact Or.inr ⟨_, rfl, rfl, hpasses.2.1⟩
  | _ => exact Or.inl ⟨_, _, rfl, rfl⟩

variable (hasher blake3)

/-- Everything a step can do, with what the engine keeps about a pending
write. -/
inductive Outcome (threads : Threads) : Action → Threads → Prop
  | userPut (snapshot : Snapshot) :
      Outcome threads (.userPut snapshot)
        { threads with
          clipboard := snapshot
          source := .user threads.checked }
  | ignored (item : ClipboardItem) (engine : SyncEngine)
      (hpending : engine.pendingWrite = threads.engine.pendingWrite) :
      Outcome threads (.receive item) { threads with engine }
  | accepted (item : ClipboardItem) (engine : SyncEngine)
      (hevents : threads.events = .idle)
      (hpending : engine.pendingWrite = some item)
      (hintact : item.IsIntact blake3) :
      Outcome threads (.receive item)
        { threads with engine, events := .writing item.content }
  | written (content : ClipboardContent)
      (hevents : threads.events = .writing content)
      (hchecker : threads.checker = .idle) :
      Outcome threads .write (threads.write content)
  | notWritten (content : ClipboardContent)
      (hevents : threads.events = .writing content) :
      Outcome threads .writeFails { threads with events := .failed }
  | failed (hevents : threads.events = .failed) :
      Outcome threads .onWriteFailed
        { threads with
          engine := threads.engine.onWriteFailed
          events := .idle }
  | read (hchecker : threads.checker = .idle) :
      Outcome threads .takeSnapshot
        { threads with checker := .read threads.clipboard threads.source }
  | unchanged (snapshot : Snapshot) (source : Source)
      (hchecker : threads.checker = .read snapshot source)
      (hsame : snapshot = .empty ∨
        snapshot.fingerprint hasher = threads.detector.last) :
      Outcome threads .observe
        { threads with
          detector := (threads.detector.observe hasher snapshot).2
          checker := .idle
          checked := true }
  | changed (snapshot : Snapshot) (source : Source)
      (hchecker : threads.checker = .read snapshot source)
      (hchange : snapshot.fingerprint hasher ≠ threads.detector.last) :
      Outcome threads .observe
        { threads with
          detector := (threads.detector.observe hasher snapshot).2
          checker := .changed snapshot source }
  | reported (snapshot : Snapshot) (source : Source) (stamp : Stamp)
      (hchecker : threads.checker = .changed snapshot source) :
      Outcome threads (.report stamp) (threads.report blake3 snapshot stamp)

theorem step_outcome {threads next : Threads} {action : Action}
    (hstep : threads.step hasher blake3 action = some next) :
    Outcome hasher blake3 threads action next := by
  cases action with
  | userPut snapshot =>
      cases hstep
      exact .userPut snapshot
  | receive item =>
      obtain ⟨hidle, ⟨⟩⟩ := Option.ite_none_right_eq_some.mp hstep
      unfold receive
      rcases receive_ignored_or_accepted threads.engine item with
        ⟨reason, engine, hanswer, hpending⟩ |
        ⟨engine, hanswer, hpending, hintact⟩
      · rw [hanswer]
        exact .ignored item engine hpending
      · rw [hanswer]
        exact .accepted item engine hidle hpending hintact
  | write =>
      dsimp only [step] at hstep
      split at hstep
      · next content hevents hchecker =>
        cases hstep
        exact .written content hevents hchecker
      · contradiction
  | writeFails =>
      dsimp only [step] at hstep
      split at hstep
      · next content hevents =>
        cases hstep
        exact .notWritten content hevents
      · contradiction
  | onWriteFailed =>
      obtain ⟨hevents, ⟨⟩⟩ := Option.ite_none_right_eq_some.mp hstep
      exact .failed hevents
  | takeSnapshot =>
      obtain ⟨hchecker, ⟨⟩⟩ := Option.ite_none_right_eq_some.mp hstep
      exact .read hchecker
  | observe =>
      dsimp only [step] at hstep
      split at hstep
      · next snapshot source hchecker =>
        cases hstep
        have hiff := threads.detector.observe_changed_iff hasher snapshot
        cases hflag : (threads.detector.observe hasher snapshot).1 with
        | true =>
            have hchange := (hiff.mp hflag).2
            rw [observe, ← Prod.eta (threads.detector.observe hasher snapshot),
              hflag]
            exact .changed snapshot source hchecker hchange
        | false =>
            have hsame : snapshot = .empty ∨
                snapshot.fingerprint hasher = threads.detector.last := by
              by_contra! hchange
              simp [hiff.mpr hchange] at hflag
            rw [observe, ← Prod.eta (threads.detector.observe hasher snapshot),
              hflag]
            exact .unchanged snapshot source hchecker hsame
      · contradiction
  | report stamp =>
      dsimp only [step] at hstep
      split at hstep
      · next snapshot source hchecker =>
        cases hstep
        exact .reported snapshot source stamp hchecker
      · contradiction

/-! ## Items for examples -/

def here : DeviceId := ⟨1⟩

/-- An item copied on another device. -/
def remote (body : String) (createdAt : SystemTime) : ClipboardItem :=
  ClipboardItem.new shortDigest ⟨⟨BitVec.ofInt 128 createdAt⟩, createdAt⟩ ⟨2⟩
    (.text body)

end Threads

end Cled.Desktop
