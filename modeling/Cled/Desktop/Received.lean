import Cled.Desktop.Threads

/-!
# Received content and the one pending write

Content that a write has put on the clipboard is recognized as an echo while it
is the content of the pending write.  It is unless, between the engine's answer
and the write, another change is reported, or unless a write fails while the
content of an earlier one has not been reported yet.
-/

namespace Cled.Desktop

open Cled.Clipboard Cled.Core Cled.Sync

namespace Threads

variable (hasher : Hasher) (blake3 : Blake3)

/-- The content of a write is not reported as a copy. -/
def NoReceivedCopy (threads : Threads) : Action → Prop
  | .report stamp =>
      ∀ content, threads.checker = .changed (.content content) .write →
        ∀ item, (threads.engine.onLocalChange blake3 content stamp).1 ≠
          .copied item
  | _ => True

/-- `snapshot` is received content that will be reported: it is on the clipboard
and not observed yet, or in a check in progress. -/
def Unreported (threads : Threads) (snapshot : Snapshot) : Prop :=
  (threads.clipboard = snapshot ∧ threads.source = .write ∧
      snapshot.fingerprint hasher ≠ threads.detector.last) ∨
    (threads.checker = .read snapshot .write ∧
      snapshot.fingerprint hasher ≠ threads.detector.last) ∨
    threads.checker = .changed snapshot .write

instance (threads : Threads) (snapshot : Snapshot) :
    Decidable (threads.Unreported hasher snapshot) :=
  inferInstanceAs (Decidable (_ ∨ _ ∨ _))

/-- The snapshot of the check in progress. -/
def inCheck (threads : Threads) : Option Snapshot :=
  match threads.checker with
  | .idle => none
  | .read snapshot _ => some snapshot
  | .changed snapshot _ => some snapshot

/-- No change of content is reported between the answer to a received item and
its write, and no write fails while received content is unreported. -/
def Undisturbed (threads : Threads) : Action → Prop
  | .report _ =>
      ¬ (threads.checker.reportsContent ∧ threads.events.isWriting)
  | .writeFails =>
      ¬ threads.Unreported hasher threads.clipboard ∧
        ∀ snapshot ∈ threads.inCheck, ¬ threads.Unreported hasher snapshot
  | _ => True

instance (threads : Threads) (action : Action) :
    Decidable (threads.Undisturbed hasher action) := by
  apply Action.casesOn
    (motive := fun action => Decidable (threads.Undisturbed hasher action)) action
  all_goals intros; dsimp only [Undisturbed]; infer_instance

/-- The engine expects the echo of `content`. -/
def Expects (threads : Threads) (content : ClipboardContent) : Prop :=
  ∃ pending ∈ threads.engine.pendingWrite,
    pending.contentHash = ContentHash.of blake3 content

/-- While nothing is being written, unreported content is expected; while
something is, its echo is expected. -/
structure ReceivedInv (threads : Threads) : Prop where
  writing : ∀ content, threads.events = .writing content →
    threads.Expects blake3 content
  unreported : ∀ content, threads.Unreported hasher (.content content) →
    threads.events ≠ .failed ∧
      (threads.events = .idle → threads.Expects blake3 content)
  checking : threads.source = .write → ∀ snapshot source,
    threads.checker = .read snapshot source ∨
        threads.checker = .changed snapshot source →
      threads.clipboard = snapshot ∧ source = .write
  observed : ∀ snapshot source, threads.checker = .changed snapshot source →
    threads.detector.last = snapshot.fingerprint hasher

variable {hasher blake3}

theorem receivedInv_start (device : DeviceId) (clipboard : Snapshot) :
    (start hasher device clipboard).ReceivedInv hasher blake3 where
  writing _ hwriting := by cases hwriting
  unreported _ hunreported := by
    rcases hunreported with ⟨_, hsource, _⟩ | ⟨hchecker, _⟩ | hchecker
    · cases hsource
    · cases hchecker
    · cases hchecker
  checking hsource := by cases hsource
  observed _ _ hchecker := by cases hchecker

/-- A check in progress has seen the received content on the clipboard. -/
theorem ReceivedInv.inCheck_eq {threads : Threads}
    (hinv : threads.ReceivedInv hasher blake3) {snapshot held : Snapshot}
    {source : Source}
    (hchecker : threads.checker = .read snapshot source ∨
      threads.checker = .changed snapshot source)
    (hclipboard : threads.clipboard = held)
    (hsource : threads.source = .write) : snapshot = held :=
  (hinv.checking hsource snapshot source hchecker).1.symm.trans hclipboard

/-- Only the two snapshots that the condition looks at can be unreported. -/
theorem not_unreported {threads : Threads}
    (hundisturbed : threads.Undisturbed hasher .writeFails)
    (snapshot : Snapshot) : ¬ threads.Unreported hasher snapshot := by
  obtain ⟨hclipboard, hcheck⟩ := hundisturbed
  intro hunreported
  rcases hunreported with ⟨rfl, hsource⟩ | ⟨hchecker, hlast⟩ | hchecker
  · exact hclipboard (Or.inl ⟨rfl, hsource⟩)
  · refine hcheck snapshot ?_ (Or.inr (Or.inl ⟨hchecker, hlast⟩))
    rw [inCheck, hchecker]
    rfl
  · refine hcheck snapshot ?_ (Or.inr (Or.inr hchecker))
    rw [inCheck, hchecker]
    rfl

theorem noReceivedCopy_of_undisturbed (threads : Threads) (action : Action)
    (hinv : threads.ReceivedInv hasher blake3)
    (hundisturbed : threads.Undisturbed hasher action) :
    threads.NoReceivedCopy blake3 action := by
  cases action with
  | report stamp =>
      intro content hchecker item
      obtain ⟨hfailed, hidle⟩ :=
        hinv.unreported content (Or.inr (Or.inr hchecker))
      have hevents : threads.events = .idle := by
        unfold Undisturbed at hundisturbed
        cases hevents : threads.events with
        | idle => rfl
        | writing received =>
            simp [hchecker, hevents, Checker.reportsContent,
              EventThread.isWriting] at hundisturbed
        | failed => exact absurd hevents hfailed
      obtain ⟨pending, hpending, hhash⟩ := hidle hevents
      rw [SyncEngine.onLocalChange_echo blake3 stamp hpending hhash]
      exact LocalChange.noConfusion
  | _ => trivial

theorem receivedInv_step (threads : Threads) (action : Action)
    (next : Threads) (hinv : threads.ReceivedInv hasher blake3)
    (hundisturbed : threads.Undisturbed hasher action)
    (hstep : (machine hasher blake3).step threads action = some next) :
    next.ReceivedInv hasher blake3 := by
  cases step_outcome hasher blake3 hstep with
  | userPut snapshot =>
      constructor
      case writing => exact hinv.writing
      case unreported =>
        rintro content (⟨_, hsource, _⟩ | hcheck)
        · cases hsource
        · exact hinv.unreported content (Or.inr hcheck)
      case checking => nofun
      case observed => exact hinv.observed
  | ignored item engine hpending =>
      have hexpects : ∀ content, threads.Expects blake3 content →
          { threads with engine }.Expects blake3 content := by
        simp [Expects, hpending]
      constructor
      case writing =>
        exact fun content hevents => hexpects _ (hinv.writing content hevents)
      case unreported =>
        intro content hunreported
        obtain ⟨hfailed, hidle⟩ := hinv.unreported content hunreported
        exact ⟨hfailed, fun hevents => hexpects _ (hidle hevents)⟩
      case checking => exact hinv.checking
      case observed => exact hinv.observed
  | accepted item engine hevents hpending hintact =>
      constructor
      case writing =>
        rintro _ ⟨rfl⟩
        exact ⟨item, hpending, hintact.symm⟩
      case unreported =>
        intro content _
        exact ⟨nofun, nofun⟩
      case checking => exact hinv.checking
      case observed => exact hinv.observed
  | written content hevents hchecker =>
      have hexpects := hinv.writing content hevents
      constructor
      case writing => nofun
      case unreported =>
        rintro other (⟨hclipboard, _⟩ | ⟨hread, _⟩ | hchanged)
        · cases hclipboard
          exact ⟨nofun, fun _ => hexpects⟩
        · exact absurd (hchecker.symm.trans hread) nofun
        · exact absurd (hchecker.symm.trans hchanged) nofun
      case checking =>
        rintro _ snapshot source (hread | hchanged)
        · exact absurd (hchecker.symm.trans hread) nofun
        · exact absurd (hchecker.symm.trans hchanged) nofun
      case observed => exact hinv.observed
  | notWritten content hevents =>
      constructor
      case writing => nofun
      case unreported =>
        intro other hunreported
        exact absurd hunreported (not_unreported hundisturbed _)
      case checking => exact hinv.checking
      case observed => exact hinv.observed
  | failed hevents =>
      constructor
      case writing => nofun
      case unreported =>
        -- After a failed write nothing is left to report.
        intro other hunreported
        exact absurd hevents (hinv.unreported other hunreported).1
      case checking => exact hinv.checking
      case observed => exact hinv.observed
  | read hchecker =>
      constructor
      case writing => exact hinv.writing
      case unreported =>
        rintro content (hclipboard | ⟨hread, hlast⟩ | hchanged)
        · exact hinv.unreported content (Or.inl hclipboard)
        · obtain ⟨hclipboard, hsource⟩ := Checker.read.inj hread
          exact hinv.unreported content
            (Or.inl ⟨hclipboard, hsource, hlast⟩)
        · cases hchanged
      case checking =>
        rintro hsource snapshot source (hread | hchanged)
        · obtain ⟨rfl, rfl⟩ := Checker.read.inj hread
          exact ⟨rfl, hsource⟩
        · cases hchanged
      case observed => nofun
  | unchanged snapshot source hchecker hsame =>
      constructor
      case writing => exact hinv.writing
      case unreported =>
        rintro content (⟨hclipboard, hsource, hlast⟩ | ⟨hread, _⟩ | hchanged)
        · obtain rfl := hinv.inCheck_eq (Or.inl hchecker) hclipboard hsource
          exact absurd rfl hlast
        · cases hread
        · cases hchanged
      case checking =>
        rintro _ other from' (hread | hchanged)
        · cases hread
        · cases hchanged
      case observed => nofun
  | changed snapshot source hchecker hchange =>
      constructor
      case writing => exact hinv.writing
      case unreported =>
        rintro content (⟨hclipboard, hsource, hlast⟩ | ⟨hread, _⟩ | hchanged)
        · obtain rfl := hinv.inCheck_eq (Or.inl hchecker) hclipboard hsource
          exact absurd rfl hlast
        · cases hread
        · obtain ⟨rfl, rfl⟩ := Checker.changed.inj hchanged
          exact hinv.unreported content (Or.inr (Or.inl ⟨hchecker, hchange⟩))
      case checking =>
        rintro hsource other from' (hread | hchanged)
        · cases hread
        · obtain ⟨rfl, rfl⟩ := Checker.changed.inj hchanged
          exact hinv.checking hsource _ _ (Or.inl hchecker)
      case observed =>
        rintro other from' hchanged
        obtain ⟨rfl, rfl⟩ := Checker.changed.inj hchanged
        rfl
  | reported snapshot source stamp hchecker =>
      -- Nothing is left to report: received content on the clipboard is what
      -- this check has observed.
      have hnone : ∀ content, ¬ (threads.report blake3 snapshot stamp).Unreported
          hasher (.content content) := by
        rintro content (⟨hclipboard, hsource, hlast⟩ | ⟨hread, _⟩ | hchanged)
        · have hobserved := hinv.observed snapshot source hchecker
          obtain rfl := hinv.inCheck_eq (Or.inr hchecker) hclipboard hsource
          exact hlast hobserved.symm
        · cases hread
        · cases hchanged
      constructor
      case writing =>
        intro content hwriting
        have hexpects := hinv.writing content hwriting
        cases snapshot with
        | content held =>
            exact absurd hundisturbed (by
              have hevents : threads.events = .writing content := hwriting
              simp [Undisturbed, hchecker, hevents, Checker.reportsContent,
                EventThread.isWriting])
        | empty => exact hexpects
        | skipped reason => exact hexpects
      case unreported =>
        exact fun content hcontent => absurd hcontent (hnone content)
      case checking =>
        rintro _ other from' (hread | hchanged)
        · cases hread
        · cases hchanged
      case observed => nofun

/-- In every interleaving in which no change is reported between an answer and
its write, and no write fails over unreported content, received content is never
reported as a copy. -/
theorem noReceivedCopy_along (device : DeviceId) (clipboard : Snapshot)
    (actions : List Action)
    (hundisturbed : (machine hasher blake3).Along (Undisturbed hasher)
      (start hasher device clipboard) actions) :
    (machine hasher blake3).Along (NoReceivedCopy blake3)
      (start hasher device clipboard) actions :=
  Machine.along_of_invariant noReceivedCopy_of_undisturbed receivedInv_step
    (receivedInv_start device clipboard) hundisturbed

/-! ## A second item before the first is reported -/

/-- The first item is written and its change observed; before the change is
reported, the engine is asked about the second item. -/
def secondBeforeReport : List Action :=
  [.receive (remote "first" 10), .write, .takeSnapshot, .observe,
    .receive (remote "second" 20)]

/-- The first item is sent out as a copy made here. -/
theorem not_noReceivedCopy_second :
    ¬ (machine shortHasher shortDigest).Along (NoReceivedCopy shortDigest)
      (start shortHasher here .empty)
      (secondBeforeReport ++ [.report ⟨⟨3⟩, 30⟩]) := by
  intro halong
  obtain ⟨state, hrun, hchecker, hcopied⟩ :
      ∃ state ∈ (machine shortHasher shortDigest).run
          (start shortHasher here .empty) secondBeforeReport,
        state.checker = .changed (.content (.text "first")) .write ∧
          (state.engine.onLocalChange shortDigest (.text "first")
              ⟨⟨3⟩, 30⟩).1 =
            .copied (ClipboardItem.new shortDigest ⟨⟨3⟩, 30⟩ here
              (.text "first")) := by
    decide
  exact halong.of_run hrun _ hchecker _ hcopied

/-- Both items reported one after the other, with a copy in between. -/
def reportedInTurn : List Action :=
  [.receive (remote "first" 10), .write, .takeSnapshot, .observe,
    .report ⟨⟨3⟩, 30⟩, .userPut (.content (.text "own")), .takeSnapshot,
    .observe, .report ⟨⟨4⟩, 40⟩, .receive (remote "second" 50), .write,
    .takeSnapshot, .observe, .report ⟨⟨5⟩, 60⟩]

theorem noReceivedCopy_inTurn :
    (machine shortHasher shortDigest).Along (NoReceivedCopy shortDigest)
      (start shortHasher here .empty) reportedInTurn :=
  noReceivedCopy_along here .empty reportedInTurn (by decide)

end Threads

end Cled.Desktop
