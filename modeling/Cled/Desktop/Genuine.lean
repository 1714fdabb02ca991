import Cled.Desktop.Threads

/-!
# Genuine copies and the pending write

The expectation of an echo is taken back by the next reported change of content.
A check that reports no such change leaves it behind, and a later copy of the
same content by the user then counts as the echo.  A copy is also swallowed when
it is reported before the write of the same content.
-/

namespace Cled.Desktop

open Cled.Clipboard Cled.Core Cled.Sync

namespace Threads

variable (hasher : Hasher) (blake3 : Blake3)

/-- Content that the user put on the clipboard after a check had run since the
last write is reported as a copy. -/
def GenuineCopied (threads : Threads) : Action → Prop
  | .report stamp =>
      ∀ content,
        threads.checker = .changed (.content content) (.user true) →
          ∃ item, (threads.engine.onLocalChange blake3 content stamp).1 =
            .copied item
  | _ => True

/-- The content that is about to be reported. -/
def reporting (threads : Threads) : Option ClipboardContent :=
  match threads.checker with
  | .changed (.content content) _ => some content
  | _ => none

/-- While an item is between its answer and the end of its write, no change of
content is reported that has the hash of the pending item; and a check that
starts after the write, with the echo still pending, sees a change of content. -/
def TakenBack (threads : Threads) : Action → Prop
  | .report _ =>
      threads.events ≠ .idle →
        ∀ content ∈ threads.reporting,
          ∀ pending ∈ threads.engine.pendingWrite,
            pending.contentHash ≠ ContentHash.of blake3 content
  | .takeSnapshot =>
      threads.events = .idle → threads.engine.pendingWrite ≠ none →
        threads.clipboard.content?.isSome ∧
          threads.clipboard.fingerprint hasher ≠ threads.detector.last
  | _ => True

instance (threads : Threads) (action : Action) :
    Decidable (threads.TakenBack hasher blake3 action) := by
  apply Action.casesOn
    (motive := fun action => Decidable (threads.TakenBack hasher blake3 action))
    action
  all_goals intros; dsimp only [TakenBack]; infer_instance

/-- An echo is pending and the write it belongs to is over. -/
def Awaited (threads : Threads) : Prop :=
  threads.events = .idle ∧ threads.engine.pendingWrite ≠ none

/-- An echo is awaited until the first check after the write is over, and that
check reports a change of content. -/
structure GenuineInv (threads : Threads) : Prop where
  unchecked : threads.Awaited → threads.checked = false
  clipboard : threads.source = .user true → threads.checked = true
  read : ∀ snapshot source, threads.checker = .read snapshot source →
    (source = .user true → threads.checked = true) ∧
      (threads.Awaited → snapshot.content?.isSome ∧
        snapshot.fingerprint hasher ≠ threads.detector.last)
  changed : ∀ snapshot source, threads.checker = .changed snapshot source →
    (source = .user true → threads.checked = true) ∧
      (threads.Awaited → snapshot.content?.isSome)

variable {hasher blake3}

theorem genuineInv_start (device : DeviceId) (clipboard : Snapshot) :
    (start hasher device clipboard).GenuineInv hasher where
  unchecked hawaited := absurd rfl hawaited.2
  clipboard hsource := by cases hsource
  read _ _ hchecker := by cases hchecker
  changed _ _ hchecker := by cases hchecker

theorem genuineCopied_of_takenBack (threads : Threads) (action : Action)
    (hinv : threads.GenuineInv hasher)
    (htaken : threads.TakenBack hasher blake3 action) :
    threads.GenuineCopied blake3 action := by
  cases action with
  | report stamp =>
      intro content hchecker
      have hchecked := (hinv.changed _ _ hchecker).1 rfl
      have hpending : ∀ pending ∈ threads.engine.pendingWrite,
          pending.contentHash ≠ ContentHash.of blake3 content := by
        intro pending hslot
        by_cases hevents : threads.events = .idle
        · have hunchecked := hinv.unchecked
            ⟨hevents, Option.ne_none_iff_exists'.mpr ⟨pending, hslot⟩⟩
          simp [hchecked] at hunchecked
        · exact htaken hevents content (by simp [reporting, hchecker])
            pending hslot
      rw [SyncEngine.onLocalChange_copied blake3 stamp hpending]
      exact ⟨_, rfl⟩
  | _ => trivial

/-- Nothing moves on the clipboard or in the check, and no echo is newly
awaited. -/
theorem GenuineInv.of_same {threads next : Threads}
    (hinv : threads.GenuineInv hasher)
    (hawaited : next.Awaited → threads.Awaited)
    (hsource : next.source = threads.source)
    (hchecked : next.checked = threads.checked)
    (hchecker : next.checker = threads.checker)
    (hdetector : next.detector = threads.detector) :
    next.GenuineInv hasher where
  unchecked hnext := hchecked.trans (hinv.unchecked (hawaited hnext))
  clipboard huser := hchecked.trans (hinv.clipboard (hsource.symm.trans huser))
  read snapshot source hread := by
    obtain ⟨hreadSource, hchange⟩ :=
      hinv.read snapshot source (hchecker.symm.trans hread)
    rw [hchecked, hdetector]
    exact ⟨hreadSource, fun hnext => hchange (hawaited hnext)⟩
  changed snapshot source hchanged := by
    obtain ⟨hchangedSource, hcontent⟩ :=
      hinv.changed snapshot source (hchecker.symm.trans hchanged)
    rw [hchecked]
    exact ⟨hchangedSource, fun hnext => hcontent (hawaited hnext)⟩

theorem genuineInv_step (threads : Threads) (action : Action) (next : Threads)
    (hinv : threads.GenuineInv hasher)
    (htaken : threads.TakenBack hasher blake3 action)
    (hstep : (machine hasher blake3).step threads action = some next) :
    next.GenuineInv hasher := by
  cases step_outcome hasher blake3 hstep with
  | userPut snapshot =>
      constructor
      case unchecked => exact hinv.unchecked
      case clipboard => exact fun hsource => Source.user.inj hsource
      case read => exact hinv.read
      case changed => exact hinv.changed
  | ignored item engine hpending =>
      refine hinv.of_same (fun hawaited => ?_) rfl rfl rfl rfl
      simpa [Awaited, hpending] using hawaited
  | accepted item engine hevents hpending hintact =>
      exact hinv.of_same (fun hawaited => absurd hawaited.1 nofun) rfl rfl rfl
        rfl
  | written content hevents hchecker =>
      constructor
      case unchecked => exact fun _ => rfl
      case clipboard => nofun
      case read =>
        exact fun _ _ hread => absurd (hchecker.symm.trans hread) nofun
      case changed =>
        exact fun _ _ hchanged => absurd (hchecker.symm.trans hchanged) nofun
  | notWritten content hevents =>
      exact hinv.of_same (fun hawaited => absurd hawaited.1 nofun) rfl rfl rfl
        rfl
  | failed hevents =>
      exact hinv.of_same (fun hawaited => absurd rfl hawaited.2) rfl rfl rfl rfl
  | read hchecker =>
      constructor
      case unchecked => exact hinv.unchecked
      case clipboard => exact hinv.clipboard
      case read =>
        rintro _ _ ⟨rfl, rfl⟩
        exact ⟨hinv.clipboard, fun hawaited => htaken hawaited.1 hawaited.2⟩
      case changed => nofun
  | unchanged snapshot source hchecker hsame =>
      obtain ⟨_, hchange⟩ := hinv.read snapshot source hchecker
      constructor
      case unchecked =>
        -- A check that reports nothing ran without an awaited echo.
        intro hawaited
        obtain ⟨hcontent, hlast⟩ := hchange hawaited
        rcases hsame with rfl | hsame
        · cases hcontent
        · exact absurd hsame hlast
      case clipboard => exact fun _ => rfl
      case read => nofun
      case changed => nofun
  | changed snapshot source hchecker hfresh =>
      obtain ⟨hsource, hchange⟩ := hinv.read snapshot source hchecker
      constructor
      case unchecked => exact hinv.unchecked
      case clipboard => exact hinv.clipboard
      case read => nofun
      case changed =>
        rintro _ _ ⟨rfl, rfl⟩
        exact ⟨hsource, fun hawaited => (hchange hawaited).1⟩
  | reported snapshot source stamp hchecker =>
      obtain ⟨_, hcontent⟩ := hinv.changed snapshot source hchecker
      constructor
      case unchecked =>
        intro hawaited
        cases snapshot with
        | content held =>
            exact absurd
              (SyncEngine.onLocalChange_pendingWrite blake3 _ held stamp)
              hawaited.2
        | empty => cases hcontent hawaited
        | skipped reason => cases hcontent hawaited
      case clipboard => exact fun _ => rfl
      case read => nofun
      case changed => nofun

/-- In every interleaving in which each echo is taken back by the first check
after its write and none before, the user's copies are reported as copies. -/
theorem genuineCopied_along (device : DeviceId) (clipboard : Snapshot)
    (actions : List Action)
    (htaken : (machine hasher blake3).Along (TakenBack hasher blake3)
      (start hasher device clipboard) actions) :
    (machine hasher blake3).Along (GenuineCopied blake3)
      (start hasher device clipboard) actions :=
  Machine.along_of_invariant genuineCopied_of_takenBack genuineInv_step
    (genuineInv_start device clipboard) htaken

/-! ## A received item that is on the clipboard already -/

/-- What the clipboard held at startup arrives as an item.  Its write changes
nothing, so the check after it reports nothing.  The user clears the clipboard,
which is checked, and copies the same text again. -/
def copiedAgain : List Action :=
  [.receive (remote "text" 10), .write, .takeSnapshot, .observe,
    .userPut .empty, .takeSnapshot, .observe,
    .userPut (.content (.text "text")), .takeSnapshot, .observe]

/-- The copy is taken for the echo. -/
theorem not_genuineCopied_again :
    ¬ (machine shortHasher shortDigest).Along (GenuineCopied shortDigest)
      (start shortHasher here (.content (.text "text")))
      (copiedAgain ++ [.report ⟨⟨3⟩, 20⟩]) := by
  intro halong
  obtain ⟨state, hrun, hchecker, hecho⟩ :
      ∃ state ∈ (machine shortHasher shortDigest).run
          (start shortHasher here (.content (.text "text"))) copiedAgain,
        state.checker = .changed (.content (.text "text")) (.user true) ∧
          (state.engine.onLocalChange shortDigest (.text "text")
              ⟨⟨3⟩, 20⟩).1 = .echo (remote "text" 10) := by
    decide
  obtain ⟨item, hitem⟩ := halong.of_run hrun _ hchecker
  exact absurd (hecho.symm.trans hitem) nofun

/-- The same copies around a received item with another content. -/
def copiedAround : List Action :=
  [.receive (remote "other" 10), .write, .takeSnapshot, .observe,
    .report ⟨⟨3⟩, 20⟩, .userPut .empty, .takeSnapshot, .observe,
    .userPut (.content (.text "text")), .takeSnapshot, .observe,
    .report ⟨⟨4⟩, 30⟩]

theorem genuineCopied_around :
    (machine shortHasher shortDigest).Along (GenuineCopied shortDigest)
      (start shortHasher here (.content (.text "text"))) copiedAround :=
  genuineCopied_along here (.content (.text "text")) copiedAround (by decide)

end Threads

end Cled.Desktop
