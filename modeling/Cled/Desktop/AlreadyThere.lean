import Cled.Desktop.Threads

/-!
# Items that are on the clipboard already

The engine ignores an item whose content is, by its own record, on the clipboard
already.  The record follows changes of content only.  While the clipboard holds
content, the record has its hash; a clipboard that was cleared, or that holds
what Cled skips, leaves the record of the content before it.
-/

namespace Cled.Desktop

open Cled.Clipboard Cled.Core Cled.Sync

namespace Threads

variable (hasher : Hasher) (blake3 : Blake3)

/-- What an action puts on the clipboard. -/
def puts (threads : Threads) : Action → Option Snapshot
  | .userPut snapshot => some snapshot
  | .write =>
      match threads.events with
      | .writing content => some (.content content)
      | _ => none
  | _ => none

/-- The clipboard's content is observed and processed, and what replaces it has
another fingerprint, unless it is the same to the hasher. -/
def Observed (threads : Threads) (action : Action) : Prop :=
  threads.checker = .idle ∧
    threads.clipboard.fingerprint hasher = threads.detector.last ∧
      ∀ snapshot ∈ threads.puts action,
        snapshot.fingerprint hasher = threads.clipboard.fingerprint hasher →
          snapshot.hashInput = threads.clipboard.hashInput

/-- Every change is observed and processed before the next event. -/
def EveryChangeObserved (threads : Threads) : Action → Prop
  | .takeSnapshot | .observe | .report _ => True
  | action => threads.Observed hasher action

/-- An item that is ignored as already on the clipboard is there. -/
def IgnoredIsThere (threads : Threads) : Action → Prop
  | .receive item =>
      (threads.engine.onRemoteItem blake3 item).1 =
          .ignore .alreadyOnClipboard →
        ∃ content ∈ threads.clipboard.content?,
          ContentHash.of blake3 content = item.contentHash
  | _ => True

/-- No item that is neither own, corrupt, repeated nor stale has the content of
the engine's record while the clipboard holds no content. -/
def ArrivesOnContent (threads : Threads) : Action → Prop
  | .receive item =>
      threads.engine.Passes blake3 item → threads.engine.Holds item →
        threads.clipboard.content?.isSome
  | _ => True

/-- The record has the hash of the clipboard's content. -/
def Agrees (engine : SyncEngine) (clipboard : Snapshot) : Prop :=
  ∀ current ∈ engine.current, ∀ content ∈ clipboard.content?,
    current.hash = ContentHash.of blake3 content

/-- Once everything is processed, record and clipboard agree. -/
structure AgreesInv (threads : Threads) : Prop where
  read : ∀ snapshot source, threads.checker = .read snapshot source →
    snapshot = threads.clipboard
  changed : ∀ snapshot source, threads.checker = .changed snapshot source →
    snapshot = threads.clipboard
  agrees : (∀ snapshot source, threads.checker ≠ .changed snapshot source) →
    threads.clipboard.fingerprint hasher = threads.detector.last →
      Agrees blake3 threads.engine threads.clipboard

variable {hasher blake3}

theorem agreesInv_start (device : DeviceId) (clipboard : Snapshot) :
    (start hasher device clipboard).AgreesInv hasher blake3 where
  read _ _ hchecker := by cases hchecker
  changed _ _ hchecker := by cases hchecker
  agrees _ _ _ hcurrent := by cases hcurrent

/-- Between two checks only the clipboard's content matters. -/
theorem agreesInv_of_idle {threads : Threads} (hidle : threads.checker = .idle)
    (hagrees : threads.clipboard.fingerprint hasher = threads.detector.last →
      Agrees blake3 threads.engine threads.clipboard) :
    threads.AgreesInv hasher blake3 where
  read _ _ hread := absurd (hidle.symm.trans hread) nofun
  changed _ _ hchanged := absurd (hidle.symm.trans hchanged) nofun
  agrees _ := hagrees

theorem AgreesInv.agrees_of_idle {threads : Threads}
    (hinv : threads.AgreesInv hasher blake3) (hidle : threads.checker = .idle)
    (hprocessed :
      threads.clipboard.fingerprint hasher = threads.detector.last) :
    Agrees blake3 threads.engine threads.clipboard := by
  refine hinv.agrees (fun snapshot source hchanged => ?_) hprocessed
  exact absurd (hidle.symm.trans hchanged) nofun

/-- What is the same to the hasher of the fingerprint has the same content
hash. -/
theorem Agrees.of_hashInput {engine : SyncEngine} {before after : Snapshot}
    (hagrees : Agrees blake3 engine before)
    (hinput : after.hashInput = before.hashInput) :
    Agrees blake3 engine after := by
  intro current hcurrent content hafter
  cases after with
  | empty => cases hafter
  | skipped reason => cases hafter
  | content held =>
      obtain rfl := Option.some.inj hafter
      cases before with
      | empty => cases hinput
      | skipped reason =>
          exact absurd hinput (Snapshot.hashInput_content_ne_skipped held reason)
      | content previous =>
          have hbytes : held.hashBytes = previous.hashBytes :=
            List.append_cancel_left (Option.some.inj hinput)
          rw [hagrees current hcurrent previous rfl, ContentHash.of,
            ContentHash.of, ContentHash.input_eq_of_hashBytes_eq hbytes]

/-- A received item does not change the hash of the record. -/
theorem Agrees.onRemoteItem {engine : SyncEngine} {clipboard : Snapshot}
    (hagrees : Agrees blake3 engine clipboard) (item : ClipboardItem) :
    Agrees blake3 (engine.onRemoteItem blake3 item).2 clipboard := by
  have houtcome := engine.onRemoteItem_outcome blake3 item
  generalize engine.onRemoteItem blake3 item = answer at houtcome ⊢
  cases houtcome with
  | adopted hpasses current hcurrent hhash =>
      intro adopted hadopted content hcontent
      obtain rfl := Option.some.inj hadopted
      exact hhash.symm.trans (hagrees current hcurrent content hcontent)
  | _ => exact hagrees

/-- A reported change of content becomes the record. -/
theorem agrees_processChange (engine : SyncEngine) (snapshot : Snapshot)
    (stamp : Stamp) :
    Agrees blake3 (processChange blake3 engine snapshot stamp).2 snapshot := by
  intro current hcurrent content hcontent
  cases snapshot with
  | empty => cases hcontent
  | skipped reason => cases hcontent
  | content held =>
      obtain rfl := Option.some.inj hcontent
      dsimp only [processChange, SyncEngine.onLocalChange] at hcurrent
      split at hcurrent
      · split at hcurrent
        · next pending _ hhash =>
          obtain rfl := Option.some.inj hcurrent
          exact hhash
        · obtain rfl := Option.some.inj hcurrent
          rfl
      · obtain rfl := Option.some.inj hcurrent
        rfl

/-- What replaces the clipboard's content is a change, or is the same to the
hasher. -/
theorem AgreesInv.put {threads : Threads} {action : Action}
    (hinv : threads.AgreesInv hasher blake3)
    (hobserved : threads.Observed hasher action) {snapshot : Snapshot}
    (hputs : snapshot ∈ threads.puts action)
    (hlast : snapshot.fingerprint hasher = threads.detector.last) :
    Agrees blake3 threads.engine snapshot := by
  obtain ⟨hidle, hprocessed, hdistinct⟩ := hobserved
  have hagrees := hinv.agrees_of_idle hidle hprocessed
  have hsame := hlast.trans hprocessed.symm
  exact hagrees.of_hashInput (hdistinct snapshot hputs hsame)

theorem agreesInv_step (threads : Threads) (action : Action) (next : Threads)
    (hinv : threads.AgreesInv hasher blake3)
    (hobserved : threads.EveryChangeObserved hasher action)
    (hstep : (machine hasher blake3).step threads action = some next) :
    next.AgreesInv hasher blake3 := by
  cases action with
  | userPut snapshot =>
      obtain rfl := Option.some.inj hstep
      exact agreesInv_of_idle hobserved.1 fun hlast =>
        hinv.put hobserved rfl hlast
  | receive item =>
      obtain ⟨_, hnext⟩ := Option.ite_none_right_eq_some.mp hstep
      obtain rfl := Option.some.inj hnext
      obtain ⟨hidle, hprocessed, _⟩ := hobserved
      have hagrees := hinv.agrees_of_idle hidle hprocessed
      have hafter := hagrees.onRemoteItem item
      unfold receive
      generalize threads.engine.onRemoteItem blake3 item = answer at hafter ⊢
      obtain ⟨remote, engine⟩ := answer
      cases remote with
      | write content => exact ⟨hinv.read, hinv.changed, fun _ _ => hafter⟩
      | ignore reason => exact ⟨hinv.read, hinv.changed, fun _ _ => hafter⟩
  | write =>
      dsimp only [machine, step] at hstep
      split at hstep
      · next content hevents hidle =>
        obtain rfl := Option.some.inj hstep
        have hputs : Snapshot.content content ∈ threads.puts .write := by
          rw [puts, hevents]
          rfl
        exact agreesInv_of_idle hidle fun hlast =>
          hinv.put hobserved hputs hlast
      · contradiction
  | writeFails =>
      dsimp only [machine, step] at hstep
      split at hstep
      · obtain rfl := Option.some.inj hstep
        exact ⟨hinv.read, hinv.changed, hinv.agrees⟩
      · contradiction
  | onWriteFailed =>
      obtain ⟨_, hnext⟩ := Option.ite_none_right_eq_some.mp hstep
      obtain rfl := Option.some.inj hnext
      exact ⟨hinv.read, hinv.changed, hinv.agrees⟩
  | takeSnapshot =>
      obtain ⟨hidle, hnext⟩ := Option.ite_none_right_eq_some.mp hstep
      obtain rfl := Option.some.inj hnext
      constructor
      case read =>
        rintro _ _ ⟨rfl, rfl⟩
        rfl
      case changed => nofun
      case agrees =>
        exact fun _ hlast => hinv.agrees_of_idle hidle hlast
  | observe =>
      have houtcome : Outcome hasher blake3 threads .observe next :=
        step_outcome hasher blake3 hstep
      cases houtcome with
      | unchanged snapshot source hchecker hsame =>
          obtain rfl := hinv.read snapshot source hchecker
          constructor
          case read => nofun
          case changed => nofun
          case agrees =>
            intro _ _
            rcases hsame with hempty | hlast
            · dsimp only
              rw [hempty]
              nofun
            · exact hinv.agrees
                (fun _ _ hchanged => absurd (hchecker.symm.trans hchanged) nofun)
                hlast
      | changed snapshot source hchecker _ =>
          obtain rfl := hinv.read snapshot source hchecker
          constructor
          case read => nofun
          case changed =>
            rintro _ _ ⟨rfl, rfl⟩
            rfl
          case agrees => exact fun hchanged => absurd rfl (hchanged _ _)
  | report stamp =>
      dsimp only [machine, step] at hstep
      split at hstep
      · next snapshot source hchecker =>
        obtain rfl := Option.some.inj hstep
        obtain rfl := hinv.changed snapshot source hchecker
        constructor
        case read => nofun
        case changed => nofun
        case agrees =>
          exact fun _ _ => agrees_processChange threads.engine _ stamp
      · contradiction

/-! ## When the answer is right -/

theorem onRemoteItem_alreadyOnClipboard_iff (engine : SyncEngine)
    (item : ClipboardItem) :
    (engine.onRemoteItem blake3 item).1 = .ignore .alreadyOnClipboard ↔
      engine.Passes blake3 item ∧ engine.Holds item := by
  have houtcome := engine.onRemoteItem_outcome blake3 item
  generalize engine.onRemoteItem blake3 item = answer at houtcome ⊢
  cases houtcome with
  | ownItem horigin => exact iff_of_false nofun fun h => h.1.1 horigin
  | corrupt hbroken => exact iff_of_false nofun fun h => hbroken h.1.2.1
  | duplicate hseen => exact iff_of_false nofun fun h => h.1.2.2.1 hseen
  | stale current hcurrent hnewer =>
      exact iff_of_false nofun fun h => h.1.2.2.2 current hcurrent hnewer
  | adopted hpasses current hcurrent hhash =>
      exact iff_of_true rfl ⟨hpasses, current, hcurrent, hhash⟩
  | written hpasses hholds => exact iff_of_false nofun fun h => hholds h.2

/-- Where everything is processed, the answer is right if and only if the
clipboard holds content. -/
theorem ignoredIsThere_iff (threads : Threads) (action : Action)
    (hinv : threads.AgreesInv hasher blake3)
    (hobserved : threads.EveryChangeObserved hasher action) :
    threads.IgnoredIsThere blake3 action ↔
      threads.ArrivesOnContent blake3 action := by
  cases action with
  | receive item =>
      obtain ⟨hidle, hprocessed, _⟩ := hobserved
      have hagrees := hinv.agrees_of_idle hidle hprocessed
      have hanswer : (threads.engine.onRemoteItem blake3 item).1 =
          .ignore .alreadyOnClipboard ↔
            threads.engine.Passes blake3 item ∧ threads.engine.Holds item :=
        onRemoteItem_alreadyOnClipboard_iff threads.engine item
      constructor
      · intro hthere hpasses hholds
        obtain ⟨content, hcontent, _⟩ := hthere (hanswer.mpr ⟨hpasses, hholds⟩)
        exact Option.isSome_of_mem hcontent
      · intro harrives hignored
        obtain ⟨hpasses, current, hcurrent, hhash⟩ := hanswer.mp hignored
        obtain ⟨content, hcontent⟩ := Option.isSome_iff_exists.mp
          (harrives hpasses ⟨current, hcurrent, hhash⟩)
        exact ⟨content, hcontent,
          (hagrees current hcurrent content hcontent).symm.trans hhash⟩
  | _ => exact Iff.rfl

/-- In every run in which each change is processed before the next event, items
ignored as already on the clipboard are there if and only if none of them
arrives while the clipboard holds no content. -/
theorem ignoredIsThere_along_iff (device : DeviceId) (clipboard : Snapshot)
    (actions : List Action)
    (hobserved : (machine hasher blake3).Along (EveryChangeObserved hasher)
      (start hasher device clipboard) actions) :
    (machine hasher blake3).Along (IgnoredIsThere blake3)
        (start hasher device clipboard) actions ↔
      (machine hasher blake3).Along (ArrivesOnContent blake3)
        (start hasher device clipboard) actions :=
  Machine.along_congr ignoredIsThere_iff agreesInv_step
    (agreesInv_start device clipboard) hobserved

instance (threads : Threads) (action : Action) :
    Decidable (threads.EveryChangeObserved hasher action) := by
  apply Action.casesOn
    (motive := fun action =>
      Decidable (threads.EveryChangeObserved hasher action))
    action
  all_goals
    intros
    dsimp only [EveryChangeObserved, Observed]
    infer_instance

instance (threads : Threads) (action : Action) :
    Decidable (threads.ArrivesOnContent blake3 action) := by
  apply Action.casesOn
    (motive := fun action =>
      Decidable (threads.ArrivesOnContent blake3 action))
    action
  all_goals
    intros
    dsimp only [ArrivesOnContent]
    infer_instance

instance (threads : Threads) (action : Action) :
    Decidable (threads.IgnoredIsThere blake3 action) := by
  apply Action.casesOn
    (motive := fun action => Decidable (threads.IgnoredIsThere blake3 action))
    action
  all_goals
    intros
    dsimp only [IgnoredIsThere]
    infer_instance

/-- The user copies a text, and something replaces it before another device
copies the same text. -/
def copiedThere (replaced : List Action) : List Action :=
  [.userPut (.content (.text "text")), .takeSnapshot, .observe,
    .report ⟨⟨3⟩, 10⟩] ++ replaced ++ [.receive (remote "text" 20)]

/-- Nothing replaces the text, but the same text with a line break after it. -/
theorem ignoredIsThere_copiedThere :
    (machine shortHasher shortDigest).Along (IgnoredIsThere shortDigest)
      (start shortHasher here .empty)
      (copiedThere [.userPut (.content (.text "text\n")), .takeSnapshot,
        .observe]) :=
  (ignoredIsThere_along_iff here .empty _ (by decide)).mpr (by decide)

/-- The user clears the clipboard.  The other device's copy is ignored, and the
clipboard stays empty. -/
theorem not_ignoredIsThere_cleared :
    (machine shortHasher shortDigest).Along (EveryChangeObserved shortHasher)
        (start shortHasher here .empty)
        (copiedThere [.userPut .empty, .takeSnapshot, .observe]) ∧
      ¬ (machine shortHasher shortDigest).Along (IgnoredIsThere shortDigest)
        (start shortHasher here .empty)
        (copiedThere [.userPut .empty, .takeSnapshot, .observe]) := by
  decide

end Threads

end Cled.Desktop
