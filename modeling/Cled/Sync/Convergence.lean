import Mathlib.Data.Finset.Max
import Cled.Sync.Simulation

/-!
# Convergence of the sync rules

A device is settled on a set of items when its engine's current item is the
newest of them, its clipboard has that item's content hash and no write is
pending.  Copies and deliveries keep every device settled on the items it has
copied or been delivered, so once everything is delivered all devices agree.
-/

namespace Cled.Sync

open Cled.Clipboard Cled.Core

variable {n : ℕ} (blake3 : Blake3)

/-- `device` has heard of exactly the items in `known` and shows the newest. -/
structure Settled (known : Set ClipboardItem) (device : Device) : Prop where
  idle : device.engine.pendingWrite = none
  board : device.clipboard.map (ContentHash.of blake3) =
    device.engine.current.map Current.hash
  newest : ∃ newest, IsNewest ClipboardItem.key known newest ∧
    device.engine.current = newest.map Current.of
  seen : ∀ id ∈ device.engine.seen.members, ∃ item ∈ known, item.id = id

namespace Settled

variable {blake3}

/-- An engine's `seen` set stays within the known items when an item joins
both. -/
theorem seen_insert {known : Set ClipboardItem} {seen : RecentSet ItemId}
    (hseen : ∀ id ∈ seen.members, ∃ item ∈ known, item.id = id)
    (item : ClipboardItem) :
    ∀ id ∈ (seen.insert item.id).2.members,
      ∃ other ∈ insert item known, other.id = id := by
  intro id hid
  rcases RecentSet.mem_of_mem_insert hid with rfl | hid
  · exact ⟨item, Set.mem_insert _ _, rfl⟩
  · obtain ⟨other, hother, hotherId⟩ := hseen id hid
    exact ⟨other, Set.mem_insert_of_mem _ hother, hotherId⟩

/-- A changed clipboard on a settled device is a new copy, and the device is
settled on one item more. -/
theorem setClipboard {known : Set ClipboardItem} {device : Device}
    {content : ClipboardContent} {stamp : Stamp}
    (hsettled : Settled blake3 known device)
    (hchange : device.clipboard ≠ some content)
    (hstamp : ∀ current ∈ device.engine.current, current.key < stamp.key) :
    let item := ClipboardItem.new blake3 stamp device.engine.device content
    let result := device.setClipboard blake3 content stamp
    result.1 = some (.copied item) ∧
      result.2.engine.device = device.engine.device ∧
      Settled blake3 (insert item known) result.2 := by
  intro item result
  have hresult : result = (some (.copied item),
      { device with
        clipboard := some content
        engine := (device.engine.copyLocal blake3 content stamp).2 }) := by
    simp only [result, Device.setClipboard, if_neg hchange]
    rw [SyncEngine.onLocalChange_copied blake3 stamp
      (by simp [hsettled.idle])]
    rfl
  obtain ⟨newest, hnewest, hcurrent⟩ := hsettled.newest
  rw [hresult]
  refine ⟨rfl, rfl, rfl, rfl, ⟨some item, ?_, rfl⟩,
    seen_insert hsettled.seen item⟩
  apply hnewest.insert_newer
  intro value hvalue
  have hmem : Current.of value ∈ device.engine.current := by
    rw [hcurrent]
    exact Option.mem_map_of_mem _ hvalue
  exact (hstamp _ hmem).le

/-- The write of an accepted item changes the clipboard and comes back as an
echo. -/
theorem setClipboard_written {known : Set ClipboardItem} {device : Device}
    {item : ClipboardItem} (stamp : Stamp)
    (hsettled : Settled blake3 known device) (hintact : item.IsIntact blake3)
    (hholds : ¬ device.engine.Holds item)
    (seen : RecentSet ItemId) (writes : ℕ) :
    ({ device with
        engine := { device.engine with seen, pendingWrite := some item }
        writes } : Device).setClipboard blake3 item.content stamp =
      (some (.echo item),
        { engine :=
            { device.engine with
              seen, pendingWrite := none, current := some (Current.of item) }
          clipboard := some item.content
          writes }) := by
  have hchange : device.clipboard ≠ some item.content := by
    intro hsame
    have hboard := hsettled.board
    rw [hsame, Option.map_some] at hboard
    obtain ⟨current, hcurrent, heq⟩ := Option.map_eq_some_iff.mp hboard.symm
    exact hholds ⟨current, hcurrent, heq.trans hintact⟩
  simp only [Device.setClipboard, if_neg hchange]
  rw [SyncEngine.onLocalChange_echo blake3 stamp rfl hintact.symm]

/-- A delivery is never answered with a new copy, and the device is settled on
the delivered item too. -/
theorem receive {known : Set ClipboardItem} {device : Device}
    {item : ClipboardItem} (stamp : Stamp)
    (hsettled : Settled blake3 known device) (hintact : item.IsIntact blake3)
    (horigin : item.origin ≠ device.engine.device)
    (hunique : ∀ other ∈ known, other.id = item.id → other = item) :
    let result := device.receive blake3 item stamp
    copiedItem result.1 = [] ∧
      result.2.engine.device = device.engine.device ∧
      Settled blake3 (insert item known) result.2 := by
  intro result
  obtain ⟨newest, hnewest, hcurrent⟩ := hsettled.newest
  have houtcome := device.engine.onRemoteItem_outcome blake3 item
  simp only [result, Device.receive]
  generalize device.engine.onRemoteItem blake3 item = answer at houtcome ⊢
  cases houtcome with
  | ownItem hown => exact absurd hown horigin
  | corrupt hbroken => exact absurd hintact hbroken
  | duplicate hseen =>
      -- A remembered ID belongs to a known item, hence to this one.
      obtain ⟨other, hother, hid⟩ := hsettled.seen _ hseen
      have hknown : insert item known = known :=
        Set.insert_eq_of_mem (hunique other hother hid ▸ hother)
      exact ⟨rfl, rfl, hknown.symm ▸ hsettled⟩
  | stale current hstale hnewer =>
      obtain ⟨value, rfl, rfl⟩ := Option.map_eq_some_iff.mp
        (hcurrent.symm.trans hstale)
      refine ⟨rfl, rfl, hsettled.idle, hsettled.board, ⟨_, ?_, hcurrent⟩,
        seen_insert hsettled.seen item⟩
      exact hnewest.insert_older (le_of_lt hnewer)
  | adopted hpasses current hadopted hhash =>
      obtain ⟨value, rfl, rfl⟩ := Option.map_eq_some_iff.mp
        (hcurrent.symm.trans hadopted)
      refine ⟨rfl, rfl, hsettled.idle, ?_, ⟨some item, ?_, rfl⟩,
        seen_insert hsettled.seen item⟩
      · rw [hsettled.board, hadopted]
        exact congrArg some hhash
      · apply hnewest.insert_newer
        rintro _ ⟨rfl⟩
        exact not_lt.mp (hpasses.2.2.2 _ hadopted)
  | written hpasses hholds =>
      dsimp only
      rw [setClipboard_written stamp hsettled hintact hholds]
      refine ⟨rfl, rfl, rfl, ?_, ⟨some item, ?_, rfl⟩,
        seen_insert hsettled.seen item⟩
      · exact congrArg some hintact
      · apply hnewest.insert_newer
        intro value hvalue
        have hmem : Current.of value ∈ device.engine.current := by
          rw [hcurrent]
          exact Option.mem_map_of_mem _ hvalue
        exact not_lt.mp (hpasses.2.2.2 _ hmem)

end Settled

/-! ## The whole network -/

namespace Simulation

variable {blake3}

/-- What a device has heard of: its own copies and what it was delivered. -/
def known (ids : Fin n → DeviceId) (sim : Simulation n) (index : Fin n) :
    Set ClipboardItem :=
  {item | (item ∈ sim.copied ∧ item.origin = ids index) ∨
    (index, item) ∈ sim.delivered}

structure Inv (blake3 : Blake3) (ids : Fin n → DeviceId)
    (sim : Simulation n) : Prop where
  device : ∀ index, (sim.network.devices index).engine.device = ids index
  settled : ∀ index,
    Settled blake3 (sim.known ids index) (sim.network.devices index)
  intact : ∀ item ∈ sim.copied, item.IsIntact blake3
  unique : ∀ left ∈ sim.copied, ∀ right ∈ sim.copied,
    left.id = right.id → left = right
  flying : ∀ index item, (index, item) ∈ sim.network.inFlight →
    item ∈ sim.copied ∧ item.origin ≠ ids index
  heard : ∀ index item, (index, item) ∈ sim.delivered → item ∈ sim.copied
  count : sim.copied.length = sim.userChanges

theorem known_subset {ids : Fin n → DeviceId} {sim : Simulation n}
    (hinv : sim.Inv blake3 ids) (index : Fin n) :
    ∀ item ∈ sim.known ids index, item ∈ sim.copied := by
  rintro item (⟨hmem, _⟩ | hmem)
  · exact hmem
  · exact hinv.heard index item hmem

theorem inv_new (ids : Fin n → DeviceId) : (new ids).Inv blake3 ids where
  device _ := rfl
  settled index :=
    { idle := rfl
      board := rfl
      newest := ⟨none, by
        simp only [IsNewest, known, new, List.not_mem_nil, false_and,
          or_self, Set.ofPred_false], rfl⟩
      seen := fun _ hid => absurd hid (Finset.notMem_empty _) }
  intact _ hmem := absurd hmem List.not_mem_nil
  unique _ hmem := absurd hmem List.not_mem_nil
  flying _ _ hmem := absurd hmem List.not_mem_nil
  heard _ _ hmem := absurd hmem List.not_mem_nil
  count := rfl

/-- A user copy that leaves the clipboard as it is changes nothing. -/
theorem afterCopy_same {sim : Simulation n} {index : Fin n}
    {content : ClipboardContent} (stamp : Stamp)
    (hsame : (sim.network.devices index).clipboard = some content) :
    sim.afterCopy blake3 index content stamp = sim := by
  simp [afterCopy, Device.setClipboard, hsame, Network.update, copiedItem]

section Known

variable {ids : Fin n → DeviceId} {sim next : Simulation n} {index : Fin n}
variable {item : ClipboardItem}

theorem known_copied_self (hcopied : next.copied = sim.copied ++ [item])
    (hdelivered : next.delivered = sim.delivered)
    (horigin : item.origin = ids index) :
    next.known ids index = insert item (sim.known ids index) := by
  ext candidate
  simp only [known, hcopied, hdelivered, Set.mem_ofPred_eq, Set.mem_insert_iff,
    List.mem_append, List.mem_singleton]
  constructor
  · rintro (⟨hmem | rfl, hcandidate⟩ | hmem)
    · exact Or.inr (Or.inl ⟨hmem, hcandidate⟩)
    · exact Or.inl rfl
    · exact Or.inr (Or.inr hmem)
  · rintro (rfl | ⟨hmem, hcandidate⟩ | hmem)
    · exact Or.inl ⟨Or.inr rfl, horigin⟩
    · exact Or.inl ⟨Or.inl hmem, hcandidate⟩
    · exact Or.inr hmem

theorem known_copied_other (hcopied : next.copied = sim.copied ++ [item])
    (hdelivered : next.delivered = sim.delivered)
    (horigin : item.origin ≠ ids index) :
    next.known ids index = sim.known ids index := by
  ext candidate
  simp only [known, hcopied, hdelivered, Set.mem_ofPred_eq, List.mem_append,
    List.mem_singleton]
  constructor
  · rintro (⟨hmem | rfl, hcandidate⟩ | hmem)
    · exact Or.inl ⟨hmem, hcandidate⟩
    · exact absurd hcandidate horigin
    · exact Or.inr hmem
  · rintro (⟨hmem, hcandidate⟩ | hmem)
    · exact Or.inl ⟨Or.inl hmem, hcandidate⟩
    · exact Or.inr hmem

theorem known_delivered_self (hcopied : next.copied = sim.copied)
    (hdelivered : next.delivered = (index, item) :: sim.delivered) :
    next.known ids index = insert item (sim.known ids index) := by
  ext candidate
  simp only [known, hcopied, hdelivered, Set.mem_ofPred_eq, Set.mem_insert_iff,
    List.mem_cons, Prod.mk.injEq, true_and]
  tauto

theorem known_delivered_other {other : Fin n} (hother : other ≠ index)
    (hcopied : next.copied = sim.copied)
    (hdelivered : next.delivered = (index, item) :: sim.delivered) :
    next.known ids other = sim.known ids other := by
  ext candidate
  simp [known, hcopied, hdelivered, hother]

end Known

/-- A user copy that changes the clipboard is broadcast. -/
theorem inv_afterCopy {ids : Fin n → DeviceId} {sim : Simulation n}
    {index : Fin n} {content : ClipboardContent} {stamp : Stamp}
    (hids : Function.Injective ids) (hinv : sim.Inv blake3 ids)
    (hstamp : sim.FreshStamp index stamp)
    (hchange : (sim.network.devices index).clipboard ≠ some content) :
    (sim.afterCopy blake3 index content stamp).Inv blake3 ids := by
  obtain ⟨hanswer, hdevice, hsettled⟩ :=
    (hinv.settled index).setClipboard hchange hstamp.2
  set item := ClipboardItem.new blake3 stamp
    (sim.network.devices index).engine.device content
  set next := sim.afterCopy blake3 index content stamp with hnext
  have horigin : item.origin = ids index := hinv.device index
  have hfresh : ∀ other ∈ sim.copied, other.id ≠ item.id := hstamp.1
  have hcopied : next.copied = sim.copied ++ [item] := by
    simp [hnext, afterCopy, hanswer, copiedItem]
  have hdevices : next.network.devices =
      Function.update sim.network.devices index
        ((sim.network.devices index).setClipboard blake3 content stamp).2 := by
    simp [hnext, afterCopy, Network.update, hanswer, Network.broadcast]
  have hflight : next.network.inFlight = sim.network.inFlight ++
      (Network.others index).map fun target => (target, item) := by
    simp [hnext, afterCopy, Network.update, hanswer, Network.broadcast]
  constructor
  case device =>
    rw [hdevices, Function.forall_update_iff
      (p := fun place (device : Device) => device.engine.device = ids place)]
    exact ⟨hdevice.trans (hinv.device index), fun other _ => hinv.device other⟩
  case settled =>
    rw [hdevices, Function.forall_update_iff
      (p := fun place (device : Device) =>
        Settled blake3 (next.known ids place) device)]
    refine ⟨?_, fun other hother => ?_⟩
    · rw [known_copied_self hcopied rfl horigin]
      exact hsettled
    · have hforeign : item.origin ≠ ids other :=
        fun hsame => hother (hids (horigin.symm.trans hsame)).symm
      rw [known_copied_other hcopied rfl hforeign]
      exact hinv.settled other
  case intact =>
    intro other hother
    rw [hcopied, List.mem_append, List.mem_singleton] at hother
    rcases hother with hother | rfl
    · exact hinv.intact other hother
    · exact ClipboardItem.new_isIntact blake3 _ _ _
  case unique =>
    intro left hleft right hright hid
    rw [hcopied, List.mem_append, List.mem_singleton] at hleft hright
    rcases hleft with hleft | rfl <;> rcases hright with hright | rfl
    · exact hinv.unique left hleft right hright hid
    · exact absurd hid (hfresh left hleft)
    · exact absurd hid.symm (hfresh right hright)
    · rfl
  case flying =>
    intro target other hother
    rw [hflight, List.mem_append, List.mem_map] at hother
    rw [hcopied]
    rcases hother with hother | ⟨place, hplace, heq⟩
    · obtain ⟨hmem, hne⟩ := hinv.flying target other hother
      exact ⟨List.mem_append_left _ hmem, hne⟩
    · obtain ⟨rfl, rfl⟩ := Prod.mk.inj heq
      have hne : place ≠ index := by
        simpa [Network.others] using hplace
      refine ⟨List.mem_append_right _ (List.mem_singleton_self _), ?_⟩
      rw [horigin]
      exact fun hsame => hne (hids hsame).symm
  case heard =>
    intro target other hother
    rw [hcopied]
    exact List.mem_append_left _ (hinv.heard target other hother)
  case count =>
    rw [hcopied, List.length_append, hinv.count]
    simp [hnext, afterCopy, hchange]

/-- A delivery broadcasts nothing. -/
theorem afterDelivery_copied {ids : Fin n → DeviceId} {sim : Simulation n}
    {index : Fin n} {item : ClipboardItem} (stamp : Stamp)
    (hinv : sim.Inv blake3 ids)
    (hflying : (index, item) ∈ sim.network.inFlight) :
    (sim.afterDelivery blake3 index item stamp).copied = sim.copied ∧
      (sim.afterDelivery blake3 index item stamp).Inv blake3 ids := by
  obtain ⟨hmem, hforeign⟩ := hinv.flying index item hflying
  have hunique : ∀ other ∈ sim.known ids index,
      other.id = item.id → other = item :=
    fun other hother hid =>
      hinv.unique other (known_subset hinv index other hother) item hmem hid
  obtain ⟨hnone, hdevice, hsettled⟩ := (hinv.settled index).receive stamp
    (hinv.intact item hmem) (hinv.device index ▸ hforeign) hunique
  set next := sim.afterDelivery blake3 index item stamp with hnext
  have hcopied : next.copied = sim.copied := by
    simp [hnext, afterDelivery, hnone]
  have hnetwork : next.network =
      { sim.network with
        devices := Function.update sim.network.devices index
          ((sim.network.devices index).receive blake3 item stamp).2 } := by
    simp only [hnext, afterDelivery, Network.update]
    generalize (sim.network.devices index).receive blake3 item stamp = result
      at hnone ⊢
    obtain ⟨_ | (copy | echo), device⟩ := result
    · rfl
    · simp [copiedItem] at hnone
    · rfl
  refine ⟨hcopied, ?_⟩
  constructor
  case device =>
    rw [hnetwork, Function.forall_update_iff
      (p := fun place (device : Device) => device.engine.device = ids place)]
    exact ⟨hdevice.trans (hinv.device index), fun other _ => hinv.device other⟩
  case settled =>
    rw [hnetwork, Function.forall_update_iff
      (p := fun place (device : Device) =>
        Settled blake3 (next.known ids place) device)]
    refine ⟨?_, fun other hother => ?_⟩
    · rw [known_delivered_self hcopied rfl]
      exact hsettled
    · rw [known_delivered_other hother hcopied rfl]
      exact hinv.settled other
  case intact => exact hcopied ▸ hinv.intact
  case unique => exact hcopied ▸ hinv.unique
  case flying =>
    rw [hnetwork, hcopied]
    exact hinv.flying
  case heard =>
    intro target other hother
    rw [hcopied]
    rcases List.mem_cons.mp hother with heq | hother
    · obtain ⟨rfl, rfl⟩ := Prod.mk.inj heq
      exact hmem
    · exact hinv.heard target other hother
  case count => exact hcopied ▸ hinv.count

theorem inv_step {ids : Fin n → DeviceId} (hids : Function.Injective ids)
    (sim : Simulation n) (event : Event n) (next : Simulation n)
    (hinv : sim.Inv blake3 ids)
    (hstep : (machine blake3 n).step sim event = some next) :
    next.Inv blake3 ids := by
  cases event with
  | copy index content stamp =>
      obtain ⟨hstamp, ⟨⟩⟩ := Option.ite_none_right_eq_some.mp hstep
      by_cases hsame : (sim.network.devices index).clipboard = some content
      · rw [afterCopy_same stamp hsame]
        exact hinv
      · exact inv_afterCopy hids hinv hstamp hsame
  | deliver index item stamp =>
      obtain ⟨hflying, ⟨⟩⟩ := Option.ite_none_right_eq_some.mp hstep
      exact (afterDelivery_copied stamp hinv hflying).2

/-- Each copy has been delivered at least once to each other device. -/
def EverythingDelivered (ids : Fin n → DeviceId) (sim : Simulation n) : Prop :=
  ∀ item ∈ sim.copied, ∀ index, ids index ≠ item.origin →
    (index, item) ∈ sim.delivered

instance (ids : Fin n → DeviceId) (sim : Simulation n) :
    Decidable (sim.EverythingDelivered ids) :=
  inferInstanceAs (Decidable (∀ item ∈ sim.copied, ∀ index,
    ids index ≠ item.origin → (index, item) ∈ sim.delivered))

/-- If anything was copied, every device's current item is the copy with the
greatest creation time and ID, and every clipboard holds its content. -/
def Converged (blake3 : Blake3) (sim : Simulation n) : Prop :=
  sim.copied ≠ [] →
    ∃ newest ∈ sim.copied, (∀ item ∈ sim.copied, item.key ≤ newest.key) ∧
      ∀ index,
        (sim.network.devices index).engine.current =
            some (Current.of newest) ∧
          (sim.network.devices index).clipboard.map (ContentHash.of blake3) =
            some newest.contentHash

/-- A delivery adds nothing to the copies made. -/
def DeliversSilently (blake3 : Blake3) (sim : Simulation n) (event : Event n) :
    Prop :=
  ∀ index item stamp, event = .deliver index item stamp →
    ∀ next ∈ sim.step blake3 event, next.copied = sim.copied

theorem known_eq_copied {ids : Fin n → DeviceId} {sim : Simulation n}
    (hinv : sim.Inv blake3 ids) (hdelivered : sim.EverythingDelivered ids)
    (index : Fin n) : sim.known ids index = {item | item ∈ sim.copied} := by
  ext item
  refine ⟨known_subset hinv index item, fun hmem => ?_⟩
  by_cases horigin : ids index = item.origin
  · exact Or.inl ⟨hmem, horigin.symm⟩
  · exact Or.inr (hdelivered item hmem index horigin)

theorem converged_of_inv {ids : Fin n → DeviceId} {sim : Simulation n}
    (hinv : sim.Inv blake3 ids) (hdelivered : sim.EverythingDelivered ids) :
    sim.Converged blake3 := by
  intro hcopied
  obtain ⟨newest, hnewest, hmax⟩ := Finset.exists_max_image
    sim.copied.toFinset ClipboardItem.key (by simpa using hcopied)
  simp only [List.mem_toFinset] at hnewest hmax
  refine ⟨newest, hnewest, hmax, fun index => ?_⟩
  obtain ⟨shown, hshown, hcurrent⟩ := (hinv.settled index).newest
  rw [known_eq_copied hinv hdelivered index] at hshown
  -- Two newest copies have the same key, so they are the same copy.
  obtain ⟨value, rfl, hle⟩ := hshown.le hnewest
  have hsame : value = newest := by
    have hkey : value.key = newest.key :=
      le_antisymm (hmax value hshown.mem) hle
    exact hinv.unique value hshown.mem newest hnewest
      (ClipboardItem.id_eq_of_key_eq hkey)
  subst hsame
  refine ⟨hcurrent, ?_⟩
  rw [(hinv.settled index).board, hcurrent]
  rfl

/-- Convergence.  In every run of copies and deliveries, a state in which
everything has been delivered shows the newest copy on every device; every
`copied` result comes from a user copy that changed a clipboard, and no delivery
causes one. -/
theorem converges {ids : Fin n → DeviceId} (hids : Function.Injective ids)
    {events : List (Event n)} {final : Simulation n}
    (hrun : (machine blake3 n).run (new ids) events = some final) :
    (final.EverythingDelivered ids → final.Converged blake3) ∧
      final.copied.length = final.userChanges ∧
      (machine blake3 n).Along (DeliversSilently blake3) (new ids) events := by
  have hinv : final.Inv blake3 ids :=
    Machine.run_of_step_invariant (inv_step hids) (inv_new ids) hrun
  refine ⟨converged_of_inv hinv, hinv.count, ?_⟩
  refine Machine.along_of_step_invariant (fun sim event hsim => ?_)
    (inv_step hids) events (inv_new ids)
  rintro index item stamp rfl next hnext
  obtain ⟨hflying, ⟨⟩⟩ := Option.ite_none_right_eq_some.mp hnext
  exact (afterDelivery_copied stamp hsim hflying).1

/-- Two devices with IDs 0 and 1. -/
def twoDevices (index : Fin 2) : DeviceId := ⟨BitVec.ofNat 128 index.val⟩

theorem twoDevices_injective : Function.Injective twoDevices := by
  unfold Function.Injective
  decide

/-- Both devices copy before either hears of the other, and one of the items is
delivered twice. -/
def crossedCopies : List (Event 2) :=
  let older : Stamp := ⟨⟨7⟩, 1000⟩
  let newer : Stamp := ⟨⟨8⟩, 2000⟩
  let unused : Stamp := ⟨⟨9⟩, 3000⟩
  let first :=
    ClipboardItem.new shortDigest older (twoDevices 0) (.text "older")
  let second :=
    ClipboardItem.new shortDigest newer (twoDevices 1) (.text "newer")
  [.copy 0 first.content older, .copy 1 second.content newer,
    .deliver 1 first unused, .deliver 0 second unused, .deliver 0 second unused]

theorem converges_crossedCopies :
    ∃ final ∈ (machine shortDigest 2).run (new twoDevices) crossedCopies,
      final.copied.length = 2 ∧ final.Converged shortDigest := by
  obtain ⟨final, hrun, hlength, hdelivered⟩ :
      ∃ final ∈ (machine shortDigest 2).run (new twoDevices) crossedCopies,
        final.copied.length = 2 ∧ final.EverythingDelivered twoDevices := by
    decide
  exact ⟨final, hrun, hlength, (converges twoDevices_injective hrun).1 hdelivered⟩

end Simulation

end Cled.Sync
