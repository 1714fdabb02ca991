import Mathlib.Tactic.Tauto
import Cled.Lan.Wire

/-!
# Simultaneous copies through the wire

Two devices copy before either has heard of the other.  Each then compares its
own item, with the full precision of its clock, with the other's item, whose
time the wire has rounded.  The two comparisons agree on the newer item exactly
when the copies are separated on the wire.
-/

namespace Cled.Lan

open Cled.Clipboard Cled.Sync

/-- The item that wins by creation time and ID. -/
def winner (left right : ClipboardItem) : ItemId :=
  if right.key < left.key then left.id else right.id

/-- Both engines show the winner. -/
def AgreeOnWinner (left right : ClipboardItem)
    (leftEngine rightEngine : SyncEngine) : Prop :=
  (∃ current ∈ leftEngine.current, current.id = winner left right) ∧
    ∃ current ∈ rightEngine.current, current.id = winner left right

/-- Within one wire millisecond, starting at the time both items are rounded to:
`older` is not after the start and `newer` not before it, and either `newer` has
the greater ID or neither is at the start. -/
def Straddles (older newer : ClipboardItem) : Prop :=
  let start := fromMs (toMs newer.createdAt)
  older.createdAt ≤ start ∧ start ≤ newer.createdAt ∧
    (older.id < newer.id ∨ (older.createdAt < start ∧ start < newer.createdAt))

/-- The wire keeps the order of the two items: they are the same item, or fall
in different milliseconds, or straddle the start of the one they share. -/
def SeparatedOnWire (left right : ClipboardItem) : Prop :=
  left.id = right.id ∨ toMs left.createdAt ≠ toMs right.createdAt ∨
    Straddles left right ∨ Straddles right left

instance (older newer : ClipboardItem) : Decidable (Straddles older newer) :=
  inferInstanceAs (Decidable (_ ∧ _ ∧ _))

instance (left right : ClipboardItem) :
    Decidable (SeparatedOnWire left right) :=
  inferInstanceAs (Decidable (_ ∨ _ ∨ _ ∨ _))

instance (left right : ClipboardItem) (leftEngine rightEngine : SyncEngine) :
    Decidable (AgreeOnWinner left right leftEngine rightEngine) :=
  inferInstanceAs (Decidable
    ((∃ current ∈ leftEngine.current, _) ∧
      ∃ current ∈ rightEngine.current, _))

theorem key_lt_iff (left right : ClipboardItem) :
    left.key < right.key ↔ left.createdAt < right.createdAt ∨
      (left.createdAt = right.createdAt ∧ left.id < right.id) :=
  Prod.Lex.toLex_lt_toLex

/-- The comparisons of two times that share the start of a millisecond, with
`wins` saying that the left ID is the greater one. -/
theorem sameStart_iff (start left right : ℤ) (wins : Prop) :
    ((right ≤ start ∧ start ≤ left ∧
          (wins ∨ (right < start ∧ start < left))) ∨
        (left ≤ start ∧ start ≤ right ∧
          (¬ wins ∨ (left < start ∧ start < right)))) ↔
      ((start < left ∨ (start = left ∧ wins)) ↔
          (right < left ∨ (right = left ∧ wins))) ∧
        ((start < right ∨ (start = right ∧ ¬ wins)) ↔
          ¬ (right < left ∨ (right = left ∧ wins))) := by
  by_cases hwins : wins
  · simp only [hwins, not_true_eq_false, true_or, and_true, and_false,
      or_false, false_or]
    omega
  · simp only [hwins, not_false_eq_true, true_or, and_true, and_false,
      or_false, false_or]
    omega

/-- The comparisons of a time with one of an earlier wire millisecond. -/
theorem otherStart {earlier later : SystemTime}
    (hlt : toMs earlier < toMs later) :
    earlier < later ∧ earlier < fromMs (toMs later) ∧
      fromMs (toMs earlier) < later := by
  have hstart := lt_fromMs_of_toMs_lt hlt
  have hround := fromMs_toMs_le (Nat.zero_lt_of_lt hlt)
  exact ⟨hstart.trans_le hround, hstart, (fromMs_lt hlt).trans_le hround⟩

/-- Comparing on both machines, each with the other item rounded, gives the
order of the items themselves exactly when they are separated on the wire. -/
theorem separated_iff_comparisons {left right : ClipboardItem}
    (hid : left.id ≠ right.id) :
    SeparatedOnWire left right ↔
      (((rounded right).key < left.key ↔ right.key < left.key) ∧
        ((rounded left).key < right.key ↔ ¬ right.key < left.key)) := by
  have hids : left.id < right.id ↔ ¬ right.id < left.id := by
    rw [not_lt]
    exact ⟨le_of_lt, fun hle => lt_of_le_of_ne hle hid⟩
  simp only [key_lt_iff, SeparatedOnWire, Straddles, rounded, hid, false_or,
    hids]
  rcases lt_trichotomy (toMs left.createdAt) (toMs right.createdAt) with
    hlt | heq | hlt
  · obtain ⟨hitems, hleft, hright⟩ := otherStart hlt
    simp [hlt.ne, hitems.not_gt, hitems.ne', hleft.le, hleft.ne', hright]
  · simp only [heq, ne_eq, not_true_eq_false, false_or]
    rw [or_comm]
    exact sameStart_iff _ _ _ _
  · obtain ⟨hitems, hright, hleft⟩ := otherStart hlt
    simp [hlt.ne', hitems, hleft, hright.not_gt, hright.ne']

/-! ## Both engines -/

/-- A new copy on a device: its engine before and after, and the item. -/
structure LocalCopy (blake3 : Blake3) where
  before : SyncEngine
  content : ClipboardContent
  stamp : Stamp
  item : ClipboardItem
  after : SyncEngine
  normalized : content.Normalized
  change : before.onLocalChange blake3 content stamp = (.copied item, after)

namespace LocalCopy

variable {blake3 : Blake3} (copy : LocalCopy blake3)

theorem copyLocal_eq :
    copy.before.copyLocal blake3 copy.content copy.stamp =
      (.copied copy.item, copy.after) :=
  SyncEngine.eq_copyLocal_of_copied blake3 copy.change

theorem item_eq :
    copy.item =
      ClipboardItem.new blake3 copy.stamp copy.before.device copy.content := by
  have hanswer := congrArg Prod.fst copy.copyLocal_eq
  exact (LocalChange.copied.inj hanswer).symm

theorem after_eq :
    copy.after =
      (copy.before.copyLocal blake3 copy.content copy.stamp).2 :=
  (congrArg Prod.snd copy.copyLocal_eq).symm

theorem after_current : copy.after.current = some (Current.of copy.item) := by
  rw [copy.after_eq, copy.item_eq]
  rfl

theorem after_device : copy.after.device = copy.before.device := by
  rw [copy.after_eq]
  rfl

theorem mem_after_seen {id : ItemId} (hmem : id ∈ copy.after.seen.members) :
    id = copy.item.id ∨ id ∈ copy.before.seen.members := by
  rw [copy.after_eq] at hmem
  rw [copy.item_eq]
  exact RecentSet.mem_of_mem_insert hmem

/-- Settled on another device's copy, as the wire delivers it, a device shows
that copy unless its own is newer than the rounded one. -/
theorem settled_current (other : LocalCopy blake3) (stamp : Stamp)
    (hdevices : copy.before.device ≠ other.before.device)
    (hid : other.item.id ≠ copy.item.id)
    (hunheard : other.item.id ∉ copy.before.seen.members) :
    (copy.after.settleRemote blake3 (rounded other.item) stamp).current =
      if (rounded other.item).key < copy.item.key then
        some (Current.of copy.item)
      else some (Current.of (rounded other.item)) := by
  have horigin : (rounded other.item).origin ≠ copy.after.device := by
    rw [copy.after_device, other.item_eq]
    exact hdevices.symm
  have hintact : (rounded other.item).IsIntact blake3 := by
    rw [other.item_eq]
    rfl
  have hfresh : (rounded other.item).id ∉ copy.after.seen.members :=
    fun hmem => (copy.mem_after_seen hmem).elim hid hunheard
  rw [SyncEngine.settleRemote_current blake3 stamp copy.after_current horigin
    hintact hfresh]
  rfl

/-- An item with the ID of the device's own copy changes nothing that shows. -/
theorem settled_current_id (other : ClipboardItem) (stamp : Stamp)
    (hid : other.id = copy.item.id) :
    ∃ current ∈ (copy.after.settleRemote blake3 other stamp).current,
      current.id = copy.item.id := by
  rcases SyncEngine.settleRemote_current_or blake3 other stamp
    copy.after_current with hcurrent | hcurrent
  · exact ⟨Current.of copy.item, hcurrent, rfl⟩
  · exact ⟨Current.of other, hcurrent, hid⟩

end LocalCopy

/-- A choice between two different IDs matches another choice exactly when the
conditions agree. -/
theorem exists_chosen_iff {P Q : Prop} [Decidable P] [Decidable Q]
    (own received : ClipboardItem) (hid : own.id ≠ received.id) :
    (∃ current ∈ if P then some (Current.of own)
        else some (Current.of received),
      current.id = if Q then own.id else received.id) ↔ (P ↔ Q) := by
  by_cases hP : P <;> by_cases hQ : Q <;>
    simp [hP, hQ, Current.of, hid, hid.symm]

/-- Copies made before either device has heard of the other's, sent through the
wire: both devices end up with the winner exactly when the copies are separated
on the wire. -/
theorem agree_iff_separated {blake3 : Blake3} {png : PngCodec}
    (hpng : png.Lossless) (left right : LocalCopy blake3)
    (hdevices : left.before.device ≠ right.before.device)
    (hleft : right.item.id ∉ left.before.seen.members)
    (hright : left.item.id ∉ right.before.seen.members)
    {leftReceived rightReceived : ClipboardItem}
    (hleftWire : WireItem.transfer png left.item = .ok leftReceived)
    (hrightWire : WireItem.transfer png right.item = .ok rightReceived)
    (leftEcho rightEcho : Stamp) :
    AgreeOnWinner left.item right.item
        (left.after.settleRemote blake3 rightReceived leftEcho)
        (right.after.settleRemote blake3 leftReceived rightEcho) ↔
      SeparatedOnWire left.item right.item := by
  obtain rfl : leftReceived = rounded left.item :=
    transfer_eq_rounded hpng (by rw [left.item_eq]; exact left.normalized)
      hleftWire
  obtain rfl : rightReceived = rounded right.item :=
    transfer_eq_rounded hpng (by rw [right.item_eq]; exact right.normalized)
      hrightWire
  by_cases hid : left.item.id = right.item.id
  · have hwinner : winner left.item right.item = left.item.id := by
      rw [winner, hid, ite_self]
    have hseparated : SeparatedOnWire left.item right.item := Or.inl hid
    rw [AgreeOnWinner, hwinner]
    refine iff_of_true ⟨?_, ?_⟩ hseparated
    · exact left.settled_current_id _ leftEcho hid.symm
    · rw [hid]
      exact right.settled_current_id _ rightEcho hid
  · rw [separated_iff_comparisons hid, AgreeOnWinner,
      left.settled_current right leftEcho hdevices (Ne.symm hid) hleft,
      right.settled_current left rightEcho hdevices.symm hid hright]
    have hswap : winner left.item right.item =
        if ¬ right.item.key < left.item.key then right.item.id
        else left.item.id := by
      rw [winner, ite_not]
    refine and_congr ?_ ?_
    · exact exists_chosen_iff left.item (rounded right.item) hid
    · rw [hswap]
      exact exists_chosen_iff right.item (rounded left.item) (Ne.symm hid)

/-! ## Two copies in one millisecond -/

section SameMillisecond

/-- The first copy on a device with the given number. -/
def firstCopy (number : Uuid) (body : String) (hnormal : '\r' ∉ body.toList)
    (now : SystemTime) : LocalCopy shortDigest where
  before := SyncEngine.new ⟨number⟩
  content := .text body
  stamp := ⟨⟨number⟩, now⟩
  item := ClipboardItem.new shortDigest ⟨⟨number⟩, now⟩ ⟨number⟩ (.text body)
  after := ((SyncEngine.new ⟨number⟩).copyLocal shortDigest (.text body)
    ⟨⟨number⟩, now⟩).2
  normalized := hnormal
  change := rfl

def earlier : LocalCopy shortDigest :=
  firstCopy 1 "earlier" (by decide) 5500000

def later : LocalCopy shortDigest := firstCopy 2 "later" (by decide) 5900000

/-- 0.4 ms apart and in one wire millisecond, each device keeps its own copy. -/
theorem not_agree_sameMillisecond :
    WireItem.transfer pixelCodec earlier.item = .ok (rounded earlier.item) ∧
      WireItem.transfer pixelCodec later.item = .ok (rounded later.item) ∧
      ¬ AgreeOnWinner earlier.item later.item
        (earlier.after.settleRemote shortDigest (rounded later.item)
          ⟨⟨3⟩, 7000000⟩)
        (later.after.settleRemote shortDigest (rounded earlier.item)
          ⟨⟨4⟩, 7000000⟩) :=
  ⟨by decide, by decide, by decide⟩

def nextMillisecond : LocalCopy shortDigest :=
  firstCopy 2 "later" (by decide) 6100000

theorem agree_nextMillisecond :
    AgreeOnWinner earlier.item nextMillisecond.item
      (earlier.after.settleRemote shortDigest (rounded nextMillisecond.item)
        ⟨⟨3⟩, 7000000⟩)
      (nextMillisecond.after.settleRemote shortDigest (rounded earlier.item)
        ⟨⟨4⟩, 7000000⟩) :=
  (agree_iff_separated pixelCodec_lossless earlier nextMillisecond
    (by decide) (by decide) (by decide) (by decide) (by decide) _ _).mpr
    (by decide)

end SameMillisecond

end Cled.Lan
