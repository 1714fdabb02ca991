import Mathlib.Data.List.Nodup
import Mathlib.Logic.Function.Basic
import Cled.Sync.Engine

/-!
# A copy made once everything has settled

All engines of a group have the same current item and nothing is on its way.
One device copies, and the copy is delivered once to each other device.  The
copying device shows its copy whatever its clock reads.  The others compare the
clock readings of the two copying devices, so the copy reaches them unless it is
older, by these, than what they show.
-/

namespace Cled.Sync

open Cled.Clipboard

/-! ## Deliveries to different places -/

section Deliveries

variable {Place Value Message : Type*} [DecidableEq Place]

/-- Each message changes the value at its own place. -/
def deliverEach (handle : Message → Value → Value)
    (values : Place → Value) (messages : List (Place × Message)) :
    Place → Value :=
  messages.foldl
    (fun values message =>
      Function.update values message.1 (handle message.2 (values message.1)))
    values

variable {handle : Message → Value → Value}

theorem deliverEach_of_notMem {messages : List (Place × Message)}
    (values : Place → Value) {place : Place}
    (hnone : place ∉ messages.map Prod.fst) :
    deliverEach handle values messages place = values place := by
  induction messages generalizing values with
  | nil => rfl
  | cons message messages ih =>
      rw [List.map_cons, List.mem_cons, not_or] at hnone
      obtain ⟨hother, hnone⟩ := hnone
      rw [deliverEach, List.foldl_cons]
      exact (ih _ hnone).trans (Function.update_of_ne hother _ _)

/-- Where one message is delivered, it finds the value as it was. -/
theorem deliverEach_of_mem {messages : List (Place × Message)}
    (values : Place → Value) (honce : (messages.map Prod.fst).Nodup)
    {place : Place} {message : Message} (hmem : (place, message) ∈ messages) :
    deliverEach handle values messages place =
      handle message (values place) := by
  induction messages generalizing values with
  | nil => contradiction
  | cons first messages ih =>
      rw [List.map_cons, List.nodup_cons] at honce
      obtain ⟨hfirst, honce⟩ := honce
      rw [deliverEach, List.foldl_cons]
      rcases List.mem_cons.mp hmem with rfl | hrest
      · exact (deliverEach_of_notMem _ hfirst).trans (Function.update_self _ _ _)
      · have hother : place ≠ first.1 := fun heq =>
          hfirst (heq ▸ List.mem_map_of_mem hrest)
        calc
          _ = handle message
              (Function.update values first.1
                (handle first.2 (values first.1)) place) := ih _ honce hrest
          _ = handle message (values place) := by
              rw [Function.update_of_ne hother]

end Deliveries

/-! ## What settling leaves alone -/

namespace SyncEngine

variable {blake3 : Blake3}

theorem settleRemote_device (engine : SyncEngine) (item : ClipboardItem)
    (stamp : Stamp) :
    (engine.settleRemote blake3 item stamp).device = engine.device := by
  have houtcome := engine.onRemoteItem_outcome blake3 item
  unfold settleRemote
  generalize engine.onRemoteItem blake3 item = answer at houtcome ⊢
  cases houtcome with
  | written hpasses _ =>
      dsimp only
      rw [onLocalChange_echo blake3 stamp rfl hpasses.2.1.symm]
  | _ => rfl

theorem settleRemote_idle {engine : SyncEngine} (item : ClipboardItem)
    (stamp : Stamp) (hidle : engine.pendingWrite = none) :
    (engine.settleRemote blake3 item stamp).pendingWrite = none := by
  have houtcome := engine.onRemoteItem_outcome blake3 item
  unfold settleRemote
  generalize engine.onRemoteItem blake3 item = answer at houtcome ⊢
  cases houtcome with
  | written hpasses _ => exact onLocalChange_pendingWrite blake3 _ _ _
  | _ => exact hidle

end SyncEngine

/-! ## The group -/

variable {n : ℕ} (blake3 : Blake3)

/-- All devices of the group have the same current item, and no write is
pending. -/
structure AllShow (engines : Fin n → SyncEngine) (current : Current) : Prop where
  devices : Function.Injective fun index => (engines index).device
  current : ∀ index, (engines index).current = some current
  idle : ∀ index, (engines index).pendingWrite = none

/-- Each device but the one at `source` gets the item once, in any order.  The
stamp of a delivery is what a new item would draw at its echo. -/
structure OnceToEachOther (source : Fin n) (deliveries : List (Fin n × Stamp)) :
    Prop where
  once : (deliveries.map Prod.fst).Nodup
  others : ∀ index, index ∈ deliveries.map Prod.fst ↔ index ≠ source

instance (engines : Fin n → SyncEngine) (current : Current) :
    Decidable (AllShow engines current) :=
  decidable_of_iff
    ((∀ left right, (engines left).device = (engines right).device →
        left = right) ∧
      (∀ index, (engines index).current = some current) ∧
        ∀ index, (engines index).pendingWrite = none)
    ⟨fun ⟨hdevices, hcurrent, hidle⟩ =>
        ⟨fun left right => hdevices left right, hcurrent, hidle⟩,
      fun ⟨hdevices, hcurrent, hidle⟩ =>
        ⟨fun _ _ heq => hdevices heq, hcurrent, hidle⟩⟩

instance (source : Fin n) (deliveries : List (Fin n × Stamp)) :
    Decidable (OnceToEachOther source deliveries) :=
  decidable_of_iff (_ ∧ _)
    ⟨fun ⟨honce, hothers⟩ => ⟨honce, hothers⟩,
      fun ⟨honce, hothers⟩ => ⟨honce, hothers⟩⟩

/-- The device at `source` copies `content`; the copy is delivered and each
write it leads to is applied and echoed. -/
def copyEverywhere (engines : Fin n → SyncEngine) (source : Fin n)
    (content : ClipboardContent) (stamp : Stamp)
    (deliveries : List (Fin n × Stamp)) : Fin n → SyncEngine :=
  match (engines source).onLocalChange blake3 content stamp with
  | (.copied item, engine) =>
      deliverEach (fun echo engine => engine.settleRemote blake3 item echo)
        (Function.update engines source engine) deliveries
  | (.echo _, engine) => Function.update engines source engine

section Settled

variable {engines : Fin n → SyncEngine} {current : Current} {source : Fin n}
  {deliveries : List (Fin n × Stamp)}

theorem onLocalChange_of_allShow (hshow : AllShow engines current)
    (source : Fin n) (content : ClipboardContent) (stamp : Stamp) :
    (engines source).onLocalChange blake3 content stamp =
      (engines source).copyLocal blake3 content stamp :=
  SyncEngine.onLocalChange_copied blake3 stamp (by simp [hshow.idle source])

theorem copyEverywhere_source (hshow : AllShow engines current)
    (honce : OnceToEachOther source deliveries) (content : ClipboardContent)
    (stamp : Stamp) :
    copyEverywhere blake3 engines source content stamp deliveries source =
      ((engines source).copyLocal blake3 content stamp).2 := by
  have hnone : source ∉ deliveries.map Prod.fst := fun hmem =>
    (honce.others source).mp hmem rfl
  rw [copyEverywhere, onLocalChange_of_allShow blake3 hshow]
  dsimp only [SyncEngine.copyLocal]
  rw [deliverEach_of_notMem _ hnone, Function.update_self]

theorem copyEverywhere_other (hshow : AllShow engines current)
    (honce : OnceToEachOther source deliveries) (content : ClipboardContent)
    (stamp : Stamp) {index : Fin n} (hother : index ≠ source) :
    ∃ echo, copyEverywhere blake3 engines source content stamp deliveries index =
      (engines index).settleRemote blake3
        (ClipboardItem.new blake3 stamp (engines source).device content)
        echo := by
  obtain ⟨⟨_, echo⟩, hmem, rfl⟩ :=
    List.mem_map.mp ((honce.others index).mpr hother)
  refine ⟨echo, ?_⟩
  rw [copyEverywhere, onLocalChange_of_allShow blake3 hshow]
  dsimp only [SyncEngine.copyLocal]
  rw [deliverEach_of_mem _ honce.once hmem, Function.update_of_ne hother]

/-- What the copying device and each other one keep, all have in the end. -/
theorem copyEverywhere_keeps (hshow : AllShow engines current)
    (honce : OnceToEachOther source deliveries) (content : ClipboardContent)
    (stamp : Stamp) (Kept : Fin n → SyncEngine → Prop)
    (hcopied : Kept source ((engines source).copyLocal blake3 content stamp).2)
    (hsettled : ∀ index item echo,
      Kept index ((engines index).settleRemote blake3 item echo))
    (index : Fin n) :
    Kept index
      (copyEverywhere blake3 engines source content stamp deliveries index) := by
  by_cases hindex : index = source
  · subst hindex
    rwa [copyEverywhere_source blake3 hshow honce]
  · obtain ⟨echo, hother⟩ :=
      copyEverywhere_other blake3 hshow honce content stamp hindex
    rw [hother]
    exact hsettled index _ echo

theorem copyEverywhere_device (hshow : AllShow engines current)
    (honce : OnceToEachOther source deliveries) (content : ClipboardContent)
    (stamp : Stamp) (index : Fin n) :
    (copyEverywhere blake3 engines source content stamp deliveries index).device =
      (engines index).device := by
  apply copyEverywhere_keeps blake3 hshow honce content stamp
    fun index after => after.device = (engines index).device
  · rfl
  · exact fun index => (engines index).settleRemote_device

theorem copyEverywhere_idle (hshow : AllShow engines current)
    (honce : OnceToEachOther source deliveries) (content : ClipboardContent)
    (stamp : Stamp) (index : Fin n) :
    (copyEverywhere blake3 engines source content stamp deliveries
      index).pendingWrite = none := by
  apply copyEverywhere_keeps blake3 hshow honce content stamp
    fun _ after => after.pendingWrite = none
  · rfl
  · exact fun index item echo =>
      SyncEngine.settleRemote_idle item echo (hshow.idle index)

/-- What another device shows is decided by the two clock readings. -/
theorem copyEverywhere_current_other (hshow : AllShow engines current)
    (honce : OnceToEachOther source deliveries) (content : ClipboardContent)
    {stamp : Stamp} (hfresh : ∀ index, stamp.id ∉ (engines index).seen.members)
    {index : Fin n} (hother : index ≠ source) :
    (copyEverywhere blake3 engines source content stamp deliveries
        index).current =
      if stamp.key < current.key then some current
      else
        some (Current.of
          (ClipboardItem.new blake3 stamp (engines source).device content)) := by
  obtain ⟨echo, hsettled⟩ :=
    copyEverywhere_other blake3 hshow honce content stamp hother
  have horigin : (engines source).device ≠ (engines index).device := fun heq =>
    hother (hshow.devices heq.symm)
  rw [hsettled]
  exact SyncEngine.settleRemote_current blake3 echo (hshow.current index)
    horigin rfl (hfresh index)

/-- A copy made once everything has settled reaches everyone if and only if its
time and ID are not below those of the item the devices show. -/
theorem copyEverywhere_allShow_iff (hshow : AllShow engines current)
    (honce : OnceToEachOther source deliveries) (content : ClipboardContent)
    {stamp : Stamp} (hfresh : ∀ index, stamp.id ∉ (engines index).seen.members) :
    AllShow (copyEverywhere blake3 engines source content stamp deliveries)
        (Current.of
          (ClipboardItem.new blake3 stamp (engines source).device content)) ↔
      current.key ≤ stamp.key ∨ ∀ index, index = source := by
  constructor
  · intro hafter
    by_contra! hneither
    obtain ⟨holder, index, hother⟩ := hneither
    have hkept := copyEverywhere_current_other blake3 hshow honce
      content hfresh hother
    rw [if_pos holder, hafter.current index] at hkept
    -- An item with the key of what the devices show would not be older.
    have hsame : stamp.key = current.key :=
      congrArg Current.key (Option.some.inj hkept)
    exact absurd hsame holder.ne
  · intro hnewer
    constructor
    case devices =>
      intro left right heq
      dsimp only at heq
      rw [copyEverywhere_device blake3 hshow honce,
        copyEverywhere_device blake3 hshow honce] at heq
      exact hshow.devices heq
    case idle => exact copyEverywhere_idle blake3 hshow honce content stamp
    case current =>
      intro index
      by_cases hindex : index = source
      · subst hindex
        rw [copyEverywhere_source blake3 hshow honce]
        rfl
      · have hnotOlder : ¬ stamp.key < current.key := by
          rcases hnewer with hle | halone
          · exact not_lt.mpr hle
          · exact absurd (halone index) hindex
        rw [copyEverywhere_current_other blake3 hshow honce content hfresh
          hindex, if_neg hnotOlder]

end Settled

/-! ## Three devices -/

/-- Devices 0, 1 and 2 show what device 0 copied when its clock read 20. -/
def afterFirst : Fin 3 → SyncEngine :=
  copyEverywhere shortDigest
    (fun index => SyncEngine.new ⟨BitVec.ofNat 128 index.val⟩) 0 (.text "first")
    ⟨⟨1⟩, 20⟩ [(2, ⟨⟨3⟩, 20⟩), (1, ⟨⟨4⟩, 20⟩)]

def first : Current :=
  { hash := ContentHash.of shortDigest (.text "first")
    createdAt := 20
    id := ⟨1⟩ }

/-- What device 1 draws for its copy, by its own clock. -/
def secondStamp (now : SystemTime) : Stamp := ⟨⟨2⟩, now⟩

def second (now : SystemTime) : Current :=
  { hash := ContentHash.of shortDigest (.text "second")
    createdAt := now
    id := ⟨2⟩ }

def toOthers : List (Fin 3 × Stamp) := [(0, ⟨⟨5⟩, 20⟩), (2, ⟨⟨6⟩, 20⟩)]

def afterSecond (now : SystemTime) : Fin 3 → SyncEngine :=
  copyEverywhere shortDigest afterFirst 1 (.text "second") (secondStamp now)
    toOthers

theorem copyEverywhere_allShow_later :
    AllShow afterFirst first ∧ AllShow (afterSecond 30) (second 30) :=
  have hshow : AllShow afterFirst first := by decide
  have honce : OnceToEachOther 1 toOthers := by decide
  have hfresh : ∀ index,
      (secondStamp 30).id ∉ (afterFirst index).seen.members := by decide
  ⟨hshow, (copyEverywhere_allShow_iff shortDigest hshow honce (.text "second")
    hfresh).mpr (Or.inl (by decide))⟩

/-- Device 1's clock is behind.  It shows its copy, and the others keep what
they have. -/
theorem not_allShow_clockBehind :
    AllShow afterFirst first ∧ OnceToEachOther 1 toOthers ∧
      (∀ index, (secondStamp 10).id ∉ (afterFirst index).seen.members) ∧
        ¬ AllShow (afterSecond 10) (second 10) ∧
          (afterSecond 10 1).current = some (second 10) ∧
            (afterSecond 10 0).current = some first := by
  decide

end Cled.Sync
