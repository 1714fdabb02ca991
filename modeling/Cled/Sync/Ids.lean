import Mathlib.Order.Basic
import Mathlib.Order.Lattice
import Mathlib.Data.Nat.Basic

/-!
# Device and item identifiers

Both identifiers are UUIDs.  A UUID is its 16 bytes; comparing two of them byte
by byte is comparing the big-endian numbers the bytes spell, so a UUID is
modelled by that number.
-/

namespace Cled.Sync

/-- The 16 bytes of a UUID, most significant byte first. -/
abbrev Uuid := BitVec 128

/-- Identifies one Cled installation. -/
structure DeviceId where
  uuid : Uuid
  deriving DecidableEq

/-- Identifies one clipboard item across all devices. -/
structure ItemId where
  uuid : Uuid
  deriving DecidableEq

namespace DeviceId

def fromBytes (bytes : Uuid) : DeviceId := ⟨bytes⟩

def toBytes (device : DeviceId) : Uuid := device.uuid

@[simp]
theorem fromBytes_toBytes (device : DeviceId) :
    fromBytes device.toBytes = device := rfl

theorem toNat_injective :
    Function.Injective (fun device : DeviceId => device.uuid.toNat) := by
  rintro ⟨left⟩ ⟨right⟩ heq
  exact congrArg DeviceId.mk (BitVec.eq_of_toNat_eq heq)

instance : LinearOrder DeviceId :=
  LinearOrder.lift' (fun device => device.uuid.toNat) toNat_injective

end DeviceId

namespace ItemId

def fromBytes (bytes : Uuid) : ItemId := ⟨bytes⟩

def toBytes (item : ItemId) : Uuid := item.uuid

theorem toNat_injective :
    Function.Injective (fun item : ItemId => item.uuid.toNat) := by
  rintro ⟨left⟩ ⟨right⟩ heq
  exact congrArg ItemId.mk (BitVec.eq_of_toNat_eq heq)

instance : LinearOrder ItemId :=
  LinearOrder.lift' (fun item => item.uuid.toNat) toNat_injective

end ItemId

end Cled.Sync
