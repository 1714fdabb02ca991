import Mathlib.Data.List.Induction
import Mathlib.Algebra.Order.Ring.Nat

/-!
# Big-endian numbers and pieces of a list

A length-prefixed format writes a number as a fixed count of bytes, most
significant byte first, and cuts a long list into pieces of bounded length.
This module supplies both, with what a reader needs to undo them.  Nothing here
mentions a particular format.
-/

namespace Cled.Core

/-! ## Big-endian numbers -/

/-- The `count` low bytes of `value`, most significant byte first. -/
def beBytes : ℕ → ℕ → List UInt8
  | 0, _ => []
  | count + 1, value => beBytes count (value / 256) ++ [UInt8.ofNat value]

/-- The number that big-endian bytes spell. -/
def fromBe (bytes : List UInt8) : ℕ :=
  bytes.foldl (fun value byte => value * 256 + byte.toNat) 0

@[simp]
theorem length_beBytes (count value : ℕ) :
    (beBytes count value).length = count := by
  induction count generalizing value with
  | zero => rfl
  | succ count ih => rw [beBytes, List.length_append, ih, List.length_singleton]

theorem fromBe_concat (bytes : List UInt8) (byte : UInt8) :
    fromBe (bytes ++ [byte]) = fromBe bytes * 256 + byte.toNat :=
  List.foldl_append

theorem toNat_ofNat_byte (value : ℕ) :
    (UInt8.ofNat value).toNat = value % 256 := UInt8.toNat_ofNat'

theorem fromBe_beBytes_mod (count value : ℕ) :
    fromBe (beBytes count value) = value % 256 ^ count := by
  induction count generalizing value with
  | zero => exact (Nat.mod_one value).symm
  | succ count ih =>
      rw [beBytes, fromBe_concat, ih, toNat_ofNat_byte, pow_succ,
        Nat.mul_comm (256 ^ count), Nat.mod_mul, Nat.add_comm, Nat.mul_comm]

@[simp]
theorem fromBe_beBytes {count value : ℕ} (hfits : value < 256 ^ count) :
    fromBe (beBytes count value) = value := by
  rw [fromBe_beBytes_mod, Nat.mod_eq_of_lt hfits]

@[simp]
theorem beBytes_fromBe (bytes : List UInt8) :
    beBytes bytes.length (fromBe bytes) = bytes := by
  induction bytes using List.reverseRecOn with
  | nil => rfl
  | append_singleton bytes byte ih =>
      have hbyte : byte.toNat < 256 := byte.toNat_lt
      have hfront : (fromBe bytes * 256 + byte.toNat) / 256 = fromBe bytes := by
        omega
      have hlast : UInt8.ofNat (fromBe bytes * 256 + byte.toNat) = byte := by
        apply UInt8.toNat_inj.mp
        rw [toNat_ofNat_byte]
        omega
      rw [List.length_append, List.length_singleton, beBytes, fromBe_concat,
        hfront, hlast, ih]

theorem fromBe_lt (bytes : List UInt8) : fromBe bytes < 256 ^ bytes.length := by
  rw [← beBytes_fromBe bytes, fromBe_beBytes_mod, length_beBytes]
  exact Nat.mod_lt _ (Nat.pow_pos (by decide))

/-! ## Pieces of a list -/

variable {A : Type*}

/-- At most `fuel` pieces of `size` elements from the front of the list; the
last one may be shorter. -/
def chunksUpTo (size : ℕ) : ℕ → List A → List (List A)
  | 0, _ => []
  | _, [] => []
  | fuel + 1, list => list.take size :: chunksUpTo size fuel (list.drop size)

/-- The list in pieces of `size` elements. -/
def chunks (size : ℕ) (list : List A) : List (List A) :=
  chunksUpTo size list.length list

theorem ne_nil_of_mem_chunksUpTo {size fuel : ℕ} (hsize : 0 < size)
    {list piece : List A} (hpiece : piece ∈ chunksUpTo size fuel list) :
    piece ≠ [] := by
  induction fuel generalizing list with
  | zero => cases hpiece
  | succ fuel ih =>
      cases list with
      | nil => cases hpiece
      | cons head tail =>
          rcases List.mem_cons.mp hpiece with rfl | hlater
          · obtain ⟨size, rfl⟩ := Nat.exists_eq_add_one.mpr hsize
            exact List.cons_ne_nil _ _
          · exact ih hlater

theorem ne_nil_of_mem_chunks {size : ℕ} (hsize : 0 < size)
    {list piece : List A} (hpiece : piece ∈ chunks size list) : piece ≠ [] :=
  ne_nil_of_mem_chunksUpTo hsize hpiece

/-- The first piece is cut off the front of the list. -/
theorem exists_chunks_eq_cons (size : ℕ) {list : List A} (hlist : list ≠ []) :
    ∃ later, chunks size list = list.take size :: later := by
  obtain ⟨head, tail, rfl⟩ := List.exists_cons_of_ne_nil hlist
  exact ⟨_, rfl⟩

theorem mem_chunksUpTo_length_le {size fuel : ℕ} {list piece : List A}
    (hpiece : piece ∈ chunksUpTo size fuel list) : piece.length ≤ size := by
  induction fuel generalizing list with
  | zero => cases hpiece
  | succ fuel ih =>
      cases list with
      | nil => cases hpiece
      | cons head tail =>
          rcases List.mem_cons.mp hpiece with rfl | hlater
          · exact List.length_take_le _ _
          · exact ih hlater

theorem length_le_of_mem_chunks {size : ℕ} {list piece : List A}
    (hpiece : piece ∈ chunks size list) : piece.length ≤ size :=
  mem_chunksUpTo_length_le hpiece

theorem flatten_chunksUpTo {size : ℕ} (hsize : 0 < size) {fuel : ℕ}
    {list : List A} (hfuel : list.length ≤ fuel) :
    (chunksUpTo size fuel list).flatten = list := by
  induction fuel generalizing list with
  | zero => exact (List.length_eq_zero_iff.mp (Nat.le_zero.mp hfuel)).symm
  | succ fuel ih =>
      cases list with
      | nil => rfl
      | cons head tail =>
          have hrest : ((head :: tail).drop size).length ≤ fuel := by
            rw [List.length_drop, List.length_cons] at *
            omega
          rw [chunksUpTo, List.flatten_cons, ih hrest, List.take_append_drop]
          exact List.cons_ne_nil _ _

/-- The pieces put together are the list. -/
theorem flatten_chunks {size : ℕ} (hsize : 0 < size) (list : List A) :
    (chunks size list).flatten = list :=
  flatten_chunksUpTo hsize (Nat.le_refl _)

end Cled.Core
