import Mathlib.Data.Set.Card
import Cled.Core.Table

/-!
# Maps that keep their insertion order

A map holds at most one value for a key.  Setting the value of a key that the
map has leaves the key where it is; a new key goes last.  The lookup lemmas say
what every key finds after each operation.
-/

namespace Cled.Core

structure InsertionMap (Key Value : Type*) where
  rows : List (Key × Value)
  unique : Table.UniqueKeys Prod.fst rows

namespace InsertionMap

variable {Key Value : Type*}

@[ext]
theorem ext {left right : InsertionMap Key Value} (hrows : left.rows = right.rows) :
    left = right := by
  cases left
  cases right
  congr

instance [DecidableEq Key] [DecidableEq Value] :
    DecidableEq (InsertionMap Key Value) := fun left right =>
  decidable_of_iff (left.rows = right.rows) ⟨ext, congrArg rows⟩

def empty : InsertionMap Key Value := ⟨[], Table.uniqueKeys_nil⟩

/-- The values in the order of their keys. -/
def values (map : InsertionMap Key Value) : List Value := map.rows.map Prod.snd

def isEmpty (map : InsertionMap Key Value) : Bool := map.rows.isEmpty

def size (map : InsertionMap Key Value) : ℕ := map.rows.length

def withValue (value : Value) (row : Key × Value) : Key × Value :=
  (row.1, value)

@[simp]
theorem fst_withValue (value : Value) (row : Key × Value) :
    (withValue value row).1 = row.1 := rfl

variable [DecidableEq Key]

def get (map : InsertionMap Key Value) (key : Key) : Option Value :=
  (Table.lookup Prod.fst map.rows key).map Prod.snd

def set (map : InsertionMap Key Value) (key : Key) (value : Value) :
    InsertionMap Key Value :=
  if hnew : Table.lookup Prod.fst map.rows key = none then
    ⟨map.rows ++ [(key, value)], map.unique.concat hnew⟩
  else
    ⟨Table.modifyFirst Prod.fst map.rows key (withValue value),
      map.unique.modifyFirst (fst_withValue value) key⟩

def delete (map : InsertionMap Key Value) (key : Key) : InsertionMap Key Value :=
  ⟨Table.without Prod.fst map.rows key, map.unique.without key⟩

@[simp]
theorem get_empty (key : Key) :
    (empty : InsertionMap Key Value).get key = none := rfl

@[simp]
theorem get_set (map : InsertionMap Key Value) (key other : Key) (value : Value) :
    (map.set key value).get other =
      if other = key then some value else map.get other := by
  unfold get set
  split
  · next hnew =>
    rw [Table.lookup_concat hnew]
    split <;> rfl
  · next hold =>
    rw [Table.lookup_modifyFirst (fst_withValue value)]
    split
    · next heq =>
      subst heq
      obtain ⟨row, hrow⟩ := Option.ne_none_iff_exists'.mp hold
      rw [hrow]
      rfl
    · rfl

@[simp]
theorem get_delete (map : InsertionMap Key Value) (key other : Key) :
    (map.delete key).get other = if other = key then none else map.get other := by
  unfold get delete
  rw [Table.lookup_without]
  split <;> rfl

theorem mem_values_iff {map : InsertionMap Key Value} {value : Value} :
    value ∈ map.values ↔ ∃ key, map.get key = some value := by
  rw [values, List.mem_map]
  constructor
  · rintro ⟨⟨key, found⟩, hmem, rfl⟩
    have hlookup := Table.lookup_of_mem map.unique hmem
    exact ⟨key, by rw [get, hlookup]; rfl⟩
  · rintro ⟨key, hget⟩
    obtain ⟨row, hrow, rfl⟩ := Option.map_eq_some_iff.mp hget
    exact ⟨row, (Table.mem_of_lookup hrow).1, rfl⟩

/-- Values that show under which key they are. -/
theorem filter_values {map : InsertionMap Key Value} {key : Key}
    {P : Value → Bool}
    (hkey : ∀ other value, map.get other = some value →
      (P value = true ↔ other = key)) :
    map.values.filter P = (map.get key).toList := by
  have hrows : map.rows.filter (fun row => P row.2) =
      map.rows.filter fun row => row.1 = key := by
    refine List.filter_congr fun row hmem => ?_
    have hget : map.get row.1 = some row.2 := by
      rw [get, Table.lookup_of_mem map.unique hmem]
      rfl
    rw [Bool.eq_iff_iff, decide_eq_true_eq]
    exact hkey row.1 row.2 hget
  calc map.values.filter P
      = (map.rows.filter fun row => P row.2).map Prod.snd := List.filter_map
    _ = (map.rows.filter fun row => row.1 = key).map Prod.snd := by rw [hrows]
    _ = (map.get key).toList := by
        rw [Table.filter_key_eq map.unique, get]
        cases Table.lookup Prod.fst map.rows key <;> rfl

theorem isEmpty_iff {map : InsertionMap Key Value} :
    map.isEmpty = true ↔ ∀ key, map.get key = none := by
  rw [isEmpty, List.isEmpty_iff]
  constructor
  · intro hrows key
    rw [get, hrows]
    rfl
  · intro hget
    by_contra hrows
    obtain ⟨row, hmem⟩ := List.exists_mem_of_ne_nil _ hrows
    have hlookup := Table.lookup_of_mem map.unique hmem
    have hnone := hget row.1
    rw [get, hlookup] at hnone
    cases hnone

theorem get_ne_none_iff {map : InsertionMap Key Value} {key : Key} :
    map.get key ≠ none ↔ key ∈ map.rows.map Prod.fst := by
  rw [get, Ne, Option.map_eq_none_iff, Table.lookup_eq_none_iff_notMem, not_not]

/-- The size is the number of keys. -/
theorem ncard_keys (map : InsertionMap Key Value) :
    {key | map.get key ≠ none}.ncard = map.size := by
  have hkeys : {key | map.get key ≠ none} =
      ↑(map.rows.map Prod.fst).toFinset := by
    ext key
    rw [List.coe_toFinset]
    exact get_ne_none_iff
  rw [hkeys, Set.ncard_coe_finset, List.toFinset_card_of_nodup map.unique,
    List.length_map, size]

end InsertionMap

end Cled.Core
