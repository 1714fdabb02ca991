import Mathlib.Data.List.Nodup
import Mathlib.Data.List.Basic

/-!
# Lists as keyed tables

A table is a list of rows, each with a key.  Rows are looked up, dropped and
changed by key; the first row with a key is the one that counts.  The lookup
lemmas say, for each operation, what every key finds afterwards.
-/

namespace Cled.Core.Table

variable {Row Key : Type*} (key : Row → Key)

def UniqueKeys (rows : List Row) : Prop := (rows.map key).Nodup

variable [DecidableEq Key]

def lookup (rows : List Row) (id : Key) : Option Row :=
  rows.find? fun row => key row = id

/-- Drops every row with the key. -/
def without (rows : List Row) (id : Key) : List Row :=
  rows.filter fun row => key row ≠ id

/-- Drops the first row with the key. -/
def removeFirst (rows : List Row) (id : Key) : List Row :=
  rows.eraseP fun row => key row = id

/-- Changes the first row with the key. -/
def modifyFirst (rows : List Row) (id : Key) (change : Row → Row) : List Row :=
  match rows with
  | [] => []
  | row :: rows =>
      if key row = id then change row :: rows
      else row :: modifyFirst rows id change

variable {key}

/-! ## Lookups -/

theorem mem_of_lookup {rows : List Row} {id : Key} {row : Row}
    (hlookup : lookup key rows id = some row) : row ∈ rows ∧ key row = id := by
  have hkey := List.find?_some hlookup
  exact ⟨List.mem_of_find?_eq_some hlookup, of_decide_eq_true hkey⟩

theorem lookup_eq_none_iff {rows : List Row} {id : Key} :
    lookup key rows id = none ↔ ∀ row ∈ rows, key row ≠ id := by
  simp [lookup, List.find?_eq_none]

theorem lookup_eq_none_iff_notMem {rows : List Row} {id : Key} :
    lookup key rows id = none ↔ id ∉ rows.map key := by
  simp [lookup_eq_none_iff]

theorem lookup_of_mem {rows : List Row} (hunique : UniqueKeys key rows)
    {row : Row} (hmem : row ∈ rows) : lookup key rows (key row) = some row := by
  induction rows with
  | nil => contradiction
  | cons first rows ih =>
      obtain ⟨hfirst, hrows⟩ := List.nodup_cons.mp hunique
      rcases List.mem_cons.mp hmem with rfl | hmem
      · simp [lookup]
      · have hne : key first ≠ key row := fun heq =>
          hfirst (heq ▸ List.mem_map_of_mem hmem)
        rw [lookup, List.find?_cons_of_neg (by simpa using hne)]
        exact ih hrows hmem

theorem filter_key_eq {rows : List Row} (hunique : UniqueKeys key rows)
    (id : Key) :
    rows.filter (fun row => key row = id) = (lookup key rows id).toList := by
  induction rows with
  | nil => rfl
  | cons first rows ih =>
      obtain ⟨hfirst, hrows⟩ := List.nodup_cons.mp hunique
      by_cases hkey : key first = id
      · have hrest : rows.filter (fun row => key row = id) = [] :=
          List.filter_eq_nil_iff.mpr fun row hmem hrow =>
            hfirst (hkey.trans (of_decide_eq_true hrow).symm ▸
              List.mem_map_of_mem hmem)
        simp [lookup, hkey, hrest]
      · have hih := ih hrows
        rw [lookup] at hih
        simp [lookup, hkey, hih]

/-- Asking for any row with a key and a property asks the one with the key. -/
theorem any_eq_true_iff {rows : List Row} (hunique : UniqueKeys key rows)
    (id : Key) (P : Row → Prop) [DecidablePred P] :
    rows.any (fun row => key row = id && P row) = true ↔
      ∃ row ∈ lookup key rows id, P row := by
  simp only [List.any_eq_true, Bool.and_eq_true, decide_eq_true_eq]
  constructor
  · rintro ⟨row, hmem, rfl, hrow⟩
    exact ⟨row, lookup_of_mem hunique hmem, hrow⟩
  · rintro ⟨row, hlookup, hrow⟩
    obtain ⟨hmem, hkey⟩ := mem_of_lookup hlookup
    exact ⟨row, hmem, hkey, hrow⟩

theorem without_of_lookup_eq_none {rows : List Row} {id : Key}
    (hnone : lookup key rows id = none) : without key rows id = rows :=
  List.filter_eq_self.mpr fun row hmem =>
    decide_eq_true (lookup_eq_none_iff.mp hnone row hmem)

theorem lookup_without (rows : List Row) (id other : Key) :
    lookup key (without key rows id) other =
      if other = id then none else lookup key rows other := by
  rw [lookup, without, List.find?_filter]
  split
  · next heq => simp [heq]
  · next hne =>
    congr 1
    funext row
    by_cases hrow : key row = other <;> simp [hrow, hne]

theorem lookup_removeFirst {rows : List Row} (hunique : UniqueKeys key rows)
    (id other : Key) :
    lookup key (removeFirst key rows id) other =
      if other = id then none else lookup key rows other := by
  induction rows with
  | nil => simp [lookup, removeFirst]
  | cons row rows ih =>
      obtain ⟨hrow, hrows⟩ := List.nodup_cons.mp hunique
      by_cases hkey : key row = id
      · rw [removeFirst, List.eraseP_cons_of_pos (by simpa using hkey)]
        split
        · next heq =>
          rw [lookup_eq_none_iff_notMem, heq, ← hkey]
          exact hrow
        · next hne =>
          have hother : key row ≠ other := fun heq => hne (heq ▸ hkey)
          simp [lookup, hother]
      · rw [removeFirst, List.eraseP_cons_of_neg (by simpa using hkey)]
        by_cases hother : key row = other
        · simp [lookup, hother, hother ▸ hkey]
        · have hrest := ih hrows
          simp only [lookup, removeFirst] at hrest ⊢
          simpa [List.find?_cons, hother] using hrest

theorem lookup_modifyFirst {change : Row → Row}
    (hchange : ∀ row, key (change row) = key row) (rows : List Row)
    (id other : Key) :
    lookup key (modifyFirst key rows id change) other =
      if other = id then (lookup key rows other).map change
      else lookup key rows other := by
  induction rows with
  | nil => simp [lookup, modifyFirst]
  | cons row rows ih =>
      simp only [lookup] at ih ⊢
      unfold modifyFirst
      by_cases hkey : key row = id
      · by_cases hother : other = id
        · simp [hkey, hchange, hother]
        · have hne : id ≠ other := Ne.symm hother
          simp [hkey, hchange, hother, hne]
      · by_cases hother : key row = other
        · simp [hother, hother ▸ hkey]
        · simpa [hkey, hother] using ih

/-- A change that leaves the first row with the key alone changes nothing. -/
theorem modifyFirst_of_lookup {change : Row → Row} {rows : List Row} {id : Key}
    {row : Row} (hlookup : lookup key rows id = some row)
    (hchange : change row = row) : modifyFirst key rows id change = rows := by
  induction rows with
  | nil => rfl
  | cons first rows ih =>
      unfold modifyFirst
      by_cases hkey : key first = id
      · have hfirst : first = row := by
          simpa [lookup, List.find?_cons, hkey] using hlookup
        rw [if_pos hkey, hfirst, hchange]
      · have hrest : lookup key rows id = some row := by
          simpa [lookup, List.find?_cons, hkey] using hlookup
        rw [if_neg hkey, ih hrest]

theorem mem_modifyFirst {change : Row → Row} {rows : List Row} {id : Key}
    {row : Row} (hmem : row ∈ modifyFirst key rows id change) :
    row ∈ rows ∨ ∃ old ∈ rows, key old = id ∧ change old = row := by
  induction rows with
  | nil => contradiction
  | cons first rows ih =>
      unfold modifyFirst at hmem
      split at hmem
      · next hkey =>
        rcases List.mem_cons.mp hmem with rfl | hrest
        · exact Or.inr ⟨first, List.mem_cons_self, hkey, rfl⟩
        · exact Or.inl (List.mem_cons_of_mem _ hrest)
      · rcases List.mem_cons.mp hmem with rfl | hrest
        · exact Or.inl List.mem_cons_self
        · refine (ih hrest).imp (List.mem_cons_of_mem _) ?_
          exact fun ⟨old, hold, hchange⟩ =>
            ⟨old, List.mem_cons_of_mem _ hold, hchange⟩

/-- Appending a row with a new key. -/
theorem lookup_concat {rows : List Row} {row : Row}
    (hnew : lookup key rows (key row) = none) (other : Key) :
    lookup key (rows ++ [row]) other =
      if other = key row then some row else lookup key rows other := by
  rw [lookup, List.find?_append]
  split
  · next heq =>
    subst heq
    have hfind : rows.find? (fun other => key other = key row) = none := hnew
    simp [hfind]
  · next hne => simp [lookup, Ne.symm hne]

theorem lookup_tail {rows : List Row} {id : Key}
    (hhead : ∀ row ∈ rows.head?, key row ≠ id) :
    lookup key rows.tail id = lookup key rows id := by
  cases rows with
  | nil => rfl
  | cons row rows =>
      refine (List.find?_cons_of_neg ?_).symm
      simpa using hhead row rfl

/-! ## Unique keys -/

omit [DecidableEq Key] in
@[simp]
theorem uniqueKeys_nil : UniqueKeys key [] := List.nodup_nil

omit [DecidableEq Key] in
theorem UniqueKeys.tail {rows : List Row} (hunique : UniqueKeys key rows) :
    UniqueKeys key rows.tail :=
  List.Nodup.sublist ((List.tail_sublist rows).map key) hunique

theorem UniqueKeys.without {rows : List Row} (hunique : UniqueKeys key rows)
    (id : Key) : UniqueKeys key (without key rows id) :=
  List.Nodup.sublist (List.filter_sublist.map key) hunique

theorem UniqueKeys.removeFirst {rows : List Row}
    (hunique : UniqueKeys key rows) (id : Key) :
    UniqueKeys key (removeFirst key rows id) :=
  List.Nodup.sublist (List.eraseP_sublist.map key) hunique

theorem map_modifyFirst {change : Row → Row}
    (hchange : ∀ row, key (change row) = key row) (rows : List Row) (id : Key) :
    (modifyFirst key rows id change).map key = rows.map key := by
  induction rows with
  | nil => rfl
  | cons row rows ih =>
      unfold modifyFirst
      split
      · simp [hchange]
      · simp [ih]

theorem UniqueKeys.modifyFirst {rows : List Row} (hunique : UniqueKeys key rows)
    {change : Row → Row} (hchange : ∀ row, key (change row) = key row)
    (id : Key) : UniqueKeys key (modifyFirst key rows id change) := by
  rw [UniqueKeys, map_modifyFirst hchange]
  exact hunique

theorem UniqueKeys.concat {rows : List Row} (hunique : UniqueKeys key rows)
    {row : Row} (hnew : lookup key rows (key row) = none) :
    UniqueKeys key (rows ++ [row]) := by
  rw [UniqueKeys, List.map_append, List.map_singleton, List.nodup_append_comm]
  exact List.nodup_cons.mpr ⟨lookup_eq_none_iff_notMem.mp hnew, hunique⟩

/-- No other row has the key of the last one. -/
theorem UniqueKeys.lookup_concat_eq_none {rows : List Row} {row : Row}
    (hunique : UniqueKeys key (rows ++ [row])) :
    lookup key rows (key row) = none := by
  rw [UniqueKeys, List.map_append, List.map_singleton,
    List.nodup_append_comm] at hunique
  exact lookup_eq_none_iff_notMem.mpr (List.nodup_cons.mp hunique).1

omit [DecidableEq Key] in
/-- Replacing the first row that has a replacement. -/
theorem map_replaceF {replacement : Row → Option Row}
    (hreplacement : ∀ row, ∀ other ∈ replacement row, key other = key row)
    (rows : List Row) : (rows.replaceF replacement).map key = rows.map key := by
  induction rows with
  | nil => rfl
  | cons row rows ih =>
      rw [List.replaceF_cons]
      cases hrow : replacement row with
      | none => simp [ih]
      | some other => simp [hreplacement row other hrow]

omit [DecidableEq Key] in
/-- If some row has a replacement, and none is its own, replacing changes the
table. -/
theorem replaceF_ne {replacement : Row → Option Row}
    (hchange : ∀ row, replacement row ≠ some row) {rows : List Row}
    (hsome : ∃ row ∈ rows, replacement row ≠ none) :
    rows.replaceF replacement ≠ rows := by
  induction rows with
  | nil => simp at hsome
  | cons row rows ih =>
      rw [List.replaceF_cons]
      cases hrow : replacement row with
      | none =>
          have htail : ∃ other ∈ rows, replacement other ≠ none := by
            simpa [hrow] using hsome
          exact fun hsame => ih htail (List.cons.inj hsame).2
      | some other =>
          intro hsame
          obtain rfl := (List.cons.inj hsame).1
          exact hchange other hrow

end Cled.Core.Table
