import Mathlib.Data.List.Induction
import Mathlib.Data.List.Nodup
import Mathlib.Data.List.Sort

/-!
# Ranked lists

A list without repetitions keeps each item where it came first.  Sorting it by
insertion is stable: items that the order does not tell apart stay as they were.
-/

namespace Cled.Core

variable {A : Type*}

/-! ## First occurrences -/

section KeepFirst

variable [DecidableEq A]

/-- The items of a list, each where it comes first. -/
def keepFirst (list : List A) : List A :=
  list.foldl (fun kept item => if item ∈ kept then kept else kept ++ [item]) []

/-- Each of these that is not there yet, in turn. -/
def addNew (known items : List A) : List A :=
  items.foldl (fun known item => if item ∈ known then known else known ++ [item])
    known

theorem keepFirst_concat (list : List A) (item : A) :
    keepFirst (list ++ [item]) =
      if item ∈ keepFirst list then keepFirst list
      else keepFirst list ++ [item] := by
  rw [keepFirst, List.foldl_append]
  rfl

@[simp]
theorem mem_keepFirst {list : List A} {item : A} :
    item ∈ keepFirst list ↔ item ∈ list := by
  induction list using List.reverseRecOn with
  | nil => rfl
  | append_singleton list last ih =>
      rw [keepFirst_concat, List.mem_append, List.mem_singleton, ← ih]
      split
      · next hlast =>
        refine ⟨.inl, fun hmem => hmem.elim id ?_⟩
        rintro rfl
        exact hlast
      · rw [List.mem_append, List.mem_singleton]

/-- The items come in the order of their first occurrence. -/
theorem pairwise_keepFirst (list : List A) :
    (keepFirst list).Pairwise fun a b => list.idxOf a < list.idxOf b := by
  induction list using List.reverseRecOn with
  | nil => exact .nil
  | append_singleton list last ih =>
      have hfront : ∀ item ∈ keepFirst list,
          (list ++ [last]).idxOf item = list.idxOf item :=
        fun item hmem => List.idxOf_append_of_mem (mem_keepFirst.mp hmem)
      have hkept : (keepFirst list).Pairwise fun a b =>
          (list ++ [last]).idxOf a < (list ++ [last]).idxOf b := by
        refine ih.imp_of_mem fun ha hb hlt => ?_
        rwa [hfront _ ha, hfront _ hb]
      rw [keepFirst_concat]
      split
      · exact hkept
      · next hnew =>
        refine List.pairwise_append.mpr ⟨hkept, List.pairwise_singleton _ _, ?_⟩
        intro item hmem other hother
        obtain rfl := List.mem_singleton.mp hother
        have hnotMem : other ∉ list := fun h => hnew (mem_keepFirst.mpr h)
        rw [hfront item hmem, List.idxOf_append_of_notMem hnotMem]
        exact Nat.lt_add_right _
          (List.idxOf_lt_length_of_mem (mem_keepFirst.mp hmem))

theorem nodup_keepFirst (list : List A) : (keepFirst list).Nodup := by
  refine (pairwise_keepFirst list).imp fun hlt heq => ?_
  rw [heq] at hlt
  exact Nat.lt_irrefl _ hlt

theorem keepFirst_append (front back : List A) :
    keepFirst (front ++ back) = addNew (keepFirst front) back :=
  List.foldl_append

/-- Items that come again may come only once before they are mapped. -/
theorem keepFirst_map {B : Type*} [DecidableEq B] (f : A → B)
    (list : List A) :
    keepFirst ((keepFirst list).map f) = keepFirst (list.map f) := by
  induction list using List.reverseRecOn with
  | nil => rfl
  | append_singleton list last ih =>
      rw [keepFirst_concat, List.map_append, List.map_singleton, keepFirst_concat]
      split
      · next hmem =>
        have hmapped : f last ∈ keepFirst (list.map f) :=
          mem_keepFirst.mpr (List.mem_map_of_mem (mem_keepFirst.mp hmem))
        rw [if_pos hmapped, ih]
      · rw [List.map_append, List.map_singleton, keepFirst_concat, ih]

end KeepFirst

/-! ## Stable sorting -/

section Stable

variable {order : A → A → Prop} [DecidableRel order] {before : A → A → Prop}

/-- In order, and in the given order where that does not tell. -/
def Ranked (order before : A → A → Prop) (a b : A) : Prop :=
  order a b ∧ (order b a → before a b)

theorem pairwise_orderedInsert [IsTrans A order] [Std.Total order] {item : A}
    {list : List A} (hlist : list.Pairwise (Ranked order before))
    (hitem : ∀ other ∈ list, before item other) :
    (list.orderedInsert order item).Pairwise (Ranked order before) := by
  induction list with
  | nil => exact List.pairwise_singleton _ _
  | cons first rest ih =>
      obtain ⟨hfirst, hrest⟩ := List.pairwise_cons.mp hlist
      rw [List.orderedInsert_cons]
      split
      · next hle =>
        refine List.pairwise_cons.mpr ⟨fun other hother => ?_, hlist⟩
        refine ⟨?_, fun _ => hitem other hother⟩
        rcases List.mem_cons.mp hother with rfl | hmem
        · exact hle
        · exact IsTrans.trans _ _ _ hle (hfirst other hmem).1
      · next hnot =>
        have hback : order first item :=
          (total_of order first item).resolve_right hnot
        refine List.pairwise_cons.mpr ⟨fun other hother => ?_, ?_⟩
        · rcases (List.mem_orderedInsert order).mp hother with rfl | hmem
          · exact ⟨hback, fun hle => absurd hle hnot⟩
          · exact hfirst other hmem
        · exact ih hrest fun other hmem =>
            hitem other (List.mem_cons_of_mem first hmem)

/-- Sorting keeps what comes before what, unless the order says otherwise. -/
theorem pairwise_insertionSort_stable [IsTrans A order] [Std.Total order]
    {list : List A} (hbefore : list.Pairwise before) :
    (list.insertionSort order).Pairwise (Ranked order before) := by
  induction list with
  | nil => exact .nil
  | cons first rest ih =>
      obtain ⟨hfirst, hrest⟩ := List.pairwise_cons.mp hbefore
      rw [List.insertionSort_cons]
      refine pairwise_orderedInsert (ih hrest) fun other hmem => ?_
      exact hfirst other ((List.mem_insertionSort order).mp hmem)

end Stable

end Cled.Core
