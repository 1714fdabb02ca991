import Cled.Core.InsertionMap

/-!
# Entries under two keys

Entries are grouped, and within a group each has a key of its own; a second index
finds them by a handle.  A new entry takes the place of the one with its keys.
The two indexes agree as long as only handles that are not in use are added, and
only entries that are there are dropped.
-/

namespace Cled.Core

/-- The keys that an entry is filed under. -/
structure Keys (Entry Group Member Handle : Type*) where
  group : Entry → Group
  member : Entry → Member
  handle : Entry → Handle

structure DoubleIndex (Entry Group Member Handle : Type*) where
  groups : InsertionMap Group (InsertionMap Member Entry)
  handles : InsertionMap Handle Entry

namespace DoubleIndex

variable {Entry Group Member Handle : Type*}

def empty : DoubleIndex Entry Group Member Handle := ⟨.empty, .empty⟩

variable [DecidableEq Group] [DecidableEq Member] [DecidableEq Handle]

def membersOf (index : DoubleIndex Entry Group Member Handle) (group : Group) :
    InsertionMap Member Entry :=
  (index.groups.get group).getD .empty

def find (index : DoubleIndex Entry Group Member Handle) (group : Group)
    (member : Member) : Option Entry :=
  (index.membersOf group).get member

def byHandle (index : DoubleIndex Entry Group Member Handle) (handle : Handle) :
    Option Entry :=
  index.handles.get handle

variable (keys : Keys Entry Group Member Handle)

/-- The entry with the keys of this one. -/
def replacedBy (index : DoubleIndex Entry Group Member Handle) (entry : Entry) :
    Option Entry :=
  index.find (keys.group entry) (keys.member entry)

def add (index : DoubleIndex Entry Group Member Handle) (entry : Entry) :
    DoubleIndex Entry Group Member Handle :=
  let handles :=
    match index.replacedBy keys entry with
    | some replaced => index.handles.delete (keys.handle replaced)
    | none => index.handles
  { groups := index.groups.set (keys.group entry)
      ((index.membersOf (keys.group entry)).set (keys.member entry) entry)
    handles := handles.set (keys.handle entry) entry }

/-- Drops the group once no members remain. -/
def drop (index : DoubleIndex Entry Group Member Handle) (entry : Entry) :
    DoubleIndex Entry Group Member Handle :=
  let members :=
    (index.membersOf (keys.group entry)).delete (keys.member entry)
  { groups :=
      if members.isEmpty then index.groups.delete (keys.group entry)
      else index.groups.set (keys.group entry) members
    handles := index.handles.delete (keys.handle entry) }

/-! ## What is found afterwards -/

theorem membersOf_add (index : DoubleIndex Entry Group Member Handle)
    (entry : Entry) (group : Group) :
    (index.add keys entry).membersOf group =
      if group = keys.group entry then
        (index.membersOf group).set (keys.member entry) entry
      else index.membersOf group := by
  rw [membersOf, add, InsertionMap.get_set]
  split
  · next heq =>
    subst heq
    rfl
  · rfl

theorem find_add (index : DoubleIndex Entry Group Member Handle) (entry : Entry)
    (group : Group) (member : Member) :
    (index.add keys entry).find group member =
      if group = keys.group entry ∧ member = keys.member entry then some entry
      else index.find group member := by
  rw [find, membersOf_add]
  by_cases hgroup : group = keys.group entry
  · by_cases hmember : member = keys.member entry <;>
      simp [hgroup, hmember, find]
  · simp [hgroup, find]

theorem byHandle_add (index : DoubleIndex Entry Group Member Handle)
    (entry : Entry) (handle : Handle) :
    (index.add keys entry).byHandle handle =
      if handle = keys.handle entry then some entry
      else if ∃ replaced ∈ index.replacedBy keys entry,
          keys.handle replaced = handle then none
      else index.byHandle handle := by
  rw [byHandle, add, InsertionMap.get_set]
  split
  · rfl
  · cases index.replacedBy keys entry with
    | none => simp [byHandle]
    | some replaced => simp [byHandle, eq_comm]

theorem membersOf_drop (index : DoubleIndex Entry Group Member Handle)
    (entry : Entry) (group : Group) :
    (index.drop keys entry).membersOf group =
      if group = keys.group entry then
        (index.membersOf group).delete (keys.member entry)
      else index.membersOf group := by
  rw [membersOf, drop]
  dsimp only
  split
  · next hempty =>
    rw [InsertionMap.get_delete]
    split
    · next heq =>
      subst heq
      apply InsertionMap.ext
      exact (List.isEmpty_iff.mp hempty).symm
    · rfl
  · rw [InsertionMap.get_set]
    split
    · next heq =>
      subst heq
      rfl
    · rfl

theorem find_drop (index : DoubleIndex Entry Group Member Handle) (entry : Entry)
    (group : Group) (member : Member) :
    (index.drop keys entry).find group member =
      if group = keys.group entry ∧ member = keys.member entry then none
      else index.find group member := by
  rw [find, membersOf_drop]
  by_cases hgroup : group = keys.group entry
  · by_cases hmember : member = keys.member entry <;>
      simp [hgroup, hmember, find]
  · simp [hgroup, find]

theorem byHandle_drop (index : DoubleIndex Entry Group Member Handle)
    (entry : Entry) (handle : Handle) :
    (index.drop keys entry).byHandle handle =
      if handle = keys.handle entry then none else index.byHandle handle :=
  InsertionMap.get_delete _ _ _

/-! ## Agreement -/

variable {keys}

/-- The entry is found by its handle. -/
def Has (keys : Keys Entry Group Member Handle)
    (index : DoubleIndex Entry Group Member Handle) (entry : Entry) : Prop :=
  index.byHandle (keys.handle entry) = some entry

/-- Every entry in one index is in the other, each under its own keys. -/
structure Agree (keys : Keys Entry Group Member Handle)
    (index : DoubleIndex Entry Group Member Handle) : Prop where
  iff : ∀ entry, index.replacedBy keys entry = some entry ↔ index.Has keys entry
  filed : ∀ {group member entry}, index.find group member = some entry →
    keys.group entry = group ∧ keys.member entry = member
  handled : ∀ {handle entry}, index.byHandle handle = some entry →
    keys.handle entry = handle

variable {index : DoubleIndex Entry Group Member Handle} {entry : Entry}

theorem agree_empty :
    (empty : DoubleIndex Entry Group Member Handle).Agree keys where
  iff _ := by simp [empty, replacedBy, find, membersOf, Has, byHandle]
  filed := by simp [empty, find, membersOf]
  handled := by simp [empty, byHandle]

/-- The entries after one that was there is dropped. -/
theorem has_drop_iff (hheld : index.Has keys entry) (other : Entry) :
    (index.drop keys entry).Has keys other ↔
      index.Has keys other ∧ other ≠ entry := by
  rw [Has, byHandle_drop]
  constructor
  · intro hother
    split at hother
    · cases hother
    · next hhandle => exact ⟨hother, fun heq => hhandle (congrArg _ heq)⟩
  · rintro ⟨hhas, hne⟩
    rw [if_neg]
    · exact hhas
    · intro hsame
      rw [Has, hsame, hheld] at hhas
      exact hne (Option.some.inj hhas).symm

namespace Agree

theorem has_of_find (hagree : index.Agree keys) {group : Group} {member : Member}
    (hfind : index.find group member = some entry) : index.Has keys entry := by
  obtain ⟨rfl, rfl⟩ := hagree.filed hfind
  exact (hagree.iff entry).mp hfind

/-- What has the keys of a new entry is what it replaces. -/
theorem replacedBy_eq_some_iff (hagree : index.Agree keys) {replaced : Entry} :
    index.replacedBy keys entry = some replaced ↔
      index.Has keys replaced ∧ keys.group replaced = keys.group entry ∧
        keys.member replaced = keys.member entry := by
  constructor
  · intro hreplaced
    exact ⟨hagree.has_of_find hreplaced, hagree.filed hreplaced⟩
  · rintro ⟨hhas, hgroup, hmember⟩
    have hself := (hagree.iff replaced).mpr hhas
    rw [replacedBy, hgroup, hmember] at hself
    exact hself

/-- The entries after a new one is added, under a handle not in use. -/
theorem has_add_iff (hagree : index.Agree keys)
    (hnew : index.byHandle (keys.handle entry) = none) (other : Entry) :
    (index.add keys entry).Has keys other ↔
      other = entry ∨
        index.Has keys other ∧ index.replacedBy keys entry ≠ some other := by
  rw [Has, byHandle_add]
  constructor
  · intro hother
    split at hother
    · exact .inl (Option.some.inj hother).symm
    · split at hother
      · cases hother
      · next hkept =>
        exact .inr ⟨hother, fun hreplaced => hkept ⟨other, hreplaced, rfl⟩⟩
  · rintro (rfl | ⟨hhas, hkept⟩)
    · exact if_pos rfl
    · rw [if_neg, if_neg]
      · exact hhas
      · rintro ⟨replaced, hreplaced, hsame⟩
        have hheld := hagree.has_of_find hreplaced
        rw [Has, hsame, hhas, Option.some.injEq] at hheld
        exact hkept (hheld ▸ hreplaced)
      · intro hsame
        rw [Has, hsame, hnew] at hhas
        cases hhas

theorem add (hagree : index.Agree keys)
    (hnew : index.byHandle (keys.handle entry) = none) :
    (index.add keys entry).Agree keys where
  iff other := by
    rw [hagree.has_add_iff hnew, replacedBy, find_add]
    split
    · next hsame =>
      rw [Option.some.injEq]
      constructor
      · exact fun heq => .inl heq.symm
      · rintro (rfl | ⟨hhas, hkept⟩)
        · rfl
        · exact absurd (hagree.replacedBy_eq_some_iff.mpr ⟨hhas, hsame⟩) hkept
    · next hother =>
      refine (hagree.iff other).trans ⟨fun hhas => .inr ⟨hhas, ?_⟩, ?_⟩
      · exact fun hreplaced =>
          hother (hagree.replacedBy_eq_some_iff.mp hreplaced).2
      · rintro (rfl | ⟨hhas, _⟩)
        · exact absurd ⟨rfl, rfl⟩ hother
        · exact hhas
  filed := by
    intro group member other hother
    rw [find_add] at hother
    split at hother
    · next hsame =>
      obtain rfl := Option.some.inj hother
      exact ⟨hsame.1.symm, hsame.2.symm⟩
    · exact hagree.filed hother
  handled := by
    intro handle other hother
    rw [byHandle_add] at hother
    split at hother
    · next hsame =>
      obtain rfl := Option.some.inj hother
      exact hsame.symm
    · split at hother
      · cases hother
      · exact hagree.handled hother

theorem drop (hagree : index.Agree keys) (hheld : index.Has keys entry) :
    (index.drop keys entry).Agree keys where
  iff other := by
    rw [has_drop_iff hheld, replacedBy, find_drop]
    split
    · next hsame =>
      refine ⟨nofun, fun ⟨hhas, hne⟩ => ?_⟩
      have hother := (hagree.iff other).mpr hhas
      rw [replacedBy, hsame.1, hsame.2] at hother
      exact absurd (Option.some.inj (hother.symm.trans
        ((hagree.iff entry).mpr hheld))) hne
    · next hother =>
      refine (hagree.iff other).trans ⟨fun hhas => ⟨hhas, ?_⟩, And.left⟩
      rintro rfl
      exact hother ⟨rfl, rfl⟩
  filed := by
    intro group member other hother
    rw [find_drop] at hother
    split at hother
    · cases hother
    · exact hagree.filed hother
  handled := by
    intro handle other hother
    rw [byHandle_drop] at hother
    split at hother
    · cases hother
    · exact hagree.handled hother

end Agree

/-! ## Groups without members -/

def NoEmptyGroup (index : DoubleIndex Entry Group Member Handle) : Prop :=
  ∀ group members, index.groups.get group = some members →
    members.isEmpty = false

omit [DecidableEq Member] [DecidableEq Handle] in
theorem noEmptyGroup_empty :
    (empty : DoubleIndex Entry Group Member Handle).NoEmptyGroup := nofun

theorem NoEmptyGroup.add (hfull : index.NoEmptyGroup) (entry : Entry) :
    (index.add keys entry).NoEmptyGroup := by
  intro group members hmembers
  rw [DoubleIndex.add, InsertionMap.get_set] at hmembers
  split at hmembers
  · obtain rfl := Option.some.inj hmembers
    rw [Bool.eq_false_iff, Ne, InsertionMap.isEmpty_iff]
    intro hempty
    have hself := hempty (keys.member entry)
    rw [InsertionMap.get_set, if_pos rfl] at hself
    cases hself
  · exact hfull group members hmembers

theorem NoEmptyGroup.drop (hfull : index.NoEmptyGroup) (entry : Entry) :
    (index.drop keys entry).NoEmptyGroup := by
  intro group members hmembers
  rw [DoubleIndex.drop] at hmembers
  dsimp only at hmembers
  split at hmembers
  · rw [InsertionMap.get_delete] at hmembers
    split at hmembers
    · cases hmembers
    · exact hfull group members hmembers
  · next hrest =>
    rw [InsertionMap.get_set] at hmembers
    split at hmembers
    · obtain rfl := Option.some.inj hmembers
      exact Bool.eq_false_iff.mpr hrest
    · exact hfull group members hmembers

/-! ## Counting -/

omit [DecidableEq Handle] in
/-- There are as many groups as groups that an entry is in. -/
theorem NoEmptyGroup.ncard_groups (hfull : index.NoEmptyGroup) :
    {group | ∃ member entry, index.find group member = some entry}.ncard =
      index.groups.size := by
  rw [← InsertionMap.ncard_keys]
  congr 1
  ext group
  rw [Set.mem_ofPred_eq, Set.mem_ofPred_eq, Option.ne_none_iff_exists']
  constructor
  · rintro ⟨member, entry, hfind⟩
    cases hmembers : index.groups.get group with
    | none =>
        rw [find, membersOf, hmembers] at hfind
        cases hfind
    | some members => exact ⟨members, rfl⟩
  · rintro ⟨members, hmembers⟩
    have hsome := hfull group members hmembers
    rw [Bool.eq_false_iff, Ne, InsertionMap.isEmpty_iff, not_forall] at hsome
    obtain ⟨member, hmember⟩ := hsome
    obtain ⟨entry, hentry⟩ := Option.ne_none_iff_exists'.mp hmember
    refine ⟨member, entry, ?_⟩
    rw [find, membersOf, hmembers]
    exact hentry

/-- There are as many handles as entries. -/
theorem Agree.ncard_entries (hagree : index.Agree keys) :
    {entry | index.Has keys entry}.ncard = index.handles.size := by
  have hhandles : keys.handle '' {entry | index.Has keys entry} =
      {handle | index.handles.get handle ≠ none} := by
    ext handle
    constructor
    · rintro ⟨entry, hhas, rfl⟩
      exact Option.ne_none_iff_exists'.mpr ⟨entry, hhas⟩
    · intro hheld
      obtain ⟨entry, hentry⟩ := Option.ne_none_iff_exists'.mp hheld
      obtain rfl := hagree.handled hentry
      exact ⟨entry, hentry, rfl⟩
  have hinj : Set.InjOn keys.handle {entry | index.Has keys entry} := by
    intro entry hhas other hother heq
    rw [Set.mem_ofPred_eq, Has, heq] at hhas
    exact Option.some.inj (hhas.symm.trans hother)
  rw [← InsertionMap.ncard_keys, ← hhandles, hinj.ncard_image]

end DoubleIndex

end Cled.Core
