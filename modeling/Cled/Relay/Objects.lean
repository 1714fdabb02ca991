import Cled.Relay.Registry

/-!
# Registered connections as objects

The registry tells connections apart as objects: a connection with the same
fields as a registered one is still another connection.  Here a connection is a
reference, and `heap` gives the fields of the object it refers to, which never
change.  `ConnectionRegistry` is the case in which a connection refers to itself.
-/

namespace Cled.Relay

open Cled.Core

/-- `#users` by user and device, and `#sockets`. -/
abbrev ObjectRegistry (Ref : Type*) :=
  DoubleIndex Ref Identifier Identifier Socket

inductive Operation (Ref : Type*) where
  | add (connection : Ref)
  | remove (connection : Ref)
  | removeBySocket (socket : Socket)

namespace ObjectRegistry

variable {Ref : Type*} (heap : Ref → Connection)

def objectKeys (heap : Ref → Connection) :
    Keys Ref Identifier Identifier Socket where
  group connection := (heap connection).userId
  member connection := (heap connection).deviceId
  handle connection := (heap connection).socket

def getConnection (registry : ObjectRegistry Ref)
    (userId deviceId : Identifier) : Option Ref :=
  registry.find userId deviceId

def getBySocket (registry : ObjectRegistry Ref) (socket : Socket) : Option Ref :=
  registry.byHandle socket

/-- Answers with the connection that was replaced, or throws. -/
def add (registry : ObjectRegistry Ref) (connection : Ref) :
    Except String (Option Ref) × ObjectRegistry Ref :=
  if (registry.getBySocket (heap connection).socket).isSome then
    (.error "socket is already registered", registry)
  else
    (.ok (registry.getConnection (heap connection).userId
        (heap connection).deviceId),
      DoubleIndex.add (objectKeys heap) registry connection)

variable [DecidableEq Ref]

/-- Answers whether the connection was still registered. -/
def remove (registry : ObjectRegistry Ref) (connection : Ref) :
    Bool × ObjectRegistry Ref :=
  if registry.getBySocket (heap connection).socket ≠ some connection then
    (false, registry)
  else (true, registry.drop (objectKeys heap) connection)

/-- Answers with the connection that was registered for the socket. -/
def removeBySocket (registry : ObjectRegistry Ref) (socket : Socket) :
    Option Ref × ObjectRegistry Ref :=
  match registry.getBySocket socket with
  | some connection => (some connection, (registry.remove heap connection).2)
  | none => (none, registry)

def userCount (registry : ObjectRegistry Ref) : ℕ := registry.groups.size

def connectionCount (registry : ObjectRegistry Ref) : ℕ := registry.handles.size

def apply (registry : ObjectRegistry Ref) :
    Operation Ref → ObjectRegistry Ref
  | .add connection => (registry.add heap connection).2
  | .remove connection => (registry.remove heap connection).2
  | .removeBySocket socket => (registry.removeBySocket heap socket).2

def run (operations : List (Operation Ref)) : ObjectRegistry Ref :=
  operations.foldl (apply heap) .empty

/-! ## What the registry promises -/

/-- The connection is the one registered for its socket. -/
def Registered (registry : ObjectRegistry Ref) (connection : Ref) : Prop :=
  registry.getBySocket (heap connection).socket = some connection

/-- Two connections of the same device of the same user. -/
def SameDevice (left right : Ref) : Prop :=
  (heap left).userId = (heap right).userId ∧
    (heap left).deviceId = (heap right).deviceId

/-- What holds of the two indexes. -/
structure Consistent (registry : ObjectRegistry Ref) : Prop where
  same : ∀ connection,
    registry.getConnection (heap connection).userId (heap connection).deviceId =
        some connection ↔
      registry.Registered heap connection
  underOwnDevice : ∀ {user device connection},
    registry.getConnection user device = some connection →
      (heap connection).userId = user ∧ (heap connection).deviceId = device
  underOwnSocket : ∀ {socket connection},
    registry.getBySocket socket = some connection →
      (heap connection).socket = socket
  single : ∀ {left right}, registry.Registered heap left →
    registry.Registered heap right → SameDevice heap left right → left = right
  noEmptyUser : registry.NoEmptyGroup
  users : {user | ∃ connection, registry.Registered heap connection ∧
    (heap connection).userId = user}.ncard = registry.userCount
  connections :
    {connection | registry.Registered heap connection}.ncard =
      registry.connectionCount

/-- What holds of every operation. -/
structure Exact (registry : ObjectRegistry Ref) : Prop where
  addThrows : ∀ connection,
    registry.getBySocket (heap connection).socket ≠ none →
      registry.add heap connection =
        (.error "socket is already registered", registry)
  adds : ∀ connection,
    registry.getBySocket (heap connection).socket = none →
      ∃ replaced after, registry.add heap connection = (.ok replaced, after) ∧
        (∀ old, replaced = some old ↔
          registry.Registered heap old ∧ SameDevice heap old connection) ∧
        ∀ other, ObjectRegistry.Registered heap after other ↔
          other = connection ∨
            registry.Registered heap other ∧ replaced ≠ some other
  removes : ∀ connection, registry.Registered heap connection →
    ∃ after, registry.remove heap connection = (true, after) ∧
      ∀ other, ObjectRegistry.Registered heap after other ↔
        registry.Registered heap other ∧ other ≠ connection
  leaves : ∀ connection, ¬ registry.Registered heap connection →
    registry.remove heap connection = (false, registry)
  removesBySocket : ∀ socket connection,
    registry.getBySocket socket = some connection →
      ∃ after, registry.removeBySocket heap socket = (some connection, after) ∧
        ∀ other, ObjectRegistry.Registered heap after other ↔
          registry.Registered heap other ∧ other ≠ connection
  leavesBySocket : ∀ socket, registry.getBySocket socket = none →
    registry.removeBySocket heap socket = (none, registry)

/-! ## One operation -/

section Operations

variable {heap} {registry : ObjectRegistry Ref} {connection : Ref}

omit [DecidableEq Ref] in
theorem add_of_new
    (hnew : registry.getBySocket (heap connection).socket = none) :
    registry.add heap connection =
      (.ok (registry.getConnection (heap connection).userId
          (heap connection).deviceId),
        DoubleIndex.add (objectKeys heap) registry connection) := by
  rw [add, hnew, Option.isSome_none, if_neg Bool.false_ne_true]

omit [DecidableEq Ref] in
theorem add_of_held
    (hheld : registry.getBySocket (heap connection).socket ≠ none) :
    registry.add heap connection =
      (.error "socket is already registered", registry) := by
  rw [add, if_pos (Option.isSome_iff_ne_none.mpr hheld)]

omit [DecidableEq Ref] in
theorem registered_of_getBySocket (hagree : registry.Agree (objectKeys heap))
    {socket : Socket} (hheld : registry.getBySocket socket = some connection) :
    registry.Registered heap connection := by
  obtain rfl : (heap connection).socket = socket := hagree.handled hheld
  exact hheld

theorem remove_of_registered (hheld : registry.Registered heap connection) :
    registry.remove heap connection =
      (true, registry.drop (objectKeys heap) connection) := by
  rw [Registered] at hheld
  rw [remove, if_neg (not_not.mpr hheld)]

theorem remove_of_not_registered
    (hgone : ¬ registry.Registered heap connection) :
    registry.remove heap connection = (false, registry) := by
  rw [Registered] at hgone
  rw [remove, if_pos hgone]

theorem removeBySocket_of_held {socket : Socket}
    (hagree : registry.Agree (objectKeys heap))
    (hheld : registry.getBySocket socket = some connection) :
    registry.removeBySocket heap socket =
      (some connection, registry.drop (objectKeys heap) connection) := by
  have hremove := remove_of_registered (registered_of_getBySocket hagree hheld)
  rw [removeBySocket, hheld]
  dsimp only
  rw [hremove]

theorem removeBySocket_of_none {socket : Socket}
    (hnone : registry.getBySocket socket = none) :
    registry.removeBySocket heap socket = (none, registry) := by
  rw [removeBySocket, hnone]

theorem exact_of_agree (hagree : registry.Agree (objectKeys heap)) :
    registry.Exact heap where
  addThrows _ hheld := add_of_held hheld
  adds _ hnew :=
    ⟨_, _, add_of_new hnew, fun _ => hagree.replacedBy_eq_some_iff,
      hagree.has_add_iff hnew⟩
  removes _ hheld :=
    ⟨_, remove_of_registered hheld, DoubleIndex.has_drop_iff hheld⟩
  leaves _ hgone := remove_of_not_registered hgone
  removesBySocket _ _ hheld :=
    ⟨_, removeBySocket_of_held hagree hheld,
      DoubleIndex.has_drop_iff (registered_of_getBySocket hagree hheld)⟩
  leavesBySocket _ hnone := removeBySocket_of_none hnone

omit [DecidableEq Ref] in
theorem consistent_of_agree (hagree : registry.Agree (objectKeys heap))
    (hfull : registry.NoEmptyGroup) : registry.Consistent heap where
  same := hagree.iff
  underOwnDevice := hagree.filed
  underOwnSocket := hagree.handled
  single hleft hright hsame :=
    Option.some.inj ((hagree.replacedBy_eq_some_iff.mpr ⟨hleft, hsame⟩).symm.trans
      ((hagree.iff _).mpr hright))
  noEmptyUser := hfull
  users := by
    rw [userCount, ← hfull.ncard_groups]
    congr 1
    ext user
    constructor
    · rintro ⟨connection, hheld, rfl⟩
      exact ⟨_, connection, (hagree.iff connection).mpr hheld⟩
    · rintro ⟨device, connection, hfind⟩
      exact ⟨connection, hagree.has_of_find hfind, (hagree.filed hfind).1⟩
  connections := hagree.ncard_entries

/-- Everything an operation can leave. -/
inductive Outcome (heap : Ref → Connection) (registry : ObjectRegistry Ref) :
    ObjectRegistry Ref → Prop
  | unchanged : Outcome heap registry registry
  | added (connection : Ref)
      (hnew : registry.getBySocket (heap connection).socket = none) :
      Outcome heap registry
        (DoubleIndex.add (objectKeys heap) registry connection)
  | dropped (connection : Ref) (hheld : registry.Registered heap connection) :
      Outcome heap registry (registry.drop (objectKeys heap) connection)

theorem apply_outcome (hagree : registry.Agree (objectKeys heap))
    (operation : Operation Ref) :
    Outcome heap registry (registry.apply heap operation) := by
  cases operation with
  | add connection =>
      by_cases hnew : registry.getBySocket (heap connection).socket = none
      · rw [apply, add_of_new hnew]
        exact .added connection hnew
      · rw [apply, add_of_held hnew]
        exact .unchanged
  | remove connection =>
      by_cases hheld : registry.Registered heap connection
      · rw [apply, remove_of_registered hheld]
        exact .dropped connection hheld
      · rw [apply, remove_of_not_registered hheld]
        exact .unchanged
  | removeBySocket socket =>
      cases hheld : registry.getBySocket socket with
      | some connection =>
          rw [apply, removeBySocket_of_held hagree hheld]
          exact .dropped connection (registered_of_getBySocket hagree hheld)
      | none =>
          rw [apply, removeBySocket_of_none hheld]
          exact .unchanged

/-- What every operation keeps. -/
structure Sound (heap : Ref → Connection) (registry : ObjectRegistry Ref) :
    Prop where
  agree : registry.Agree (objectKeys heap)
  full : registry.NoEmptyGroup

theorem Sound.apply (hsound : registry.Sound heap)
    (operation : Operation Ref) : Sound heap (registry.apply heap operation) := by
  obtain ⟨hagree, hfull⟩ := hsound
  have houtcome := apply_outcome hagree operation
  generalize registry.apply heap operation = after at houtcome ⊢
  cases houtcome with
  | unchanged => exact ⟨hagree, hfull⟩
  | added connection hnew => exact ⟨hagree.add hnew, hfull.add connection⟩
  | dropped connection hheld => exact ⟨hagree.drop hheld, hfull.drop connection⟩

end Operations

/-! ## Every sequence of operations -/

theorem sound_run (operations : List (Operation Ref)) :
    Sound heap (run heap operations) := by
  induction operations using List.reverseRecOn with
  | nil => exact ⟨DoubleIndex.agree_empty, DoubleIndex.noEmptyGroup_empty⟩
  | append_singleton operations operation ih =>
      rw [run, List.foldl_concat]
      exact ih.apply operation

/-- After any operations the indexes are consistent, and every further operation
does what it promises. -/
theorem registry_exact (operations : List (Operation Ref)) :
    Consistent heap (run heap operations) ∧ Exact heap (run heap operations) := by
  have hsound := sound_run heap operations
  exact ⟨consistent_of_agree hsound.agree hsound.full,
    exact_of_agree hsound.agree⟩

end ObjectRegistry

/-! ## Connections that refer to themselves -/

namespace ConnectionRegistry

theorem add_eq_object (registry : ConnectionRegistry) (connection : Connection) :
    ObjectRegistry.add id registry.indexes.double connection =
      match registry.add connection with
      | none => (.error "socket is already registered", registry.indexes.double)
      | some (after, replaced) => (.ok replaced, after.indexes.double) := by
  cases hadd : registry.add connection with
  | none => exact ObjectRegistry.add_of_held (add_eq_none_iff.mp hadd)
  | some result =>
      obtain ⟨after, replaced⟩ := result
      obtain ⟨hnew, hindexes, rfl⟩ := add_eq_some hadd
      dsimp only
      rw [hindexes, Indexes.double_add]
      exact ObjectRegistry.add_of_new hnew

theorem remove_eq_object (registry : ConnectionRegistry)
    (connection : Connection) :
    (ObjectRegistry.remove id registry.indexes.double connection).2 =
      (registry.remove connection).indexes.double := by
  by_cases hheld :
      registry.indexes.getBySocket connection.socket = some connection
  · have hregistered : ObjectRegistry.Registered id registry.indexes.double
      connection := hheld
    rw [ObjectRegistry.remove_of_registered hregistered, remove, dif_pos hheld]
    exact (Indexes.double_drop _ _).symm
  · have hgone : ¬ ObjectRegistry.Registered id registry.indexes.double
      connection := hheld
    rw [ObjectRegistry.remove_of_not_registered hgone, remove, dif_neg hheld]

theorem removeBySocket_eq_object (registry : ConnectionRegistry)
    (socket : Socket) :
    (ObjectRegistry.removeBySocket id registry.indexes.double socket).2 =
      (registry.removeBySocket socket).indexes.double := by
  have hagree := Indexes.agree_iff_double.mp registry.agree
  rw [removeBySocket_indexes]
  cases hheld : registry.getBySocket socket with
  | some connection =>
      exact congrArg Prod.snd (ObjectRegistry.removeBySocket_of_held hagree hheld)
  | none =>
      have hnone : ObjectRegistry.getBySocket registry.indexes.double socket =
        none := hheld
      exact congrArg Prod.snd (ObjectRegistry.removeBySocket_of_none hnone)

end ConnectionRegistry

end Cled.Relay
