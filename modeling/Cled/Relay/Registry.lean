import Cled.Core.DoubleIndex
import Cled.Relay.Tunnel

/-!
# The relay's registered connections

Connections are grouped by user and, within a user, keyed by device.  A second
index by socket lets a closing socket remove exactly its own entry.
-/

namespace Cled.Relay

open Cled.Core

/-- Sockets are told apart by identity only. -/
abbrev Socket := ℕ

/-- A registered WebSocket: one device of one user. -/
structure Connection where
  userId : Identifier
  deviceId : Identifier
  socket : Socket
  deriving DecidableEq

/-! ## The two indexes -/

structure Indexes where
  users : InsertionMap Identifier (InsertionMap Identifier Connection)
  sockets : InsertionMap Socket Connection
  deriving DecidableEq

namespace Indexes

def empty : Indexes := ⟨.empty, .empty⟩

def devicesOf (indexes : Indexes) (userId : Identifier) :
    InsertionMap Identifier Connection :=
  (indexes.users.get userId).getD .empty

def getConnection (indexes : Indexes) (userId deviceId : Identifier) :
    Option Connection :=
  (indexes.devicesOf userId).get deviceId

def getBySocket (indexes : Indexes) (socket : Socket) : Option Connection :=
  indexes.sockets.get socket

/-- The entry of a new connection takes the place of its device's old one. -/
def add (indexes : Indexes) (connection : Connection) : Indexes :=
  let replaced :=
    indexes.getConnection connection.userId connection.deviceId
  let sockets :=
    match replaced with
    | some replaced => indexes.sockets.delete replaced.socket
    | none => indexes.sockets
  { users := indexes.users.set connection.userId
      ((indexes.devicesOf connection.userId).set connection.deviceId connection)
    sockets := sockets.set connection.socket connection }

/-- Drops the user once no devices remain. -/
def drop (indexes : Indexes) (connection : Connection) : Indexes :=
  let devices :=
    (indexes.devicesOf connection.userId).delete connection.deviceId
  { users :=
      if devices.isEmpty then indexes.users.delete connection.userId
      else indexes.users.set connection.userId devices
    sockets := indexes.sockets.delete connection.socket }

/-- Every connection in `users` is in `sockets` and vice versa, each under its
own keys. -/
structure Agree (indexes : Indexes) : Prop where
  iff : ∀ connection : Connection,
    indexes.getConnection connection.userId connection.deviceId =
        some connection ↔
      indexes.getBySocket connection.socket = some connection
  keys : ∀ {user device connection},
    indexes.getConnection user device = some connection →
      connection.userId = user ∧ connection.deviceId = device
  socket : ∀ {socket connection},
    indexes.getBySocket socket = some connection → connection.socket = socket

/-! ### As a double index -/

/-- The keys that a connection is filed under. -/
def connectionKeys : Keys Connection Identifier Identifier Socket :=
  ⟨Connection.userId, Connection.deviceId, Connection.socket⟩

def double (indexes : Indexes) :
    DoubleIndex Connection Identifier Identifier Socket :=
  ⟨indexes.users, indexes.sockets⟩

theorem double_add (indexes : Indexes) (connection : Connection) :
    (indexes.add connection).double =
      indexes.double.add connectionKeys connection := by
  have hreplaced : indexes.double.replacedBy connectionKeys connection =
      indexes.getConnection connection.userId connection.deviceId := rfl
  rw [double, add, DoubleIndex.add, hreplaced]
  cases indexes.getConnection connection.userId connection.deviceId with
  | none => rfl
  | some replaced => rfl

theorem double_drop (indexes : Indexes) (connection : Connection) :
    (indexes.drop connection).double =
      indexes.double.drop connectionKeys connection := rfl

theorem agree_iff_double {indexes : Indexes} :
    indexes.Agree ↔ indexes.double.Agree connectionKeys :=
  ⟨fun hagree => ⟨hagree.iff, hagree.keys, hagree.socket⟩,
    fun hagree => ⟨hagree.iff, hagree.filed, hagree.handled⟩⟩

theorem devicesOf_add (indexes : Indexes) (connection : Connection)
    (user : Identifier) :
    (indexes.add connection).devicesOf user =
      if user = connection.userId then
        (indexes.devicesOf user).set connection.deviceId connection
      else indexes.devicesOf user :=
  indexes.double.membersOf_add connectionKeys connection user

theorem devicesOf_drop (indexes : Indexes) (connection : Connection)
    (user : Identifier) :
    (indexes.drop connection).devicesOf user =
      if user = connection.userId then
        (indexes.devicesOf user).delete connection.deviceId
      else indexes.devicesOf user :=
  indexes.double.membersOf_drop connectionKeys connection user

theorem getConnection_add (indexes : Indexes) (connection : Connection)
    (user device : Identifier) :
    (indexes.add connection).getConnection user device =
      if user = connection.userId ∧ device = connection.deviceId then
        some connection
      else indexes.getConnection user device :=
  indexes.double.find_add connectionKeys connection user device

theorem getBySocket_add (indexes : Indexes) (connection : Connection)
    (socket : Socket) :
    (indexes.add connection).getBySocket socket =
      if socket = connection.socket then some connection
      else if ∃ replaced ∈ indexes.getConnection connection.userId
          connection.deviceId, replaced.socket = socket then none
      else indexes.getBySocket socket := by
  have hadd := indexes.double.byHandle_add connectionKeys connection socket
  rw [← double_add] at hadd
  exact hadd

theorem getBySocket_drop (indexes : Indexes) (connection : Connection)
    (socket : Socket) :
    (indexes.drop connection).getBySocket socket =
      if socket = connection.socket then none
      else indexes.getBySocket socket :=
  indexes.double.byHandle_drop connectionKeys connection socket

theorem agree_empty : empty.Agree :=
  agree_iff_double.mpr DoubleIndex.agree_empty

theorem Agree.getBySocket_of {indexes : Indexes} (hagree : indexes.Agree)
    {user device : Identifier} {connection : Connection}
    (hheld : indexes.getConnection user device = some connection) :
    indexes.getBySocket connection.socket = some connection := by
  obtain ⟨rfl, rfl⟩ := hagree.keys hheld
  exact (hagree.iff connection).mp hheld

theorem Agree.getConnection_of {indexes : Indexes} (hagree : indexes.Agree)
    {socket : Socket} {connection : Connection}
    (hheld : indexes.getBySocket socket = some connection) :
    indexes.getConnection connection.userId connection.deviceId =
      some connection := by
  obtain rfl := hagree.socket hheld
  exact (hagree.iff connection).mpr hheld

/-- A connection of a socket that is not registered yet. -/
theorem Agree.add {indexes : Indexes} (hagree : indexes.Agree)
    {connection : Connection}
    (hnew : indexes.getBySocket connection.socket = none) :
    (indexes.add connection).Agree := by
  rw [agree_iff_double, double_add]
  exact (agree_iff_double.mp hagree).add hnew

/-- A connection that is registered. -/
theorem Agree.drop {indexes : Indexes} (hagree : indexes.Agree)
    {connection : Connection}
    (hheld : indexes.getBySocket connection.socket = some connection) :
    (indexes.drop connection).Agree :=
  agree_iff_double.mpr ((agree_iff_double.mp hagree).drop hheld)

end Indexes

/-! ## The registry -/

structure ConnectionRegistry where
  indexes : Indexes
  agree : indexes.Agree

namespace ConnectionRegistry

@[ext]
theorem ext {left right : ConnectionRegistry}
    (hindexes : left.indexes = right.indexes) : left = right := by
  cases left
  cases right
  congr

instance : DecidableEq ConnectionRegistry := fun left right =>
  decidable_of_iff (left.indexes = right.indexes)
    ⟨ext, congrArg indexes⟩

def empty : ConnectionRegistry := ⟨.empty, Indexes.agree_empty⟩

variable (registry : ConnectionRegistry)

/-- Every connected device of `userId`. -/
def getUserConnections (userId : Identifier) : List Connection :=
  (registry.indexes.devicesOf userId).values

def getConnection (userId deviceId : Identifier) : Option Connection :=
  registry.indexes.getConnection userId deviceId

/-- The connection registered for `socket`. -/
def getBySocket (socket : Socket) : Option Connection :=
  registry.indexes.getBySocket socket

/-- Registers a connection and returns the one it replaces.  `none` if the
socket is already registered, where the source throws. -/
def add (connection : Connection) :
    Option (ConnectionRegistry × Option Connection) :=
  if hnew : registry.indexes.getBySocket connection.socket = none then
    some (⟨registry.indexes.add connection, registry.agree.add hnew⟩,
      registry.getConnection connection.userId connection.deviceId)
  else none

/-- Removes `connection` if it is still registered. -/
def remove (connection : Connection) : ConnectionRegistry :=
  if hheld : registry.indexes.getBySocket connection.socket =
      some connection then
    ⟨registry.indexes.drop connection, registry.agree.drop hheld⟩
  else registry

/-- Removes whatever `socket` registered as. -/
def removeBySocket (socket : Socket) : ConnectionRegistry :=
  match registry.getBySocket socket with
  | some connection => registry.remove connection
  | none => registry

variable {registry}

theorem add_eq_none_iff {connection : Connection} :
    registry.add connection = none ↔
      registry.getBySocket connection.socket ≠ none := by
  rw [add]
  split
  · next hnew => exact ⟨fun h => (Option.some_ne_none _ h).elim, (absurd hnew ·)⟩
  · next hheld => exact ⟨fun _ => hheld, fun _ => rfl⟩

/-- What a registration leaves. -/
theorem add_eq_some {connection : Connection} {registry' : ConnectionRegistry}
    {replaced : Option Connection}
    (hadd : registry.add connection = some (registry', replaced)) :
    registry.getBySocket connection.socket = none ∧
      registry'.indexes = registry.indexes.add connection ∧
      replaced =
        registry.getConnection connection.userId connection.deviceId := by
  rw [add] at hadd
  split at hadd
  · next hnew =>
    simp only [Option.some.injEq, Prod.mk.injEq] at hadd
    obtain ⟨rfl, rfl⟩ := hadd
    exact ⟨hnew, rfl, rfl⟩
  · cases hadd

theorem socket_eq {socket : Socket} {connection : Connection}
    (hheld : registry.getBySocket socket = some connection) :
    connection.socket = socket := registry.agree.socket hheld

/-- Who is found by socket after a registration. -/
theorem getBySocket_of_add {connection : Connection}
    {registry' : ConnectionRegistry} {replaced : Option Connection}
    (hadd : registry.add connection = some (registry', replaced))
    (socket : Socket) :
    registry'.getBySocket socket =
      if socket = connection.socket then some connection
      else if ∃ old ∈ replaced, old.socket = socket then none
      else registry.getBySocket socket := by
  obtain ⟨-, hindexes, rfl⟩ := add_eq_some hadd
  rw [getBySocket, hindexes, Indexes.getBySocket_add]
  rfl

theorem removeBySocket_indexes (registry : ConnectionRegistry)
    (socket : Socket) :
    (registry.removeBySocket socket).indexes =
      match registry.getBySocket socket with
      | some connection => registry.indexes.drop connection
      | none => registry.indexes := by
  cases hheld : registry.getBySocket socket with
  | none => rw [removeBySocket, hheld]
  | some connection =>
      have hsame : registry.indexes.getBySocket connection.socket =
          some connection := by
        rw [socket_eq hheld]
        exact hheld
      rw [removeBySocket, hheld]
      dsimp only
      rw [remove, dif_pos hsame]

/-- Who is found by socket after a socket closed. -/
theorem getBySocket_removeBySocket (registry : ConnectionRegistry)
    (socket other : Socket) :
    (registry.removeBySocket socket).getBySocket other =
      if other = socket then none else registry.getBySocket other := by
  rw [getBySocket, removeBySocket_indexes]
  cases hheld : registry.getBySocket socket with
  | none =>
      dsimp only
      split
      · next heq => rw [heq]; exact hheld
      · rfl
  | some connection =>
      dsimp only
      rw [Indexes.getBySocket_drop, socket_eq hheld]
      rfl

end ConnectionRegistry

end Cled.Relay
