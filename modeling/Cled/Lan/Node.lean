import Mathlib.Logic.Function.Basic
import Cled.Lan.AnyOrder

/-!
# One node and its interleaved operations

The peer store and the connection table have a lock each.  Every block under a
lock is one step; between two blocks any other operation can run.  Each
operation is a task, and a step advances one task or starts one.  Messages that
the node sends are left out: nothing here depends on them.
-/

namespace Cled.Lan

open Cled.Core Cled.Sync

/-- A session and the public key that authenticated it. -/
structure Session where
  device : DeviceId
  key : PublicKey
  deriving DecidableEq

/-- A connection in the table. -/
structure Conn where
  id : ℕ
  initiator : DeviceId
  /-- The key that authenticated its session. -/
  key : PublicKey
  deriving DecidableEq

/-- How far an operation is. -/
inductive Task where
  /-- `connect_over` or `accept_session`, with the key from the store. -/
  | handshake (session : Session) (initiator : DeviceId)
  /-- `accept_session` of a removed device, to tell it so. -/
  | telling (device : DeviceId)
  /-- In `register`, before it looks for the peer. -/
  | checking (session : Session) (initiator : DeviceId) (connId : ℕ)
  /-- In `register`, before it takes the connection table. -/
  | inserting (session : Session) (initiator : DeviceId) (connId : ℕ)
  /-- In `read_loop`, waiting for a message. -/
  | reading (session : Session) (connId : ℕ)
  /-- In `read_loop`, decoding an item off the thread. -/
  | decoding (session : Session) (connId : ℕ) (wire : WireItem)
  /-- In `apply_roster`, with devices left to disconnect: the ones it dropped
  and, after them, the ones that joined with a new key. -/
  | applying (session : Session) (connId : ℕ) (dropped joined : List DeviceId)
  /-- In `leave_group`, before it closes the connections. -/
  | leaving (session : Session) (connId : ℕ)
  /-- After `read_loop`, before `unregister`. -/
  | ended (device : DeviceId) (connId : ℕ)
  /-- In `remove_peer`, before it takes the peer store. -/
  | removing (device : DeviceId)
  | done
  deriving DecidableEq

namespace Task

/-- The session the task may still take messages from. -/
def session : Task → Option Session
  | .handshake session _ => some session
  | .checking session _ _ => some session
  | .inserting session _ _ => some session
  | .reading session _ => some session
  | .decoding session _ _ => some session
  | .applying session _ _ _ => some session
  | _ => none

/-- The session whose next message the task waits for. -/
def readsFrom : Task → Option Session
  | .reading session _ => some session
  | _ => none

/-- The device that the task is about to take out of the store. -/
def removes : Task → Option DeviceId
  | .removing device => some device
  | _ => none

/-- The session whose connection the task is about to put into the table, and who
started it. -/
def inserts : Task → Option (Session × DeviceId)
  | .inserting session initiator _ => some (session, initiator)
  | _ => none

/-- The task is still to take the connection of `device` out of the table. -/
def Disconnects (device : DeviceId) : Task → Prop
  | .applying _ _ dropped joined => device ∈ dropped ++ joined
  | .leaving _ _ => True
  | _ => False

instance (device : DeviceId) : DecidablePred (Disconnects device)
  | .applying _ _ dropped joined =>
      inferInstanceAs (Decidable (device ∈ dropped ++ joined))
  | .leaving _ _ => inferInstanceAs (Decidable True)
  | .handshake _ _ => inferInstanceAs (Decidable False)
  | .telling _ => inferInstanceAs (Decidable False)
  | .checking _ _ _ => inferInstanceAs (Decidable False)
  | .inserting _ _ _ => inferInstanceAs (Decidable False)
  | .reading _ _ => inferInstanceAs (Decidable False)
  | .decoding _ _ _ => inferInstanceAs (Decidable False)
  | .ended _ _ => inferInstanceAs (Decidable False)
  | .removing _ => inferInstanceAs (Decidable False)
  | .done => inferInstanceAs (Decidable False)

/-- The task is between two blocks of one operation. -/
def InProgress : Task → Prop
  | .checking _ _ _ => True
  | .inserting _ _ _ => True
  | .applying _ _ _ _ => True
  | .leaving _ _ => True
  | .removing _ => True
  | _ => False

instance : DecidablePred InProgress := fun task => by
  apply Task.casesOn (motive := fun task => Decidable task.InProgress) task
  all_goals intros; dsimp only [InProgress]; infer_instance

theorem Disconnects.inProgress {device : DeviceId} {task : Task}
    (hdisconnects : task.Disconnects device) : task.InProgress := by
  cases task <;> trivial

end Task

structure Node where
  store : PeerStore
  conns : DeviceId → Option Conn
  nextConnId : ℕ
  tasks : List Task

/-- One step of the node.  `task` is the index of the task that advances;
`saved` is what saving the store answers. -/
inductive NodeAction where
  | connect (device : DeviceId)
  | accept (initiator : DeviceId)
  | fails (task : ℕ)
  | told (task : ℕ) (saved : Except LanError Unit)
  | authenticated (task : ℕ) (name : String) (address : Option SocketAddr)
      (saved : Except LanError Unit)
  | check (task : ℕ)
  | insert (task : ℕ)
  | receiveItem (task : ℕ) (wire : WireItem)
  | decoded (task : ℕ)
  | receiveRoster (task : ℕ) (roster : Roster) (saved : Except LanError Unit)
  | disconnectNext (task : ℕ)
  | applied (task : ℕ)
  | receiveBye (task : ℕ) (saved : Except LanError Unit)
  | drain (task : ℕ)
  | readEnds (task : ℕ)
  | unregister (task : ℕ)
  | removePeer (device : DeviceId)
  | removeFromStore (task : ℕ) (nowMs : ℕ) (saved : Except LanError Unit)
  | storePeer (peer : Peer) (saved : Except LanError Unit)

theorem changedIds_of_isEmpty {change : RosterChange}
    (hempty : change.isEmpty = true) : PeerStore.changedIds change = [] := by
  unfold RosterChange.isEmpty at hempty
  simp only [Bool.and_eq_true, List.isEmpty_iff] at hempty
  rw [PeerStore.changedIds, hempty.1.1, hempty.1.2, List.append_nil]

namespace Node

/-- A node at startup. -/
def start (store : PeerStore) : Node :=
  { store, conns := fun _ => none, nextConnId := 0, tasks := [] }

def spawn (node : Node) (task : Task) : Node :=
  { node with tasks := node.tasks ++ [task] }

/-- Task `index` gets as far as `task`. -/
def advance (node : Node) (index : ℕ) (task : Task) : Node :=
  { node with tasks := node.tasks.set index task }

/-- Takes the connection of `device` out of the table. -/
def disconnect (node : Node) (device : DeviceId) : Node :=
  { node with conns := Function.update node.conns device none }

variable (me : DeviceId)

/-- The second block of `register`: with two connections to the same peer, the
one started by the lower device ID is kept. -/
def insertConn (node : Node) (index : ℕ) (session : Session)
    (initiator : DeviceId) (connId : ℕ) : Node :=
  let preferred := min me session.device
  let inserted : Node :=
    { node with
      conns := Function.update node.conns session.device
        (some { id := connId, initiator, key := session.key }) }
  match node.conns session.device with
  | some existing =>
      if existing.initiator = preferred ∨ initiator ≠ preferred then
        node.advance index .done
      else inserted.advance index (.reading session connId)
  | none => inserted.advance index (.reading session connId)

/-- The second block of `register` keeps this session: the device has no other
connection, or this one is the one to keep. -/
def Admits (node : Node) (session : Session) (initiator : DeviceId) : Prop :=
  ∀ existing ∈ node.conns session.device,
    existing.initiator ≠ min me session.device ∧ initiator = min me session.device

instance (node : Node) (session : Session) (initiator : DeviceId) :
    Decidable (node.Admits me session initiator) :=
  inferInstanceAs (Decidable (∀ existing ∈ node.conns session.device, _))

/-- `apply_roster` up to the end of the merge. -/
def applyRoster (node : Node) (index : ℕ) (session : Session) (connId : ℕ)
    (roster : Roster) (saved : Except LanError Unit) : Node :=
  match node.store.merge me session.device roster saved with
  | (.error _, store) =>
      { node with store }.advance index (.reading session connId)
  | (.ok change, store) =>
      if change.isEmpty then
        { node with store }.advance index (.reading session connId)
      else
        { node with store }.advance index
          (.applying session connId change.removed change.added)

/-- `leave_group` up to the end of its first block. -/
def leaveGroup (node : Node) (index : ℕ) (session : Session) (connId : ℕ)
    (saved : Except LanError Unit) : Node :=
  match node.store.get session.device with
  | none => node.advance index (.ended session.device connId)
  | some _ =>
      { node with store := (node.store.clear saved).2 }.advance index
        (.leaving session connId)

def step (node : Node) : NodeAction → Option Node
  | .connect device =>
      (node.store.get device).map fun peer =>
        node.spawn (.handshake ⟨device, peer.publicKey⟩ me)
  | .accept initiator =>
      match node.store.get initiator, node.store.getRemoved initiator with
      | some peer, _ =>
          some (node.spawn (.handshake ⟨initiator, peer.publicKey⟩ initiator))
      | none, some _ => some (node.spawn (.telling initiator))
      | none, none => none
  | .fails index =>
      match node.tasks[index]? with
      | some (.handshake _ _) => some (node.advance index .done)
      | some (.telling _) => some (node.advance index .done)
      | _ => none
  | .told index saved =>
      match node.tasks[index]? with
      | some (.telling device) =>
          some
            ({ node with
                store := (node.store.markNotified device saved).2 }.advance
              index .done)
      | _ => none
  | .authenticated index name address saved =>
      match node.tasks[index]? with
      | some (.handshake session initiator) =>
          some
            ({ node with
                store :=
                  (node.store.seen session.device name address saved).2
                nextConnId := node.nextConnId + 1 }.advance
              index (.checking session initiator node.nextConnId))
      | _ => none
  | .check index =>
      match node.tasks[index]? with
      | some (.checking session initiator connId) =>
          match node.store.get session.device with
          | none => some (node.advance index .done)
          | some _ =>
              some (node.advance index (.inserting session initiator connId))
      | _ => none
  | .insert index =>
      match node.tasks[index]? with
      | some (.inserting session initiator connId) =>
          some (node.insertConn me index session initiator connId)
      | _ => none
  | .receiveItem index wire =>
      match node.tasks[index]? with
      | some (.reading session connId) =>
          some (node.advance index (.decoding session connId wire))
      | _ => none
  | .decoded index =>
      match node.tasks[index]? with
      | some (.decoding session connId _) =>
          some (node.advance index (.reading session connId))
      | _ => none
  | .receiveRoster index roster saved =>
      match node.tasks[index]? with
      | some (.reading session connId) =>
          some (node.applyRoster me index session connId roster saved)
      | _ => none
  | .disconnectNext index =>
      match node.tasks[index]? with
      | some (.applying session connId (device :: dropped) joined) =>
          some ((node.disconnect device).advance index
            (.applying session connId dropped joined))
      | some (.applying session connId [] (device :: joined)) =>
          some ((node.disconnect device).advance index
            (.applying session connId [] joined))
      | _ => none
  | .applied index =>
      match node.tasks[index]? with
      | some (.applying session connId [] []) =>
          some (node.advance index (.reading session connId))
      | _ => none
  | .receiveBye index saved =>
      match node.tasks[index]? with
      | some (.reading session connId) =>
          some (node.leaveGroup index session connId saved)
      | _ => none
  | .drain index =>
      match node.tasks[index]? with
      | some (.leaving session connId) =>
          some
            ({ node with conns := fun _ => none }.advance index
              (.ended session.device connId))
      | _ => none
  | .readEnds index =>
      match node.tasks[index]? with
      | some (.reading session connId) =>
          some (node.advance index (.ended session.device connId))
      | _ => none
  | .unregister index =>
      match node.tasks[index]? with
      | some (.ended device connId) =>
          if ∃ conn ∈ node.conns device, conn.id = connId then
            some ((node.disconnect device).advance index .done)
          else some (node.advance index .done)
      | _ => none
  | .removePeer device =>
      some ((node.disconnect device).spawn (.removing device))
  | .removeFromStore index nowMs saved =>
      match node.tasks[index]? with
      | some (.removing device) =>
          some
            ({ node with
                store := (node.store.remove device nowMs saved).2 }.advance
              index .done)
      | _ => none
  | .storePeer peer saved =>
      some { node with store := (node.store.upsert peer saved).2 }

def machine : Machine Node NodeAction := ⟨step me⟩

/-! ## What a step does -/

theorem eq_or_mem_eraseIdx {tasks : List Task} {index : ℕ} {new task : Task}
    (hmem : task ∈ tasks.set index new) :
    task = new ∨ task ∈ tasks.eraseIdx index := by
  induction tasks generalizing index with
  | nil => contradiction
  | cons first tasks ih =>
      cases index with
      | zero => exact List.mem_cons.mp hmem
      | succ index =>
          rcases List.mem_cons.mp hmem with rfl | hmem
          · exact Or.inr List.mem_cons_self
          · exact (ih hmem).imp_right (List.mem_cons_of_mem _)

theorem eq_or_mem_set {tasks : List Task} {index : ℕ} {old new task : Task}
    (hold : tasks[index]? = some old) (hmem : task ∈ tasks) :
    task = old ∨ task ∈ tasks.set index new := by
  induction tasks generalizing index with
  | nil => contradiction
  | cons first tasks ih =>
      cases index with
      | zero =>
          obtain rfl := Option.some.inj hold
          exact (List.mem_cons.mp hmem).imp_right (List.mem_cons_of_mem _)
      | succ index =>
          rcases List.mem_cons.mp hmem with rfl | hmem
          · exact Or.inr List.mem_cons_self
          · exact (ih hold hmem).imp_right (List.mem_cons_of_mem _)

theorem mem_set_self {tasks : List Task} {index : ℕ} {old : Task}
    (hold : tasks[index]? = some old) (new : Task) :
    new ∈ tasks.set index new :=
  List.mem_set (List.getElem?_eq_some_iff.mp hold).1 new

/-- The next task is in no session that the task was not in, and the task had
nothing to disconnect. -/
structure Follows (old new : Task) : Prop where
  session : ∀ session ∈ new.session, session ∈ old.session
  quiet : ∀ device, ¬ old.Disconnects device

/-- Everything a step can do. -/
inductive Outcome (node : Node) : NodeAction → Node → Prop
  /-- A session with the key that the store has. -/
  | begun (action : NodeAction) (session : Session) (initiator : DeviceId)
      (hkey : node.store.keyOf session.device = some session.key) :
      Outcome node action (node.spawn (.handshake session initiator))
  | answered (action : NodeAction) (device : DeviceId) :
      Outcome node action (node.spawn (.telling device))
  | moved (action : NodeAction) (index : ℕ) (old new : Task)
      (htask : node.tasks[index]? = some old) (hfollows : Follows old new) :
      Outcome node action (node.advance index new)
  /-- The store changes, but no key in it and no removal. -/
  | touched (action : NodeAction) (index : ℕ) (old new : Task)
      (htask : node.tasks[index]? = some old) (hfollows : Follows old new)
      (store : PeerStore) (nextConnId : ℕ)
      (hwell : node.store.WellFormed → store.WellFormed)
      (hkeys : ∀ device, store.keyOf device = node.store.keyOf device)
      (hremovals : store.removals = node.store.removals) :
      Outcome node action ({ node with store, nextConnId }.advance index new)
  | inserted (index : ℕ) (session : Session) (initiator : DeviceId)
      (connId : ℕ)
      (htask : node.tasks[index]? = some (.inserting session initiator connId))
      (hadmits : node.Admits me session initiator) :
      Outcome node (.insert index)
        ({ node with
            conns := Function.update node.conns session.device
              (some { id := connId, initiator, key := session.key }) }.advance
          index (.reading session connId))
  | merged (index : ℕ) (session : Session) (connId : ℕ) (roster : Roster)
      (saved : Except LanError Unit)
      (htask : node.tasks[index]? = some (.reading session connId)) :
      Outcome node (.receiveRoster index roster saved)
        ({ node with
            store := (node.store.mergeEntries me session.device
              roster).store }.advance index
          (.applying session connId
            (node.store.mergeEntries me session.device roster).change.removed
            (node.store.mergeEntries me session.device roster).change.added))
  /-- Nothing is disconnected: no key changed, or saving failed. -/
  | mergedOnly (index : ℕ) (session : Session) (connId : ℕ) (roster : Roster)
      (saved : Except LanError Unit)
      (htask : node.tasks[index]? = some (.reading session connId))
      (hnone : PeerStore.changedIds
          (node.store.mergeEntries me session.device roster).change = [] ∨
        saved ≠ .ok ()) :
      Outcome node (.receiveRoster index roster saved)
        ({ node with
            store := (node.store.mergeEntries me session.device
              roster).store }.advance index (.reading session connId))
  | disconnectedNext (index : ℕ) (session : Session) (connId : ℕ)
      (device : DeviceId) (dropped joined : List DeviceId)
      (old : List DeviceId × List DeviceId)
      (htask : node.tasks[index]? =
        some (.applying session connId old.1 old.2))
      (hnext : old.1 ++ old.2 = device :: (dropped ++ joined)) :
      Outcome node (.disconnectNext index)
        ((node.disconnect device).advance index
          (.applying session connId dropped joined))
  | left (index : ℕ) (session : Session) (connId : ℕ)
      (saved : Except LanError Unit)
      (htask : node.tasks[index]? = some (.reading session connId)) :
      Outcome node (.receiveBye index saved)
        ({ node with store := (node.store.clear saved).2 }.advance index
          (.leaving session connId))
  | drained (index : ℕ) (session : Session) (connId : ℕ)
      (htask : node.tasks[index]? = some (.leaving session connId)) :
      Outcome node (.drain index)
        ({ node with conns := fun _ => none }.advance index
          (.ended session.device connId))
  | unregistered (index : ℕ) (device : DeviceId) (connId : ℕ)
      (htask : node.tasks[index]? = some (.ended device connId)) :
      Outcome node (.unregister index)
        ((node.disconnect device).advance index .done)
  | disconnected (device : DeviceId) :
      Outcome node (.removePeer device)
        ((node.disconnect device).spawn (.removing device))
  | removed (index : ℕ) (device : DeviceId) (nowMs : ℕ)
      (saved : Except LanError Unit)
      (htask : node.tasks[index]? = some (.removing device)) :
      Outcome node (.removeFromStore index nowMs saved)
        ({ node with
            store := (node.store.remove device nowMs saved).2 }.advance index
          .done)
  | stored (peer : Peer) (saved : Except LanError Unit) :
      Outcome node (.storePeer peer saved)
        { node with store := node.store.put peer }

theorem applyRoster_outcome (node : Node) (index : ℕ) (session : Session)
    (connId : ℕ) (roster : Roster) (saved : Except LanError Unit)
    (htask : node.tasks[index]? = some (.reading session connId)) :
    Outcome me node (.receiveRoster index roster saved)
      (node.applyRoster me index session connId roster saved) := by
  have hmerged : Outcome me node _ _ :=
    .merged index session connId roster saved htask
  have honly : _ → Outcome me node _ _ :=
    .mergedOnly index session connId roster saved htask
  unfold applyRoster PeerStore.merge
  dsimp only
  generalize node.store.mergeEntries me session.device roster = merging
    at hmerged honly ⊢
  by_cases hneeded : (merging.dirty || !merging.change.isEmpty) = true
  · rw [if_pos hneeded]
    cases saved with
    | error error => exact honly (Or.inr nofun)
    | ok _ =>
        dsimp only [Except.map]
        split
        · next hempty => exact honly (Or.inl (changedIds_of_isEmpty hempty))
        · exact hmerged
  · rw [if_neg hneeded]
    dsimp only
    split
    · next hempty => exact honly (Or.inl (changedIds_of_isEmpty hempty))
    · exact hmerged

theorem insertConn_outcome (node : Node) (index : ℕ) (session : Session)
    (initiator : DeviceId) (connId : ℕ)
    (htask : node.tasks[index]? = some (.inserting session initiator connId)) :
    Outcome me node (.insert index)
      (node.insertConn me index session initiator connId) := by
  have hinserted : node.Admits me session initiator → Outcome me node _ _ :=
    .inserted index session initiator connId htask
  unfold insertConn
  dsimp only
  split
  · next existing hexisting =>
    split
    · exact .moved _ index _ _ htask ⟨nofun, fun _ => id⟩
    · next hkept =>
      obtain ⟨hother, hpreferred⟩ := not_or.mp hkept
      refine hinserted fun other hconn => ?_
      obtain rfl := Option.some.inj (hexisting.symm.trans hconn)
      exact ⟨hother, not_not.mp hpreferred⟩
  · next hfree =>
    exact hinserted fun other hconn => absurd (hfree.symm.trans hconn) nofun

theorem step_outcome {node next : Node} {action : NodeAction}
    (hstep : node.step me action = some next) :
    Outcome me node action next := by
  cases action with
  | connect device =>
      obtain ⟨peer, hget, rfl⟩ := Option.map_eq_some_iff.mp hstep
      exact .begun _ ⟨device, peer.publicKey⟩ me
        (PeerStore.keyOf_eq_some_iff.mpr ⟨peer, hget, rfl⟩)
  | accept initiator =>
      dsimp only [step] at hstep
      split at hstep
      · next _ _ peer hget =>
        cases hstep
        exact .begun _ ⟨initiator, peer.publicKey⟩ initiator
          (PeerStore.keyOf_eq_some_iff.mpr ⟨peer, hget, rfl⟩)
      · cases hstep
        exact .answered _ initiator
      · contradiction
  | fails index =>
      dsimp only [step] at hstep
      split at hstep
      · next htask =>
        cases hstep
        exact .moved _ index _ _ htask ⟨nofun, fun _ => id⟩
      · next htask =>
        cases hstep
        exact .moved _ index _ _ htask ⟨nofun, fun _ => id⟩
      · contradiction
  | told index saved =>
      dsimp only [step] at hstep
      split at hstep
      · next device htask =>
        cases hstep
        exact .touched _ index (.telling device) .done htask
          ⟨nofun, fun _ => id⟩ _ _
          (fun hwell => PeerStore.wellFormed_markNotified hwell device saved)
          (fun id => PeerStore.keyOf_markNotified _ device id saved)
          (PeerStore.removals_markNotified _ device saved)
      · contradiction
  | authenticated index name address saved =>
      dsimp only [step] at hstep
      split at hstep
      · next session initiator htask =>
        cases hstep
        exact .touched _ index (.handshake session initiator)
          (.checking session initiator node.nextConnId) htask
          ⟨fun _ => id, fun _ => id⟩ _ _
          (fun hwell => PeerStore.wellFormed_seen hwell _ name address saved)
          (fun id => PeerStore.keyOf_seen _ _ id name address saved)
          (PeerStore.removals_seen _ _ name address saved)
      · contradiction
  | check index =>
      dsimp only [step] at hstep
      split at hstep
      · next session initiator connId htask =>
        split at hstep
        · cases hstep
          exact .moved _ index _ _ htask ⟨nofun, fun _ => id⟩
        · cases hstep
          exact .moved _ index _ _ htask ⟨fun _ => id, fun _ => id⟩
      · contradiction
  | insert index =>
      dsimp only [step] at hstep
      split at hstep
      · next session initiator connId htask =>
        cases hstep
        exact insertConn_outcome me node index session initiator connId htask
      · contradiction
  | receiveItem index wire =>
      dsimp only [step] at hstep
      split at hstep
      · next htask =>
        cases hstep
        exact .moved _ index _ _ htask ⟨fun _ => id, fun _ => id⟩
      · contradiction
  | decoded index =>
      dsimp only [step] at hstep
      split at hstep
      · next htask =>
        cases hstep
        exact .moved _ index _ _ htask ⟨fun _ => id, fun _ => id⟩
      · contradiction
  | receiveRoster index roster saved =>
      dsimp only [step] at hstep
      split at hstep
      · next session connId htask =>
        cases hstep
        exact applyRoster_outcome me node index session connId roster saved htask
      · contradiction
  | disconnectNext index =>
      dsimp only [step] at hstep
      split at hstep
      · next session connId device dropped joined htask =>
        cases hstep
        exact .disconnectedNext index session connId device dropped joined
          (device :: dropped, joined) htask rfl
      · next session connId device joined htask =>
        cases hstep
        exact .disconnectedNext index session connId device [] joined
          ([], device :: joined) htask rfl
      · contradiction
  | applied index =>
      dsimp only [step] at hstep
      split at hstep
      · next htask =>
        cases hstep
        exact .moved _ index _ _ htask ⟨fun _ => id, fun _ => List.not_mem_nil⟩
      · contradiction
  | receiveBye index saved =>
      dsimp only [step] at hstep
      split at hstep
      · next session connId htask =>
        cases hstep
        unfold leaveGroup
        split
        · exact .moved _ index _ _ htask ⟨nofun, fun _ => id⟩
        · exact .left index session connId saved htask
      · contradiction
  | drain index =>
      dsimp only [step] at hstep
      split at hstep
      · next session connId htask =>
        cases hstep
        exact .drained index session connId htask
      · contradiction
  | readEnds index =>
      dsimp only [step] at hstep
      split at hstep
      · next htask =>
        cases hstep
        exact .moved _ index _ _ htask ⟨nofun, fun _ => id⟩
      · contradiction
  | unregister index =>
      dsimp only [step] at hstep
      split at hstep
      · next device connId htask =>
        split at hstep
        · cases hstep
          exact .unregistered index device connId htask
        · cases hstep
          exact .moved _ index _ _ htask ⟨nofun, fun _ => id⟩
      · contradiction
  | removePeer device =>
      cases hstep
      exact .disconnected device
  | removeFromStore index nowMs saved =>
      dsimp only [step] at hstep
      split at hstep
      · next device htask =>
        cases hstep
        exact .removed index device nowMs saved htask
      · contradiction
  | storePeer peer saved =>
      cases hstep
      exact .stored peer saved

end Node

end Cled.Lan
