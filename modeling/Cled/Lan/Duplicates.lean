import Mathlib.Data.List.OfFn
import Mathlib.Data.Fintype.Basic
import Mathlib.Data.Fintype.EquivFin
import Cled.Core.KeepOne
import Cled.Lan.Node

/-!
# Duplicate connections between two paired devices

Several sessions of two paired devices have completed their handshakes on both
sides.  Each node registers them in its own order, alone, by the initiator of
each.  What ends a session here is that the other node has turned it down, sent
it `Close` or ended it.

The two nodes are the two sides of `Core.KeepOne`, where the preferred sessions
are those that the device with the lower ID started.
-/

namespace Cled.Lan

open Cled.Core Cled.Sync

/-- Two paired devices and the sessions between them. -/
structure Duplicates (n : ℕ) where
  id : Side → DeviceId
  ordered : id .lower < id .higher
  store : Side → PeerStore
  /-- The public key of the other device. -/
  key : Side → PublicKey
  listed : ∀ side, (store side).keyOf (id side.other) = some (key side)
  /-- Which device started each session. -/
  started : Fin n → Side
  /-- The ID that each node has given the session's connection. -/
  connId : Side → Fin n → ℕ
  distinct : ∀ side, Function.Injective (connId side)
  nextConnId : Side → ℕ

namespace Duplicates

variable {n : ℕ} (both : Duplicates n)

def session (side : Side) : Session := ⟨both.id side.other, both.key side⟩

def initiator (index : Fin n) : DeviceId := both.id (both.started index)

/-- The connection of a session, as `start_session` makes it. -/
def conn (side : Side) (index : Fin n) : Conn :=
  { id := both.connId side index
    initiator := both.initiator index
    key := both.key side }

/-- The task of a session on one side. -/
def task (side : Side) (index : Fin n) : Stage → Task
  | .checking =>
      .checking (both.session side) (both.initiator index)
        (both.connId side index)
  | .inserting =>
      .inserting (both.session side) (both.initiator index)
        (both.connId side index)
  | .reading => .reading (both.session side) (both.connId side index)
  | .ended => .ended (both.id side.other) (both.connId side index)
  | .done => .done

/-- Both nodes, with every session about to be registered. -/
def start (side : Side) : Node :=
  { store := both.store side
    conns := fun _ => none
    nextConnId := both.nextConnId side
    tasks := List.ofFn fun index => both.task side index .checking }

/-- The action of a session's task. -/
def nodeAction : StageAction (Fin n) → NodeAction
  | .check index => .check index
  | .insert index => .insert index
  | .readEnds index => .readEnds index
  | .unregister index => .unregister index

/-- The node has closed the session's stream: `register` turned it down, its
read loop has ended, or it was sent `Close` and lost its place in the table. -/
def Closed (node : Node) (index : Fin n) : Prop :=
  match node.tasks[index.val]? with
  | some (.reading session connId) =>
      ∀ conn ∈ node.conns session.device, conn.id ≠ connId
  | some (.ended _ _) | some .done => True
  | _ => False

instance (node : Node) (index : Fin n) : Decidable (Closed node index) := by
  unfold Closed
  split <;> infer_instance

def Enabled (nodes : Side → Node) (side : Side) : StageAction (Fin n) → Prop
  | .readEnds index => Closed (nodes side.other) index
  | _ => True

instance (nodes : Side → Node) (side : Side) :
    DecidablePred (Enabled nodes side : StageAction (Fin n) → Prop)
  | .readEnds index => inferInstanceAs (Decidable (Closed (nodes side.other) index))
  | .check _ => inferInstanceAs (Decidable True)
  | .insert _ => inferInstanceAs (Decidable True)
  | .unregister _ => inferInstanceAs (Decidable True)

def step (nodes : Side → Node) (action : Side × StageAction (Fin n)) :
    Option (Side → Node) :=
  if Enabled nodes action.1 action.2 then
    ((nodes action.1).step (both.id action.1) (nodeAction action.2)).map
      (Function.update nodes action.1)
  else none

def machine : Machine (Side → Node) (Side × StageAction (Fin n)) :=
  ⟨both.step⟩

/-- Both nodes have the connection of the same session in their tables, and the
lower device started it if it started any. -/
def KeepSame (nodes : Side → Node) : Prop :=
  ∃ index,
    (∀ side, ∃ conn ∈ (nodes side).conns (both.id side.other),
      conn.id = both.connId side index) ∧
      ((∃ other, both.started other = .lower) → both.started index = .lower)

/-! ## The nodes are the two sides -/

def renderHalf (side : Side) (half : Half (Fin n)) : Node :=
  { store := both.store side
    conns := Function.update (fun _ => none) (both.id side.other)
      (half.table.map (both.conn side))
    nextConnId := both.nextConnId side
    tasks := List.ofFn fun index => both.task side index (half.stage index) }

def render (halves : Halves (Fin n)) (side : Side) : Node :=
  both.renderHalf side (halves side)

theorem render_start : both.render Halves.start = both.start := by
  funext side
  rw [render, renderHalf, start, Halves.start, Half.start]
  congr 1
  exact Function.update_eq_self _ _

section Render

variable (side : Side) (half : Half (Fin n)) (index : Fin n)

theorem renderHalf_task :
    (both.renderHalf side half).tasks[index.val]? =
      some (both.task side index (half.stage index)) := by
  simp [renderHalf]

theorem renderHalf_conns :
    (both.renderHalf side half).conns (both.id side.other) =
      half.table.map (both.conn side) := by
  simp only [renderHalf, Function.update_self]

theorem renderHalf_reach (stage : Stage) :
    (both.renderHalf side half).advance index (both.task side index stage) =
      both.renderHalf side (half.reach index stage) := by
  simp only [Node.advance, renderHalf, Half.reach]
  congr 1
  apply List.ext_getElem
  · simp
  · intro position hset hposition
    rw [List.getElem_set, List.getElem_ofFn, List.getElem_ofFn]
    split
    · next hsame =>
      subst hsame
      rw [Function.update_self]
    · next hother =>
      have hne : (⟨position, by simpa using hposition⟩ : Fin n) ≠ index :=
        fun heq => hother (congrArg Fin.val heq).symm
      rw [Function.update_of_ne hne]

theorem renderHalf_table (table : Option (Fin n)) :
    { both.renderHalf side half with
      conns := Function.update (both.renderHalf side half).conns
        (both.id side.other) (table.map (both.conn side)) } =
      both.renderHalf side { half with table } := by
  simp only [renderHalf, Function.update_idem]

end Render

/-- The session was started by the device with the lower ID. -/
def StartedByLower (index : Fin n) : Prop := both.started index = .lower

instance : DecidablePred both.StartedByLower := fun index =>
  inferInstanceAs (Decidable (both.started index = .lower))

theorem min_id (side : Side) :
    min (both.id side) (both.id side.other) = both.id .lower := by
  cases side with
  | lower => exact min_eq_left both.ordered.le
  | higher => exact min_eq_right both.ordered.le

theorem initiator_eq_lower_iff (index : Fin n) :
    both.initiator index = both.id .lower ↔ both.StartedByLower index := by
  unfold initiator StartedByLower
  cases both.started index with
  | lower => exact iff_of_true rfl rfl
  | higher => exact iff_of_false both.ordered.ne' nofun

theorem insertConn_renderHalf (side : Side) (half : Half (Fin n))
    (index : Fin n) :
    (both.renderHalf side half).insertConn (both.id side) index
        (both.session side) (both.initiator index) (both.connId side index) =
      both.renderHalf side (half.insert both.StartedByLower index) := by
  have hmin : min (both.id side) (both.session side).device = both.id .lower :=
    both.min_id side
  have hconns : (both.renderHalf side half).conns (both.session side).device =
      half.table.map (both.conn side) := both.renderHalf_conns side half
  have hplaced : ({ both.renderHalf side half with
      conns := Function.update (both.renderHalf side half).conns
        (both.session side).device (some (both.conn side index)) } : Node).advance
        index (both.task side index .reading) =
      both.renderHalf side
        ({ half with table := some index }.reach index .reading) := by
    rw [← renderHalf_reach]
    exact congrArg (·.advance index.val (both.task side index .reading))
      (both.renderHalf_table side half (some index))
  have hkept := both.renderHalf_reach side half index .done
  unfold Node.insertConn Half.insert
  dsimp only
  rw [hmin, hconns]
  cases half.table with
  | none =>
      dsimp only [Option.map_none]
      exact hplaced
  | some existing =>
      have hexisting : (both.conn side existing).initiator = both.id .lower ↔
          both.StartedByLower existing := both.initiator_eq_lower_iff existing
      dsimp only [Option.map_some]
      simp only [hexisting, ne_eq, both.initiator_eq_lower_iff]
      split
      · exact hkept
      · exact hplaced

/-- The connection in the table is the session's. -/
theorem renderHalf_has_iff (side : Side) (half : Half (Fin n))
    (index : Fin n) :
    (∃ conn ∈ (both.renderHalf side half).conns (both.id side.other),
        conn.id = both.connId side index) ↔ half.table = some index := by
  rw [renderHalf_conns]
  constructor
  · rintro ⟨_, hconn, hid⟩
    obtain ⟨kept, hkept, rfl⟩ := Option.map_eq_some_iff.mp hconn
    rw [hkept, both.distinct side hid]
  · intro htable
    exact ⟨both.conn side index, by rw [htable]; rfl, rfl⟩

theorem unregister_renderHalf (side : Side) (half : Half (Fin n))
    (index : Fin n) :
    (if ∃ conn ∈ (both.renderHalf side half).conns (both.id side.other),
          conn.id = both.connId side index then
        some (((both.renderHalf side half).disconnect
          (both.id side.other)).advance index .done)
      else some ((both.renderHalf side half).advance index .done)) =
      some (both.renderHalf side ((half.release index).reach index .done)) := by
  have hreach := fun half => both.renderHalf_reach side half index .done
  unfold Half.release
  by_cases htable : half.table = some index
  · rw [if_pos ((both.renderHalf_has_iff side half index).mpr htable),
      if_pos htable, ← hreach, ← both.renderHalf_table side half none]
    rfl
  · rw [if_neg (mt (both.renderHalf_has_iff side half index).mp htable),
      if_neg htable, ← hreach]
    rfl

/-- A node goes from stage to stage as its side does. -/
theorem step_renderHalf (side : Side) (half : Half (Fin n))
    (action : StageAction (Fin n)) :
    (both.renderHalf side half).step (both.id side) (nodeAction action) =
      (half.step both.StartedByLower action).map (both.renderHalf side) := by
  cases action with
  | check index =>
      dsimp only [nodeAction, Node.step, Half.step]
      rw [renderHalf_task]
      cases half.stage index with
      | checking =>
          obtain ⟨peer, hget, _⟩ :=
            PeerStore.keyOf_eq_some_iff.mp (both.listed side)
          have hlisted : (both.renderHalf side half).store.get
              (both.session side).device = some peer := hget
          dsimp only [task]
          rw [hlisted, if_pos rfl]
          exact congrArg some (both.renderHalf_reach side half index .inserting)
      | _ => rfl
  | insert index =>
      dsimp only [nodeAction, Node.step, Half.step]
      rw [renderHalf_task]
      cases half.stage index with
      | inserting =>
          rw [if_pos rfl]
          exact congrArg some (both.insertConn_renderHalf side half index)
      | _ => rfl
  | readEnds index =>
      dsimp only [nodeAction, Node.step, Half.step]
      rw [renderHalf_task]
      cases half.stage index with
      | reading =>
          rw [if_pos rfl]
          exact congrArg some (both.renderHalf_reach side half index .ended)
      | _ => rfl
  | unregister index =>
      dsimp only [nodeAction, Node.step, Half.step]
      rw [renderHalf_task]
      cases half.stage index with
      | ended =>
          rw [if_pos rfl]
          exact both.unregister_renderHalf side half index
      | _ => rfl

theorem closed_renderHalf_iff (side : Side) (half : Half (Fin n))
    (index : Fin n) :
    Closed (both.renderHalf side half) index ↔ half.Closed index := by
  unfold Closed Half.Closed
  rw [renderHalf_task]
  cases half.stage index with
  | reading =>
      have hhas := both.renderHalf_has_iff side half index
      dsimp only [task]
      rw [ne_eq, ← hhas]
      exact ⟨fun hnone ⟨conn, hconn, hid⟩ => hnone conn hconn hid,
        fun hnone conn hconn hid => hnone ⟨conn, hconn, hid⟩⟩
  | _ => exact Iff.rfl

/-- The two nodes step as the two sides do. -/
theorem step_render (halves : Halves (Fin n))
    (action : Side × StageAction (Fin n)) :
    both.step (both.render halves) action =
      (halves.step both.StartedByLower action).map both.render := by
  obtain ⟨side, action⟩ := action
  have henabled : Enabled (both.render halves) side action ↔
      halves.Enabled side action := by
    cases action with
    | readEnds index => exact both.closed_renderHalf_iff _ _ index
    | _ => exact Iff.rfl
  have hupdate : ∀ half, Function.update (both.render halves) side
      (both.renderHalf side half) =
        both.render (Function.update halves side half) := by
    intro half
    funext other
    by_cases hother : other = side
    · subst hother
      simp [render]
    · simp [render, hother]
  unfold step Halves.step
  simp only [henabled]
  split
  · change Option.map _ ((both.renderHalf side (halves side)).step _ _) = _
    rw [step_renderHalf, Option.map_map, Option.map_map]
    exact congrArg (Option.map · _) (funext hupdate)
  · rfl

theorem keepSame_render_iff (halves : Halves (Fin n)) :
    both.KeepSame (both.render halves) ↔ halves.KeepSame both.StartedByLower := by
  refine exists_congr fun index => and_congr_left' (forall_congr' fun side => ?_)
  exact both.renderHalf_has_iff side (halves side) index

/-! ## When the same session is kept -/

theorem best_iff :
    (∃ index, Halves.Best both.StartedByLower index) ↔
      (∃! index, both.started index = .lower) ∨ n = 1 := by
  constructor
  · rintro ⟨index, hbest⟩
    by_cases hlower : both.started index = .lower
    · refine Or.inl ⟨index, hlower, fun other hother => ?_⟩
      by_contra hdifferent
      exact (hbest other hdifferent).2 hother
    · have honly : ∀ other, other = index := by
        intro other
        by_contra hdifferent
        exact hlower (hbest other hdifferent).1
      have hcard : Fintype.card (Fin n) = 1 :=
        Fintype.card_eq_one_iff.mpr ⟨index, honly⟩
      exact Or.inr (by rwa [Fintype.card_fin] at hcard)
  · rintro (⟨index, hlower, hunique⟩ | rfl)
    · exact ⟨index, fun other hother =>
        ⟨hlower, fun hotherLower => hother (hunique other hotherLower)⟩⟩
    · exact ⟨0, fun other hother => absurd (Subsingleton.elim other 0) hother⟩

/-- In every run until nothing is left to do both nodes keep the same session, if
and only if there is one session, or the device with the lower ID started
exactly one of them. -/
theorem keepSame_iff :
    (∀ actions final, both.machine.run both.start actions = some final →
        both.machine.Stuck final → both.KeepSame final) ↔
      (∃! index, both.started index = .lower) ∨ n = 1 := by
  have hstuck : ∀ halves, both.machine.Stuck (both.render halves) ↔
      (Halves.machine both.StartedByLower).Stuck halves :=
    Machine.stuck_render_iff both.step_render
  have hrun : ∀ actions, both.machine.run both.start actions =
      ((Halves.machine both.StartedByLower).run Halves.start actions).map
        both.render := by
    rw [← both.render_start]
    exact Machine.run_render both.step_render Halves.start
  rw [← both.best_iff, ← Halves.alwaysKeepSame_iff]
  refine forall_congr' fun actions => ?_
  rw [hrun]
  constructor
  · intro hnodes halves hhalves hquiet
    refine (both.keepSame_render_iff halves).mp (hnodes _ ?_ ?_)
    · rw [hhalves]
      rfl
    · exact (hstuck halves).mpr hquiet
  · intro hsides nodes hnodes hquiet
    obtain ⟨halves, hhalves, rfl⟩ := Option.map_eq_some_iff.mp hnodes
    exact (both.keepSame_render_iff halves).mpr
      (hsides halves hhalves ((hstuck halves).mp hquiet))

/-! ## Two sessions that the same device started -/

/-- A node whose sessions have all come to their end has nothing left to do. -/
theorem stuck_of_done {nodes : Side → Node}
    (hdone : ∀ side, ∀ task ∈ (nodes side).tasks, task = .done) :
    both.machine.Stuck nodes := by
  rintro ⟨side, action⟩
  have hnone : (nodes side).step (both.id side) (nodeAction action) = none := by
    have htask : ∀ index : ℕ, (nodes side).tasks[index]? = none ∨
        (nodes side).tasks[index]? = some .done := by
      intro index
      cases htask : (nodes side).tasks[index]? with
      | none => exact Or.inl rfl
      | some task =>
          rw [hdone side task (List.mem_of_getElem? htask)]
          exact Or.inr rfl
    cases action with
    | _ index =>
        dsimp only [nodeAction, Node.step]
        rcases htask index with h | h <;> rw [h]
  change (if _ then _ else _) = _
  rw [hnone, Option.map_none, ite_self]

/-- The laptop, with ID 5, and the desktop, with ID 9, are paired, and the
laptop starts both sessions: one over TCP and one through the relay. -/
def twice : Duplicates 2 where
  id := fun
    | .lower => ⟨5⟩
    | .higher => ⟨9⟩
  ordered := by decide
  store := fun
    | .lower =>
        PeerStore.empty.put
          { PeerStore.laptop 10 with
            deviceId := ⟨9⟩, name := "desktop", publicKey := 4 }
    | .higher => PeerStore.paired 10
  key := fun
    | .lower => 4
    | .higher => 7
  listed := fun side => by cases side <;> decide
  started := fun _ => .lower
  connId := fun _ index => index.val
  distinct := fun _ => Fin.val_injective
  nextConnId := fun _ => 2

/-- The first session is registered first on the laptop and the second one first
on the desktop.  Each then ends on the side that has it, because the other turned
it down. -/
def oppositeOrders : List (Side × StageAction (Fin 2)) :=
  let first : Fin 2 := ⟨0, Nat.two_pos⟩
  let second : Fin 2 := ⟨1, Nat.one_lt_two⟩
  Halves.onSide .lower
      [.check first, .insert first, .check second, .insert second] ++
    Halves.onSide .higher
        [.check second, .insert second, .check first, .insert first] ++
      Halves.onSide .lower [.readEnds first, .unregister first] ++
        Halves.onSide .higher [.readEnds second, .unregister second]

/-- Nothing is left to do, and neither device has a connection. -/
theorem not_keepSame_twice :
    ∃ final ∈ twice.machine.run twice.start oppositeOrders,
      twice.machine.Stuck final ∧ ¬ twice.KeepSame final := by
  obtain ⟨final, hrun, hlower, hhigher, hnone⟩ :
      ∃ final ∈ twice.machine.run twice.start oppositeOrders,
        (∀ task ∈ (final .lower).tasks, task = .done) ∧
          (∀ task ∈ (final .higher).tasks, task = .done) ∧
            (final .lower).conns ⟨9⟩ = none := by
    decide
  refine ⟨final, hrun, twice.stuck_of_done fun side => ?_, ?_⟩
  · cases side with
    | lower => exact hlower
    | higher => exact hhigher
  · rintro ⟨_, hconns, _⟩
    obtain ⟨conn, hconn, _⟩ := hconns .lower
    exact absurd (hnone.symm.trans hconn) nofun

end Duplicates

end Cled.Lan
