import Cled.Lan.Node

/-!
# Whose messages a node takes

A session is authenticated with the key that the store has when the session
begins, and then listened to until its read loop ends.  Taking the connection
out of the table does not end the loop.  So a message is taken from a device
that is not trusted any more exactly when the store drops the device, or replaces
its key, under a session that is still listened to.
-/

namespace Cled.Lan

open Cled.Core Cled.Sync

namespace Node

/-- The store has the device of the session, with the session's key. -/
def Trusts (node : Node) (session : Session) : Prop :=
  node.store.keyOf session.device = some session.key

/-- Where an item is delivered or a roster is merged, its sender is trusted with
the key that authenticated the session. -/
def TakesFromTrusted (png : PngCodec) (node : Node) : NodeAction → Prop
  | .decoded index =>
      ∀ session connId wire,
        node.tasks[index]? = some (.decoding session connId wire) →
          ∀ item, wire.intoItem png = .ok item → node.Trusts session
  | .receiveRoster index _ _ =>
      ∀ session connId, node.tasks[index]? = some (.reading session connId) →
        node.Trusts session
  | _ => True

/-- Some task listens to a session of the device. -/
def Hears (tasks : List Task) (device : DeviceId) : Prop :=
  ∃ task ∈ tasks, ∃ session ∈ task.session, session.device = device

instance (tasks : List Task) (device : DeviceId) :
    Decidable (Hears tasks device) :=
  inferInstanceAs (Decidable (∃ task ∈ tasks, ∃ session ∈ task.session, _))

/-- Where the store drops a device or replaces its key, no session with it is
listened to any more, except ones with the new key. -/
def DropsUnheard (me : DeviceId) (node : Node) : NodeAction → Prop
  | .removeFromStore index _ _ =>
      ∀ task ∈ node.tasks[index]?, ∀ device ∈ task.removes,
        ¬ Hears node.tasks device
  | .storePeer peer _ =>
      ∀ task ∈ node.tasks, ∀ session ∈ task.session,
        session.device = peer.deviceId → session.key = peer.publicKey
  | .receiveRoster index roster _ =>
      ∀ task ∈ node.tasks[index]?, ∀ session ∈ task.readsFrom,
        ∀ device ∈ PeerStore.changedIds
            (node.store.mergeEntries me session.device roster).change,
          ¬ Hears node.tasks device
  | .receiveBye index _ =>
      ∀ task ∈ node.tasks.eraseIdx index, task.session = none
  | _ => True

instance (me : DeviceId) (node : Node) (action : NodeAction) :
    Decidable (node.DropsUnheard me action) := by
  apply NodeAction.casesOn
    (motive := fun action => Decidable (node.DropsUnheard me action)) action
  all_goals intros; dsimp only [DropsUnheard]; infer_instance

/-- Every session that is listened to is trusted. -/
structure ListenInv (node : Node) : Prop where
  store : node.store.WellFormed
  trusts : ∀ task ∈ node.tasks, ∀ session ∈ task.session, node.Trusts session

theorem listenInv_start {store : PeerStore} (hwell : store.WellFormed) :
    (start store).ListenInv where
  store := hwell
  trusts := nofun

theorem takesFromTrusted_of_listenInv (png : PngCodec) (node : Node)
    (action : NodeAction) (hinv : node.ListenInv) :
    node.TakesFromTrusted png action := by
  cases action with
  | decoded index =>
      intro session connId wire htask _ _
      exact hinv.trusts _ (List.mem_of_getElem? htask) session rfl
  | receiveRoster index _ _ =>
      intro session connId htask
      exact hinv.trusts _ (List.mem_of_getElem? htask) session rfl
  | _ => trivial

/-- A property of all listened sessions survives a task that goes on in its
session or leaves it. -/
theorem forall_session_set {P : Session → Prop} {tasks : List Task}
    (hall : ∀ task ∈ tasks, ∀ session ∈ task.session, P session) {index : ℕ}
    {old new : Task} (htask : tasks[index]? = some old)
    (hsession : ∀ session ∈ new.session, session ∈ old.session) :
    ∀ task ∈ tasks.set index new, ∀ session ∈ task.session, P session := by
  intro task hmem session hin
  rcases List.mem_or_eq_of_mem_set hmem with hmem | rfl
  · exact hall task hmem session hin
  · exact hall old (List.mem_of_getElem? htask) session (hsession session hin)

theorem not_hears_iff {tasks : List Task} {device : DeviceId} :
    ¬ Hears tasks device ↔
      ∀ task ∈ tasks, ∀ session ∈ task.session, session.device ≠ device := by
  simp [Hears]

/-- A merge keeps the invariant if every device it drops or re-keys is not
listened to any more. -/
theorem ListenInv.mergeEntries {node : Node} (hinv : node.ListenInv)
    (me sender : DeviceId) (roster : Roster)
    (hunheard : ∀ device ∈ PeerStore.changedIds
        (node.store.mergeEntries me sender roster).change,
      ¬ Hears node.tasks device) :
    ListenInv
      { node with
        store := (node.store.mergeEntries me sender roster).store } where
  store := PeerStore.wellFormed_mergeEntries hinv.store _ _ _
  trusts task hmem session hin := by
    have hsame := PeerStore.keyOf_mergeEntries hinv.store me sender roster
      fun hchanged => not_hears_iff.mp (hunheard _ hchanged) task hmem session
        hin rfl
    exact hsame.trans (hinv.trusts task hmem session hin)

theorem listenInv_step (me : DeviceId) (node : Node) (action : NodeAction)
    (next : Node) (hinv : node.ListenInv)
    (hdrops : node.DropsUnheard me action)
    (hstep : (machine me).step node action = some next) : next.ListenInv := by
  have ⟨hwell, htrusts⟩ := hinv
  cases step_outcome me hstep with
  | begun action session initiator hkey =>
      refine ⟨hwell, fun task hmem other hin => ?_⟩
      rcases List.mem_append.mp hmem with hmem | hmem
      · exact htrusts task hmem other hin
      · obtain rfl := List.mem_singleton.mp hmem
        obtain rfl := Option.some.inj hin
        exact hkey
  | answered action device =>
      refine ⟨hwell, fun task hmem other hin => ?_⟩
      rcases List.mem_append.mp hmem with hmem | hmem
      · exact htrusts task hmem other hin
      · obtain rfl := List.mem_singleton.mp hmem
        cases hin
  | moved action index old new htask hfollows =>
      exact ⟨hwell, forall_session_set htrusts htask hfollows.session⟩
  | touched action index old new htask hfollows store nextConnId hstore hkeys _ =>
      refine ⟨hstore hwell, ?_⟩
      refine forall_session_set (fun task hmem session hin => ?_) htask
        hfollows.session
      exact (hkeys _).trans (htrusts task hmem session hin)
  | inserted index session initiator connId htask =>
      exact ⟨hwell, forall_session_set htrusts htask fun _ => id⟩
  | merged index session connId roster saved htask =>
      have hmerged := hinv.mergeEntries me session.device roster
        (hdrops _ htask _ rfl)
      exact ⟨hmerged.store,
        forall_session_set hmerged.trusts htask fun _ => id⟩
  | mergedOnly index session connId roster saved htask hnone =>
      have hmerged := hinv.mergeEntries me session.device roster
        (hdrops _ htask _ rfl)
      exact ⟨hmerged.store,
        forall_session_set hmerged.trusts htask fun _ => id⟩
  | disconnectedNext index session connId device dropped joined old htask _ =>
      exact ⟨hwell, forall_session_set htrusts htask fun _ => id⟩
  | left index session connId saved htask =>
      refine ⟨hwell.clearPeers, fun task hmem other hin => ?_⟩
      have hsilent : task.session = none := by
        rcases eq_or_mem_eraseIdx hmem with rfl | hmem
        · rfl
        · exact hdrops task hmem
      rw [hsilent] at hin
      contradiction
  | drained index session connId htask =>
      exact ⟨hwell, forall_session_set htrusts htask nofun⟩
  | unregistered index device connId htask =>
      exact ⟨hwell, forall_session_set htrusts htask nofun⟩
  | disconnected device =>
      refine ⟨hwell, fun task hmem other hin => ?_⟩
      rcases List.mem_append.mp hmem with hmem | hmem
      · exact htrusts task hmem other hin
      · obtain rfl := List.mem_singleton.mp hmem
        cases hin
  | removed index device nowMs saved htask =>
      refine ⟨PeerStore.wellFormed_remove hwell _ _ _, ?_⟩
      refine forall_session_set (fun task hmem other hin => ?_) htask nofun
      have hne := not_hears_iff.mp (hdrops _ htask _ rfl) task hmem other hin
      exact (PeerStore.keyOf_remove hwell _ _ hne).trans
        (htrusts task hmem other hin)
  | stored peer saved =>
      refine ⟨hwell.put peer, fun task hmem other hin => ?_⟩
      by_cases hdevice : other.device = peer.deviceId
      · have hkey := hdrops task hmem other hin hdevice
        rw [Trusts, PeerStore.keyOf_put, if_pos hdevice, hkey]
      · rw [Trusts, PeerStore.keyOf_put, if_neg hdevice]
        exact htrusts task hmem other hin

/-- In every run in which the store changes only under devices that are not
listened to, every item and every roster is taken from a trusted device. -/
theorem takesFromTrusted_along (png : PngCodec) (me : DeviceId)
    {store : PeerStore} (hstore : store.WellFormed) (actions : List NodeAction)
    (hdrops : (machine me).Along (DropsUnheard me) (start store) actions) :
    (machine me).Along (TakesFromTrusted png) (start store) actions :=
  Machine.along_of_invariant
    (fun node action hinv _ => takesFromTrusted_of_listenInv png node action hinv)
    (listenInv_step me) (listenInv_start hstore) hdrops

/-! ## A message after the removal -/

section RemovedDevice

def textOnWire : WireItem :=
  { id := 1, origin := 5, createdAtMs := 15, contentHash := 0
    content := .text "text" }

/-- The laptop is paired and opens a session. -/
def connected : List NodeAction :=
  [.storePeer (PeerStore.laptop 10) (.ok ()), .accept ⟨5⟩,
    .authenticated 0 "laptop" none (.ok ()), .check 0, .insert 0]

/-- The user removes the laptop, and an item arrives before its end closes. -/
def removedWhileListening : List NodeAction :=
  connected ++
    [.removePeer ⟨5⟩, .removeFromStore 1 20 (.ok ()),
      .receiveItem 0 textOnWire]

/-- The item is delivered. -/
theorem not_takesFromTrusted_removed :
    ¬ (machine ⟨9⟩).Along (TakesFromTrusted pixelCodec)
      (start PeerStore.empty) (removedWhileListening ++ [.decoded 0]) := by
  intro halong
  obtain ⟨node, hrun, htask, hkey⟩ :
      ∃ node ∈ (machine ⟨9⟩).run (start PeerStore.empty) removedWhileListening,
        node.tasks[0]? = some (.decoding ⟨⟨5⟩, 7⟩ 0 textOnWire) ∧
          node.store.keyOf ⟨5⟩ = none := by
    decide
  have htrusts := halong.of_run hrun _ _ _ htask _ rfl
  exact absurd (hkey.symm.trans htrusts) nofun

/-- The item arrives, the session ends, and then the user removes the laptop. -/
def removedAfterwards : List NodeAction :=
  connected ++
    [.receiveItem 0 textOnWire, .decoded 0, .readEnds 0, .unregister 0,
      .removePeer ⟨5⟩, .removeFromStore 1 20 (.ok ())]

theorem takesFromTrusted_afterwards :
    (machine ⟨9⟩).Along (TakesFromTrusted pixelCodec)
      (start PeerStore.empty) removedAfterwards :=
  takesFromTrusted_along pixelCodec ⟨9⟩ PeerStore.wellFormed_empty
    removedAfterwards (by decide)

end RemovedDevice

end Node

end Cled.Lan
