import Cled.Lan.Listening

/-!
# Who holds a connection

Between operations every connection in the table should be to a listed device,
with the key that is listed.  Each operation changes the store and the table in
two blocks, in one order or the other, so the invariant has a second case: some
task is still to take the connection out.  It is lost when a connection goes in
for a device that was dropped meanwhile, and when the store drops a device, or
replaces its key, that has a connection nobody takes out afterwards.
-/

namespace Cled.Lan

open Cled.Core Cled.Sync

namespace Node

/-- Some task is still to take the connection of the device out of the table. -/
def Due (tasks : List Task) (device : DeviceId) : Prop :=
  ∃ task ∈ tasks, task.Disconnects device

instance (tasks : List Task) (device : DeviceId) :
    Decidable (Due tasks device) :=
  inferInstanceAs (Decidable (∃ task ∈ tasks, _))

/-- No operation is between two of its blocks. -/
def Quiet (node : Node) : Prop := ∀ task ∈ node.tasks, ¬ task.InProgress

instance (node : Node) : Decidable node.Quiet :=
  inferInstanceAs (Decidable (∀ task ∈ node.tasks, _))

/-- Every connection is to a listed device, with the listed key. -/
def ConnsTrusted (node : Node) : Prop :=
  ∀ device, ∀ conn ∈ node.conns device, node.Trusts ⟨device, conn.key⟩

/-- The device has no connection, or one that is still to be taken out. -/
def Unconnected (node : Node) (device : DeviceId) : Prop :=
  node.conns device = none ∨ Due node.tasks device

instance (node : Node) (device : DeviceId) :
    Decidable (node.Unconnected device) :=
  inferInstanceAs (Decidable (_ ∨ _))

/-- A connection goes into the table only for a device that is listed then, with
its key; one that `register` refuses may be anyone's.  The store drops a device,
or replaces its key, only if it is unconnected or `apply_roster` disconnects it
afterwards. -/
def ChangesUnconnected (me : DeviceId) (node : Node) : NodeAction → Prop
  | .insert index =>
      ∀ task ∈ node.tasks[index]?, ∀ insertion ∈ task.inserts,
        node.Admits me insertion.1 insertion.2 →
          node.store.keyOf insertion.1.device = some insertion.1.key ∨
            Due node.tasks insertion.1.device
  | .removeFromStore index _ _ =>
      ∀ task ∈ node.tasks[index]?, ∀ device ∈ task.removes,
        node.Unconnected device
  | .storePeer peer _ =>
      (∀ conn ∈ node.conns peer.deviceId, conn.key = peer.publicKey) ∨
        Due node.tasks peer.deviceId
  | .receiveRoster index roster (.error _) =>
      ∀ task ∈ node.tasks[index]?, ∀ session ∈ task.readsFrom,
        ∀ device ∈ PeerStore.changedIds
            (node.store.mergeEntries me session.device roster).change,
          node.Unconnected device
  | _ => True

instance (me : DeviceId) (node : Node) (action : NodeAction) :
    Decidable (node.ChangesUnconnected me action) := by
  apply NodeAction.casesOn
    (motive := fun action => Decidable (node.ChangesUnconnected me action)) action
  case receiveRoster =>
    intro index roster saved
    apply Except.casesOn (motive := fun saved => Decidable
      (node.ChangesUnconnected me (.receiveRoster index roster saved))) saved
    all_goals intros; dsimp only [ChangesUnconnected]; infer_instance
  all_goals intros; dsimp only [ChangesUnconnected]; infer_instance

/-- Every connection is trusted or still to be taken out. -/
structure ConnInv (node : Node) : Prop where
  store : node.store.WellFormed
  conns : ∀ device, ∀ conn ∈ node.conns device,
    node.Trusts ⟨device, conn.key⟩ ∨ Due node.tasks device

theorem connInv_start {store : PeerStore} (hwell : store.WellFormed) :
    (start store).ConnInv where
  store := hwell
  conns := nofun

theorem Due.spawn {tasks : List Task} {device : DeviceId}
    (hdue : Due tasks device) (task : Task) : Due (tasks ++ [task]) device := by
  obtain ⟨other, hmem, hdisconnects⟩ := hdue
  exact ⟨other, List.mem_append_left _ hmem, hdisconnects⟩

theorem Due.set {tasks : List Task} {device : DeviceId}
    (hdue : Due tasks device) {index : ℕ} {old new : Task}
    (htask : tasks[index]? = some old)
    (hkeeps : old.Disconnects device → new.Disconnects device) :
    Due (tasks.set index new) device := by
  obtain ⟨task, hmem, hdisconnects⟩ := hdue
  rcases eq_or_mem_set htask hmem with rfl | hmem
  · exact ⟨new, mem_set_self htask new, hkeeps hdisconnects⟩
  · exact ⟨task, hmem, hdisconnects⟩

theorem mem_conns_disconnect {node : Node} {device other : DeviceId}
    {conn : Conn} (hmem : conn ∈ (node.disconnect device).conns other) :
    other ≠ device ∧ conn ∈ node.conns other := by
  unfold disconnect at hmem
  by_cases hother : other = device
  · subst hother
    simp at hmem
  · dsimp only at hmem
    rw [Function.update_of_ne hother] at hmem
    exact ⟨hother, hmem⟩

theorem connInv_step (me : DeviceId) (node : Node) (action : NodeAction)
    (next : Node) (hinv : node.ConnInv)
    (hchanges : node.ChangesUnconnected me action)
    (hstep : (machine me).step node action = some next) : next.ConnInv := by
  obtain ⟨hwell, hconns⟩ := hinv
  cases step_outcome me hstep with
  | begun action session initiator hkey =>
      exact ⟨hwell, fun device conn hmem =>
        (hconns device conn hmem).imp_right fun hdue => hdue.spawn _⟩
  | answered action device =>
      exact ⟨hwell, fun device conn hmem =>
        (hconns device conn hmem).imp_right fun hdue => hdue.spawn _⟩
  | moved action index old new htask hfollows =>
      refine ⟨hwell, fun device conn hmem => ?_⟩
      refine (hconns device conn hmem).imp_right fun hdue => ?_
      exact hdue.set htask fun h => absurd h (hfollows.quiet device)
  | touched action index old new htask hfollows store nextConnId hstore hkeys _ =>
      refine ⟨hstore hwell, fun device conn hmem => ?_⟩
      refine (hconns device conn hmem).imp (fun htrusts => ?_) fun hdue => ?_
      · exact (hkeys device).trans htrusts
      · exact hdue.set htask fun h => absurd h (hfollows.quiet device)
  | inserted index session initiator connId htask hadmits =>
      have hkeeps : ∀ device, Due node.tasks device →
          Due (node.tasks.set index (.reading session connId)) device :=
        fun device hdue => hdue.set htask nofun
      refine ⟨hwell, fun device conn hmem => ?_⟩
      by_cases hdevice : device = session.device
      · subst hdevice
        have hnew : conn = ⟨connId, initiator, session.key⟩ := by
          simpa [advance] using hmem.symm
        subst hnew
        exact (hchanges _ htask _ rfl hadmits).imp_right (hkeeps _)
      · have hold : conn ∈ node.conns device := by
          simpa [advance, hdevice] using hmem
        exact (hconns device conn hold).imp_right (hkeeps device)
  | merged index session connId roster saved htask =>
      refine ⟨PeerStore.wellFormed_mergeEntries hwell _ _ _, ?_⟩
      intro device conn hmem
      by_cases hchanged : device ∈ PeerStore.changedIds
          (node.store.mergeEntries me session.device roster).change
      · exact Or.inr ⟨_, mem_set_self htask _, hchanged⟩
      · refine (hconns device conn hmem).imp (fun htrusts => ?_) fun hdue => ?_
        · exact (PeerStore.keyOf_mergeEntries hwell _ _ _ hchanged).trans htrusts
        · exact hdue.set htask nofun
  | mergedOnly index session connId roster saved htask hnone =>
      refine ⟨PeerStore.wellFormed_mergeEntries hwell _ _ _, ?_⟩
      have hkeeps : ∀ device, Due node.tasks device →
          Due (node.tasks.set index (.reading session connId)) device :=
        fun device hdue => hdue.set htask nofun
      intro device conn hmem
      by_cases hchanged : device ∈ PeerStore.changedIds
          (node.store.mergeEntries me session.device roster).change
      · cases saved with
        | ok _ =>
            rw [hnone.resolve_right fun h => h rfl] at hchanged
            contradiction
        | error error =>
            rcases hchanges _ htask _ rfl device hchanged with hfree | hdue
            · rw [Option.mem_def] at hmem
              exact absurd (hfree.symm.trans hmem) nofun
            · exact Or.inr (hkeeps device hdue)
      · refine (hconns device conn hmem).imp (fun htrusts => ?_) (hkeeps device)
        exact (PeerStore.keyOf_mergeEntries hwell _ _ _ hchanged).trans htrusts
  | disconnectedNext index session connId device dropped joined old htask hnext =>
      refine ⟨hwell, fun other conn hmem => ?_⟩
      obtain ⟨hother, hmem⟩ := mem_conns_disconnect hmem
      refine (hconns other conn hmem).imp_right fun hdue => ?_
      refine hdue.set htask fun hold => ?_
      have hold' : other ∈ old.1 ++ old.2 := hold
      rw [hnext] at hold'
      exact (List.mem_cons.mp hold').resolve_left hother
  | left index session connId saved htask =>
      exact ⟨hwell.clearPeers, fun device conn _ =>
        Or.inr ⟨_, mem_set_self htask _, trivial⟩⟩
  | drained index session connId htask =>
      exact ⟨hwell, nofun⟩
  | unregistered index device connId htask =>
      refine ⟨hwell, fun other conn hmem => ?_⟩
      obtain ⟨_, hmem⟩ := mem_conns_disconnect hmem
      exact (hconns other conn hmem).imp_right fun hdue => hdue.set htask nofun
  | disconnected device =>
      refine ⟨hwell, fun other conn hmem => ?_⟩
      obtain ⟨_, hmem⟩ := mem_conns_disconnect hmem
      exact (hconns other conn hmem).imp_right fun hdue => hdue.spawn _
  | removed index device nowMs saved htask =>
      refine ⟨PeerStore.wellFormed_remove hwell _ _ _, fun other conn hmem => ?_⟩
      have hkeeps : ∀ device, Due node.tasks device →
          Due (node.tasks.set index .done) device :=
        fun device hdue => hdue.set htask nofun
      by_cases hother : other = device
      · subst hother
        rcases hchanges _ htask _ rfl with hfree | hdue
        · exact absurd (hfree.symm.trans hmem) nofun
        · exact Or.inr (hkeeps _ hdue)
      · refine (hconns other conn hmem).imp (fun htrusts => ?_) (hkeeps other)
        exact (PeerStore.keyOf_remove hwell _ _ hother).trans htrusts
  | stored peer saved =>
      refine ⟨hwell.put peer, fun other conn hmem => ?_⟩
      by_cases hother : other = peer.deviceId
      · subst hother
        refine hchanges.imp_left fun hkeys => ?_
        rw [Trusts, PeerStore.keyOf_put, if_pos rfl, hkeys conn hmem]
      · refine (hconns other conn hmem).imp_left fun htrusts => ?_
        rw [Trusts, PeerStore.keyOf_put, if_neg hother]
        exact htrusts

/-- In every run in which no connection goes in untrusted and the store changes
only under unconnected devices, a quiet node has trusted connections only, so
that nothing it sends to all of them goes to anyone else. -/
theorem connsTrusted_of_run (me : DeviceId) {store : PeerStore}
    (hstore : store.WellFormed) {actions : List NodeAction} {node : Node}
    (hrun : (machine me).run (start store) actions = some node)
    (hchanges : (machine me).Along (ChangesUnconnected me) (start store) actions)
    (hquiet : node.Quiet) : node.ConnsTrusted := by
  have hinv : node.ConnInv := Machine.run_of_invariant (connInv_step me)
    (connInv_start hstore) hchanges hrun
  intro device conn hmem
  refine (hinv.conns device conn hmem).resolve_right ?_
  rintro ⟨task, htask, hdisconnects⟩
  exact hquiet task htask hdisconnects.inProgress

/-! ## Paired again with a new key -/

section NewKey

/-- The laptop is paired again, with a new key, while it is connected. -/
def pairedAgain : List NodeAction :=
  connected ++
    [.storePeer { PeerStore.laptop 20 with publicKey := 8 } (.ok ())]

/-- The old connection stays in the table. -/
theorem not_connsTrusted_pairedAgain :
    ∃ node ∈ (machine ⟨9⟩).run (start PeerStore.empty) pairedAgain,
      node.Quiet ∧ ¬ node.ConnsTrusted := by
  obtain ⟨node, hrun, hquiet, hconn, hkey⟩ :
      ∃ node ∈ (machine ⟨9⟩).run (start PeerStore.empty) pairedAgain,
        node.Quiet ∧ node.conns ⟨5⟩ = some ⟨0, ⟨5⟩, 7⟩ ∧
          node.store.keyOf ⟨5⟩ = some 8 := by
    decide
  refine ⟨node, hrun, hquiet, fun htrusted => ?_⟩
  have hold : node.store.keyOf ⟨5⟩ = some 7 := htrusted ⟨5⟩ _ hconn
  exact absurd (hkey.symm.trans hold) (by decide)

theorem connsTrusted_connected :
    ∃ node ∈ (machine ⟨9⟩).run (start PeerStore.empty) connected,
      node.conns ⟨5⟩ ≠ none ∧ node.ConnsTrusted := by
  obtain ⟨node, hrun, hquiet, hconn⟩ :
      ∃ node ∈ (machine ⟨9⟩).run (start PeerStore.empty) connected,
        node.Quiet ∧ node.conns ⟨5⟩ ≠ none := by
    decide
  exact ⟨node, hrun, hconn, connsTrusted_of_run ⟨9⟩ PeerStore.wellFormed_empty
    hrun (by decide) hquiet⟩

end NewKey

end Node

end Cled.Lan
