import Cled.Lan.Redialing

/-!
# Dialing a device that stays offline

A dial that does not get through is over when its timeouts are, and then the
device is left alone for so long at most.  So a node that does its work promptly
tries a device that stays offline again and again.
-/

namespace Cled.Lan

open Cled.Core Cled.Sync

/-! ## How long a dial takes -/

/-- What a dial takes at most that has so many discovered addresses to try, and
the last one that worked. -/
def slowest (most : ℕ) : ℕ := connectTimeout * (most + 1) + handshakeTimeout

namespace Dial

/-- The dial waits for the network, or is over. -/
def Waits (dial : Dial) : Prop :=
  match dial.phase with
  | .trying _ (_ :: _) _ _ | .shaking _ _ _ | .greeting _ _ | .done => True
  | _ => False

instance : DecidablePred Waits := fun dial => by
  unfold Waits
  split <;> infer_instance

/-- How long the network has to answer a dial. -/
def deadline (dial : Dial) : Option ℕ :=
  match dial.phase with
  | .trying _ (_ :: _) _ deadline | .shaking _ _ deadline => some deadline
  | _ => none

/-- The device with which a dial exchanges hellos. -/
def greets (dial : Dial) : Option DeviceId :=
  match dial.phase with
  | .greeting _ _ => some dial.peer
  | _ => none

/-- When a dial is over that goes on as soon as it can, and that gets no answer
or bad ones. -/
def overBy (most now : ℕ) (dial : Dial) : ℕ :=
  match dial.phase with
  | .looking | .addressing _ => now + slowest most
  | .trying _ (_ :: left) _ deadline =>
      max now deadline + connectTimeout * left.length + handshakeTimeout
  | .writing _ _ => now + handshakeTimeout
  | .shaking _ _ deadline => max now deadline
  | _ => now

variable {dial : Dial} {most now ms : ℕ}

theorem le_overBy (most now : ℕ) (dial : Dial) : now ≤ dial.overBy most now := by
  unfold overBy
  split <;> omega

theorem overBy_add_le (most now ms : ℕ) (dial : Dial) :
    dial.overBy most (now + ms) ≤ dial.overBy most now + ms := by
  unfold overBy
  split <;> omega

/-- Time that passes before the deadline of a dial does not delay it. -/
theorem overBy_pass {device : DeviceId} (hholds : dial.holds = some device)
    (hsilent : dial.greets ≠ some device) (hwaits : dial.Waits)
    (hdeadline : ∀ deadline ∈ dial.deadline, now + ms ≤ deadline) :
    dial.overBy most (now + ms) ≤ dial.overBy most now := by
  obtain ⟨peer, phase⟩ := dial
  cases phase with
  | trying found left lastError deadline =>
      cases left with
      | nil => exact hwaits.elim
      | cons address left =>
          have hsoon := hdeadline deadline rfl
          dsimp only [overBy]
          omega
  | shaking found address deadline =>
      have hsoon := hdeadline deadline rfl
      dsimp only [overBy]
      omega
  | greeting found address => exact absurd hholds hsilent
  | done => cases hholds
  | _ => exact hwaits.elim

end Dial

/-- Discovery lists no more addresses of a device than this. -/
def DialAction.Lists (most : ℕ) : DialAction → Prop
  | .setDiscovered _ addresses => addresses.length ≤ most
  | _ => True

instance (most : ℕ) : DecidablePred (DialAction.Lists most)
  | .setDiscovered _ _ => inferInstanceAs (Decidable (_ ≤ _))
  | .pass _ | .tick | .spawnDue | .trigger _ | .onDiscovered _ | .advance _
  | .reached _ _ | .written _ _ | .shaken _ _ | .timeOut _ | .greeted _ _
  | .clearOffline _ | .noteOffline _ | .dropBackoff _ | .clearBackoff
  | .setConnected _ _ | .setStore _ => inferInstanceAs (Decidable True)

namespace Dialer

variable {me : DeviceId} {redialInterval most : ℕ}

/-- No dial takes longer from now on than one that has all to do. -/
structure Bounded (most : ℕ) (dialer : Dialer) : Prop where
  discovered : ∀ device, (dialer.discovered device).length ≤ most
  dials : ∀ dial ∈ dialer.dials,
    dial.overBy most dialer.now ≤ dialer.now + slowest most

theorem bounded_start (most now : ℕ) (store : PeerStore) :
    (start now store).Bounded most where
  discovered _ := Nat.zero_le most
  dials := nofun

theorem length_addressesOf_le {dialer : Dialer}
    (hdiscovered : ∀ device, (dialer.discovered device).length ≤ most)
    (found : Peer) : (dialer.addressesOf found).length ≤ most + 1 := by
  have hfew := hdiscovered found.deviceId
  unfold addressesOf
  dsimp only
  split
  · split
    · exact hfew.trans (Nat.le_succ most)
    · rw [List.length_append, List.length_singleton]
      exact Nat.succ_le_succ hfew
  · exact hfew.trans (Nat.le_succ most)

/-- A dial that tries the next of these addresses now. -/
theorem overBy_tryNext_le (now : ℕ) (peer : DeviceId) (found : Peer)
    (left : List SocketAddr) (error : LanError) :
    Dial.overBy most now ⟨peer, .trying found left error (now + connectTimeout)⟩ ≤
      now + connectTimeout * left.length + handshakeTimeout := by
  cases left with
  | nil =>
      dsimp only [Dial.overBy]
      omega
  | cons address left =>
      dsimp only [Dial.overBy]
      rw [List.length_cons, Nat.mul_succ]
      omega

/-- A dial that goes on is not over later than it would have been. -/
theorem Follows.overBy_le {dialer : Dialer} {peer : DeviceId}
    {old new : DialPhase} (hfollows : Follows me redialInterval dialer peer old new)
    (hdiscovered : ∀ device, (dialer.discovered device).length ≤ most) :
    Dial.overBy most dialer.now ⟨peer, new⟩ ≤
      Dial.overBy most dialer.now ⟨peer, old⟩ := by
  cases hfollows with
  | listed found =>
      refine (overBy_tryNext_le _ _ _ _ _).trans ?_
      have hlength := Nat.mul_le_mul_left connectTimeout
        (length_addressesOf_le hdiscovered found)
      dsimp only [Dial.overBy, slowest]
      omega
  | unreachable found address left lastError error deadline =>
      refine (overBy_tryNext_le _ _ _ _ _).trans ?_
      dsimp only [Dial.overBy]
      omega
  | _ =>
      dsimp only [Dial.overBy]
      omega

theorem bounded_step (dialer : Dialer) (action : DialAction) (next : Dialer)
    (hbounded : dialer.Bounded most) (hlists : action.Lists most)
    (hstep : (machine me redialInterval).step dialer action = some next) :
    next.Bounded most := by
  obtain ⟨hdiscovered, hdials⟩ := hbounded
  have hidle : dialer.now ≤ dialer.now + slowest most := Nat.le_add_right _ _
  cases stepped hstep with
  | passed ms =>
      refine ⟨hdiscovered, fun dial hmem => ?_⟩
      have hold := hdials dial hmem
      have hlater := dial.overBy_add_le most dialer.now ms
      dsimp only
      omega
  | spawned device rest hdue hconnected =>
      exact ⟨hdiscovered, forall_concat hdials hidle⟩
  | triggered action device => exact ⟨hdiscovered, forall_concat hdials hidle⟩
  | moved action index peer old new hdial hfollows =>
      refine ⟨hdiscovered, forall_set hdials ?_⟩
      exact (hfollows.overBy_le hdiscovered).trans
        (hdials _ (List.mem_of_getElem? hdial))
  | entered index peer hdial hfree =>
      exact ⟨hdiscovered, forall_set hdials (le_refl _)⟩
  | left index peer result hdial => exact ⟨hdiscovered, forall_set hdials hidle⟩
  | recorded index peer result hdial =>
      cases result with
      | ok _ => exact ⟨hdiscovered, forall_set hdials hidle⟩
      | error error => exact ⟨hdiscovered, forall_set hdials hidle⟩
  | discovered device addresses =>
      refine ⟨?_, hdials⟩
      exact (Function.forall_update_iff dialer.discovered fun _ addresses =>
        addresses.length ≤ most).mpr ⟨hlists, fun other _ => hdiscovered other⟩
  | _ => exact ⟨hdiscovered, hdials⟩

theorem bounded_run {now : ℕ} {store : PeerStore} {actions : List DialAction}
    {final : Dialer} (hlists : ∀ action ∈ actions, action.Lists most)
    (hrun : (machine me redialInterval).run (start now store) actions =
      some final) : final.Bounded most :=
  Machine.run_of_invariant bounded_step (bounded_start most now store)
    (Machine.along_of_forall _ hlists _) hrun

/-! ## A device that is offline -/

/-- Time passes only when everything is done that can be done: the dial loop
waits for its next tick, which is not passed over, and each dial waits for the
network, no longer than its deadline. -/
def Prompt (dialer : Dialer) : DialAction → Prop
  | .pass ms =>
      dialer.due = [] ∧ dialer.now + ms ≤ dialer.nextTick ∧
        ∀ dial ∈ dialer.dials, dial.Waits ∧
          ∀ deadline ∈ dial.deadline, dialer.now + ms ≤ deadline
  | _ => True

instance (dialer : Dialer) : DecidablePred dialer.Prompt
  | .pass ms => inferInstanceAs (Decidable (_ ∧ _ ∧ ∀ dial ∈ dialer.dials,
      dial.Waits ∧ ∀ deadline ∈ dial.deadline, dialer.now + ms ≤ deadline))
  | .tick | .spawnDue | .trigger _ | .onDiscovered _ | .advance _ | .reached _ _
  | .written _ _ | .shaken _ _ | .timeOut _ | .greeted _ _ | .clearOffline _
  | .noteOffline _ | .dropBackoff _ | .clearBackoff | .setConnected _ _
  | .setStore _ | .setDiscovered _ _ => inferInstanceAs (Decidable True)

/-- A paired device that is not connected, and that has not got through the
handshake of a dial either. -/
structure Offline (device : DeviceId) (dialer : Dialer) : Prop where
  paired : ∃ peer ∈ dialer.store.peers, peer.deviceId = device
  unconnected : dialer.connected device = false
  silent : ∀ dial ∈ dialer.dials, dial.greets ≠ some device

instance (device : DeviceId) (dialer : Dialer) :
    Decidable (Offline device dialer) :=
  decidable_of_iff
    ((∃ peer ∈ dialer.store.peers, peer.deviceId = device) ∧
      dialer.connected device = false ∧
      ∀ dial ∈ dialer.dials, dial.greets ≠ some device)
    ⟨fun ⟨hpaired, hunconnected, hsilent⟩ => ⟨hpaired, hunconnected, hsilent⟩,
      fun hoffline => ⟨hoffline.paired, hoffline.unconnected, hoffline.silent⟩⟩

/-- What a run is to be like: time passes promptly while the device is paired and
offline, it is not noted again that it went offline, and discovery lists only so
many addresses. -/
def StaysOffline (most : ℕ) (device : DeviceId) (dialer : Dialer)
    (action : DialAction) : Prop :=
  Offline device dialer ∧ dialer.Prompt action ∧ action ≠ .noteOffline device ∧
    action.Lists most

instance (most : ℕ) (device : DeviceId) (dialer : Dialer) (action : DialAction) :
    Decidable (dialer.StaysOffline most device action) :=
  inferInstanceAs (Decidable (_ ∧ _ ∧ _ ∧ _))

/-! ## While the device is being dialed -/

/-- A dial to the device is over by then. -/
def OverBy (most : ℕ) (device : DeviceId) (limit now : ℕ) (dial : Dial) : Prop :=
  dial.holds = some device ∧ dial.overBy most now ≤ limit

structure Busy (most : ℕ) (device : DeviceId) (limit : ℕ) (dialer : Dialer) :
    Prop where
  bounded : dialer.Bounded most
  dial : ∃ dial ∈ dialer.dials, OverBy most device limit dialer.now dial

theorem Busy.now_le {device : DeviceId} {limit : ℕ} {dialer : Dialer}
    (hbusy : dialer.Busy most device limit) : dialer.now ≤ limit := by
  obtain ⟨dial, -, -, hover⟩ := hbusy.dial
  exact (dial.le_overBy most dialer.now).trans hover

/-- A step goes on with the dial to a device that stays offline, or ends it. -/
theorem busy_step {device : DeviceId} {limit : ℕ} (dialer : Dialer)
    (action : DialAction) (next : Dialer)
    (hbusy : dialer.Busy most device limit)
    (hstays : dialer.StaysOffline most device action)
    (hstep : (machine me redialInterval).step dialer action = some next) :
    (device ∉ next.dialing ∧ next.now ≤ limit) ∨ next.Busy most device limit := by
  have hsoon := hbusy.now_le
  obtain ⟨⟨-, -, hsilent⟩, hprompt, -, hlists⟩ := hstays
  obtain ⟨hbounded, hdialing⟩ := hbusy
  have hnext : next.Bounded most := bounded_step _ _ _ hbounded hlists hstep
  have hother (new : Dial) {old : Dial} {index : ℕ}
      (hdial : dialer.dials[index]? = some old) (hold : old.holds ≠ some device) :
      ∃ dial ∈ dialer.dials.set index new,
        OverBy most device limit dialer.now dial :=
    (exists_set_or hdialing hdial new).resolve_left fun hover => hold hover.1
  cases stepped hstep with
  | passed ms =>
      obtain ⟨-, -, hwaits⟩ := hprompt
      obtain ⟨dial, hmem, hholds, hover⟩ := hdialing
      obtain ⟨hwaiting, hdeadline⟩ := hwaits dial hmem
      refine .inr ⟨hnext, dial, hmem, hholds, ?_⟩
      exact (Dial.overBy_pass hholds (hsilent dial hmem) hwaiting hdeadline).trans
        hover
  | spawned other rest hdue hconnected =>
      exact .inr ⟨hnext, exists_concat hdialing _⟩
  | triggered action other => exact .inr ⟨hnext, exists_concat hdialing _⟩
  | moved action index peer old new hdial hfollows =>
      refine .inr ⟨hnext, ?_⟩
      rcases exists_set_or hdialing hdial ⟨peer, new⟩ with hover | hstill
      · exact exists_set_self hdial ⟨hfollows.holds_eq.trans hover.1,
          (hfollows.overBy_le hbounded.discovered).trans hover.2⟩
      · exact hstill
  | entered index peer hdial hfree =>
      exact .inr ⟨hnext, hother _ hdial nofun⟩
  | left index peer result hdial =>
      by_cases hpeer : peer = device
      · exact .inl ⟨hpeer ▸ Finset.notMem_erase peer _, hsoon⟩
      · exact .inr ⟨hnext, hother _ hdial fun hholds =>
          hpeer (Option.some.inj hholds)⟩
  | recorded index peer result hdial =>
      have hstill := hother ⟨peer, .done⟩ hdial nofun
      cases result with
      | ok _ => exact .inr ⟨hnext, hstill⟩
      | error error => exact .inr ⟨hnext, hstill⟩
  | _ => exact .inr ⟨hnext, hdialing⟩

theorem busy_of_dialing {device : DeviceId} {dialer : Dialer}
    (honce : dialer.DialsOnce) (hbounded : dialer.Bounded most)
    (hdialing : device ∈ dialer.dialing) :
    dialer.Busy most device (dialer.now + slowest most) := by
  obtain ⟨dial, hmem, hholds⟩ := List.mem_filterMap.mp ((honce.mem device).mp hdialing)
  exact ⟨hbounded, dial, hmem, hholds, hbounded.dials dial hmem⟩

/-! ## While it is not -/

/-- A dial that has yet to put its device into `dialing`. -/
def Heads (device : DeviceId) (dial : Dial) : Prop :=
  dial.peer = device ∧
    (dial.phase = .checking ∨ dial.phase = .deciding ∨ dial.phase = .entering)

/-- A dial that has yet to note its result. -/
def Records (device : DeviceId) (dial : Dial) : Prop :=
  dial.peer = device ∧ ∃ result, dial.phase = .recording result

/-- From then on neither the backoff nor `should_dial` holds back a device that
was last heard of at `since`. -/
def ripe (redialInterval since : ℕ) : ℕ :=
  since + max maxBackoff (redialInterval * fallbackDialIntervals)

/-- The device has not been dialed since `since`.  Its last failure was no later;
and its turn comes at the first tick after it is ripe, or has come. -/
structure Neglected (redialInterval : ℕ) (device : DeviceId) (since : ℕ)
    (dialer : Dialer) : Prop where
  inv : dialer.DialInv redialInterval
  free : device ∉ dialer.dialing
  last : (streakOf device dialer.marks).last ≤ since
  started : dialer.started ≤ since
  offline : dialer.offlineFrom device ≤ since
  records : (∃ dial ∈ dialer.dials, Records device dial) → dialer.now ≤ since
  turn : dialer.nextTick ≤ ripe redialInterval since + redialInterval ∨
    ripe redialInterval since ≤ dialer.now ∧
      (device ∈ dialer.due ∨ ∃ dial ∈ dialer.dials, Heads device dial)
  now : dialer.now ≤ ripe redialInterval since + redialInterval

theorem Neglected.ready {dialer : Dialer} {device : DeviceId} {since : ℕ}
    (hneglected : dialer.Neglected redialInterval device since)
    (hripe : ripe redialInterval since ≤ dialer.now) : dialer.Ready device := by
  refine (hneglected.inv.scheduled.ready_iff device).mpr (.of_cap ?_)
  have hmax := le_max_left maxBackoff (redialInterval * fallbackDialIntervals)
  exact (Nat.add_le_add hneglected.last hmax).trans hripe

theorem Neglected.shouldDial {dialer : Dialer} {device : DeviceId} {since : ℕ}
    (hneglected : dialer.Neglected redialInterval device since)
    (hripe : ripe redialInterval since ≤ dialer.now) (me : DeviceId) :
    dialer.ShouldDial me redialInterval device := by
  have hmax := le_max_right maxBackoff (redialInterval * fallbackDialIntervals)
  exact .inr ((Nat.add_le_add hneglected.offline hmax).trans hripe)

theorem Heads.not_waits {device : DeviceId} {dial : Dial}
    (hheads : Heads device dial) : ¬ dial.Waits := by
  obtain ⟨peer, phase⟩ := dial
  obtain ⟨-, hphase⟩ := hheads
  dsimp only at hphase
  rcases hphase with rfl | rfl | rfl <;> exact id

theorem Records.not_waits {device : DeviceId} {dial : Dial}
    (hrecords : Records device dial) : ¬ dial.Waits := by
  obtain ⟨peer, phase⟩ := dial
  obtain ⟨-, result, hphase⟩ := hrecords
  dsimp only at hphase
  subst hphase
  exact id

theorem Follows.not_records {dialer : Dialer} {device peer : DeviceId}
    {old new : DialPhase} (hfollows : Follows me redialInterval dialer peer old new) :
    ¬ Records device ⟨peer, new⟩ := by
  rintro ⟨-, result, hphase⟩
  cases hfollows <;> cases hphase

/-- A dial to a device that is to be dialed goes on towards dialing it. -/
theorem Follows.heads {dialer : Dialer} {device peer : DeviceId}
    {old new : DialPhase} (hfollows : Follows me redialInterval dialer peer old new)
    (hheads : Heads device ⟨peer, old⟩) (hfree : device ∉ dialer.dialing)
    (hoffline : dialer.connected device = false)
    (hshould : dialer.ShouldDial me redialInterval device) :
    Heads device ⟨peer, new⟩ := by
  obtain ⟨rfl, hphase⟩ := hheads
  dsimp only at hphase
  cases hfollows with
  | connected hconnected => exact absurd (hoffline.symm.trans hconnected) nofun
  | unconnected hconnected => exact ⟨rfl, .inr (.inl rfl)⟩
  | allowed hdials => exact ⟨rfl, .inr (.inr rfl)⟩
  | refused hdials => exact absurd hshould hdials
  | taken hdialing => exact absurd hdialing hfree
  | _ => rcases hphase with hphase | hphase | hphase <;> cases hphase

theorem not_records_checking (device peer : DeviceId) :
    ¬ Records device ⟨peer, .checking⟩ := fun hrecords => nomatch hrecords.2

/-- A dial has put the device into `dialing`, and goes on to connect to it. -/
structure Entered (device : DeviceId) (dialer : Dialer) : Prop where
  dialing : device ∈ dialer.dialing
  looking : ⟨device, .looking⟩ ∈ dialer.dials

/-- A step leaves a device that stays offline neglected, or dials it. -/
theorem neglected_step {device : DeviceId} {since : ℕ} (dialer : Dialer)
    (action : DialAction) (next : Dialer)
    (hneglected : dialer.Neglected redialInterval device since)
    (hstays : dialer.StaysOffline most device action)
    (hstep : (machine me redialInterval).step dialer action = some next) :
    next.Entered device ∨ next.Neglected redialInterval device since := by
  obtain ⟨⟨hpaired, hunconnected, -⟩, hprompt, hnotNoted, -⟩ := hstays
  have hready := hneglected.ready
  have hshould := fun hripe => hneglected.shouldDial hripe me
  obtain ⟨hinv, hfree, hlast, hstarted, hoffline, hrecords, hturn, hnow⟩ :=
    hneglected
  have hnext : next.DialInv redialInterval := dialInv_step _ _ _ hinv hstep
  cases stepped hstep with
  | passed ms =>
      obtain ⟨hdue, htime, hwaits⟩ := hprompt
      have hheads : ¬ ∃ dial ∈ dialer.dials, Heads device dial := by
        rintro ⟨dial, hmem, hheads⟩
        exact hheads.not_waits (hwaits dial hmem).1
      have htick := hturn.resolve_right fun hcase =>
        hcase.2.elim (fun hmem => absurd hmem (hdue ▸ List.not_mem_nil)) hheads
      refine .inr ⟨hnext, hfree, hlast, hstarted, hoffline, ?_, .inl htick,
        htime.trans htick⟩
      rintro ⟨dial, hmem, hrecord⟩
      exact absurd (hwaits dial hmem).1 hrecord.not_waits
  | ticked hdue htime =>
      refine .inr ⟨hnext, hfree, hlast, hstarted, hoffline, hrecords, ?_, hnow⟩
      by_cases hsoon : dialer.nextTick ≤ ripe redialInterval since
      · exact .inl (Nat.add_le_add_right hsoon _)
      · have hripe : ripe redialInterval since ≤ dialer.now := by omega
        refine .inr ⟨hripe, .inl (List.mem_filter.mpr ⟨?_, decide_eq_true ?_⟩)⟩
        · exact List.mem_map.mpr hpaired
        · exact hready hripe
  | skipped other rest hdue hconnected =>
      have hother : device ≠ other := by
        rintro rfl
        exact absurd (hunconnected.symm.trans hconnected) nofun
      refine .inr ⟨hnext, hfree, hlast, hstarted, hoffline, hrecords, ?_, hnow⟩
      refine hturn.imp_right (And.imp_right (Or.imp_left fun hmem => ?_))
      rw [hdue] at hmem
      exact (List.mem_cons.mp hmem).resolve_left hother
  | spawned other rest hdue hconnected =>
      refine .inr ⟨hnext, hfree, hlast, hstarted, hoffline, fun hsome => hrecords
        (exists_of_concat hsome (not_records_checking device other)), ?_, hnow⟩
      refine hturn.imp_right (And.imp_right fun hcase => ?_)
      rcases hcase with hmem | hheads
      · rw [hdue] at hmem
        rcases List.mem_cons.mp hmem with rfl | hrest
        · exact .inr ⟨_, List.mem_concat_self, rfl, .inl rfl⟩
        · exact .inl hrest
      · exact .inr (exists_concat hheads _)
  | triggered action other =>
      refine .inr ⟨hnext, hfree, last_forget_le hlast other, hstarted, hoffline,
        fun hsome => hrecords
          (exists_of_concat hsome (not_records_checking device other)), ?_, hnow⟩
      exact hturn.imp_right (And.imp_right (Or.imp_right fun hheads =>
        exists_concat hheads _))
  | moved action index peer old new hdial hfollows =>
      refine .inr ⟨hnext, hfree, hlast, hstarted, hoffline, fun hsome => hrecords
        (exists_of_set hsome hfollows.not_records), ?_, hnow⟩
      refine hturn.imp_right fun ⟨hripe, hcase⟩ => ⟨hripe, hcase.imp_right ?_⟩
      intro hheads
      rcases exists_set_or hheads hdial ⟨peer, new⟩ with hold | hother
      · exact exists_set_self hdial
          (hfollows.heads hold hfree hunconnected (hshould hripe))
      · exact hother
  | entered index peer hdial hother =>
      by_cases hpeer : peer = device
      · subst hpeer
        obtain ⟨hlt, -⟩ := List.getElem?_eq_some_iff.mp hdial
        exact .inl ⟨Finset.mem_insert_self _ _, List.mem_set hlt _⟩
      · refine .inr ⟨hnext, ?_, hlast, hstarted, hoffline, fun hsome => hrecords
          (exists_of_set hsome fun hnew => nomatch hnew.2), ?_, hnow⟩
        · exact fun hmem => (Finset.mem_insert.mp hmem).elim
            (fun heq => hpeer heq.symm) hfree
        · refine hturn.imp_right (And.imp_right (Or.imp_right fun hheads => ?_))
          exact (exists_set_or hheads hdial _).resolve_left fun hold =>
            hpeer hold.1
  | left index peer result hdial =>
      have hpeer : peer ≠ device := by
        rintro rfl
        refine hfree ((hinv.once.mem peer).mpr (List.mem_filterMap.mpr ?_))
        exact ⟨_, List.mem_of_getElem? hdial, rfl⟩
      refine .inr ⟨hnext, ?_, hlast, hstarted, hoffline, fun hsome => hrecords
        (exists_of_set hsome fun hnew => hpeer hnew.1), ?_, hnow⟩
      · exact fun hmem => hfree (Finset.mem_of_mem_erase hmem)
      · refine hturn.imp_right (And.imp_right (Or.imp_right fun hheads => ?_))
        exact (exists_set_or hheads hdial _).resolve_left fun hold => hpeer hold.1
  | recorded index peer result hdial =>
      have hlastNext := last_record_le hlast (fun hpeer => hrecords
        ⟨_, List.mem_of_getElem? hdial, hpeer, result, rfl⟩) result
      have hother : ∀ {P : Dial → Prop}, ¬ P ⟨peer, .recording result⟩ →
          (∃ dial ∈ dialer.dials, P dial) →
            ∃ dial ∈ dialer.dials.set index ⟨peer, .done⟩, P dial :=
        fun hold hsome => (exists_set_or hsome hdial _).resolve_left hold
      have hheads : ¬ Heads device ⟨peer, .recording result⟩ := fun hold => by
        rcases hold.2 with hphase | hphase | hphase <;> cases hphase
      have hset : (∃ dial ∈ dialer.dials.set index ⟨peer, .done⟩,
          Records device dial) → dialer.now ≤ since := fun hsome =>
        hrecords (exists_of_set hsome fun hnew => nomatch hnew.2)
      have hturnNext := hturn.imp_right (And.imp_right
        (Or.imp_right (hother hheads)))
      cases result with
      | ok _ =>
          exact .inr ⟨hnext, hfree, hlastNext, hstarted, hoffline, hset, hturnNext,
            hnow⟩
      | error error =>
          exact .inr ⟨hnext, hfree, hlastNext, hstarted, hoffline, hset, hturnNext,
            hnow⟩
  | offlineCleared other =>
      exact .inr ⟨hnext, hfree, hlast, hstarted,
        offlineFrom_update_le hoffline fun _ => hstarted, hrecords, hturn, hnow⟩
  | offlineNoted other =>
      have hother : other ≠ device := fun heq => hnotNoted (heq ▸ rfl)
      exact .inr ⟨hnext, hfree, hlast, hstarted,
        offlineFrom_update_le hoffline fun heq => absurd heq hother, hrecords,
        hturn, hnow⟩
  | backoffDropped other =>
      exact .inr ⟨hnext, hfree, last_forget_le hlast other, hstarted, hoffline,
        hrecords, hturn, hnow⟩
  | backoffCleared =>
      refine .inr ⟨hnext, hfree, ?_, hstarted, hoffline, hrecords, hturn, hnow⟩
      dsimp only
      rw [streakOf_concat]
      exact Nat.zero_le _
  | _ =>
      exact .inr ⟨hnext, hfree, hlast, hstarted, hoffline, hrecords, hturn, hnow⟩

/-- A device that is not being dialed from now on. -/
theorem neglected_of_free {device : DeviceId} {dialer : Dialer}
    (hinv : dialer.DialInv redialInterval) (hfree : device ∉ dialer.dialing) :
    dialer.Neglected redialInterval device dialer.now := by
  have hripe : dialer.now ≤ ripe redialInterval dialer.now := Nat.le_add_right _ _
  exact
    { inv := hinv
      free := hfree
      last := hinv.timely.failures device
      started := hinv.timely.started
      offline := hinv.timely.offline device
      records := fun _ => le_refl _
      turn := .inl (hinv.timely.tick.trans (Nat.add_le_add_right hripe _))
      now := hripe.trans (Nat.le_add_right _ _) }

/-- When a device that stays offline is dialed anew at the latest: a dial that
goes on is over, the device is ripe, and one more interval has passed. -/
def redialed (redialInterval most since : ℕ) : ℕ :=
  ripe redialInterval (since + slowest most) + redialInterval

/-- A dial to the device begins that is not running yet, no later than then. -/
structure DialsAnew (device : DeviceId) (limit : ℕ) (before after : Dialer) :
    Prop where
  free : device ∉ before.dialing
  entered : after.Entered device
  now : before.now ≤ limit

theorem dials_anew_of_free {device : DeviceId} {dialer final : Dialer}
    {actions : List DialAction} {limit : ℕ}
    (hinv : dialer.DialInv redialInterval) (hfree : device ∉ dialer.dialing)
    (hrun : (machine me redialInterval).run dialer actions = some final)
    (hstays : (machine me redialInterval).Along (StaysOffline most device) dialer
      actions)
    (hlimit : ripe redialInterval dialer.now + redialInterval ≤ limit)
    (hlong : limit < final.now) :
    ∃ front action back before after, actions = front ++ action :: back ∧
      (machine me redialInterval).run dialer front = some before ∧
      (machine me redialInterval).step before action = some after ∧
      DialsAnew device limit before after := by
  have hneglected := neglected_of_free hinv hfree
  rcases Machine.run_until neglected_step hneglected hstays hrun with
    hstill | ⟨front, action, back, before, after, rfl, hfront, hbefore, hstep, hdials⟩
  · exact absurd (hstill.now.trans hlimit) (Nat.not_le.mpr hlong)
  · exact ⟨front, action, back, before, after, rfl, hfront, hstep, hbefore.free,
      hdials, hbefore.now.trans hlimit⟩

/-- In a run in which time passes promptly, a paired device that stays offline is
dialed anew within the timeouts of a dial that goes on, the longer of the longest
backoff and the fallback's wait, and one more interval of the dial loop.  This
holds from any moment of any run on, whatever has failed before and whichever
device has the lower ID. -/
theorem dialed_within {now : ℕ} {store : PeerStore} {past actions : List DialAction}
    {dialer final : Dialer} (device : DeviceId)
    (hpast : (machine me redialInterval).run (start now store) past =
      some dialer)
    (hlists : ∀ action ∈ past, action.Lists most)
    (hrun : (machine me redialInterval).run dialer actions = some final)
    (hstays : (machine me redialInterval).Along (StaysOffline most device) dialer
      actions)
    (hlong : redialed redialInterval most dialer.now < final.now) :
    ∃ front action back before after, actions = front ++ action :: back ∧
      (machine me redialInterval).run dialer front = some before ∧
      (machine me redialInterval).step before action = some after ∧
      DialsAnew device (redialed redialInterval most dialer.now) before after := by
  have hinv := dialInv_run hpast
  have hripe {middle : ℕ} (hsoon : middle ≤ dialer.now + slowest most) :
      ripe redialInterval middle + redialInterval ≤
        redialed redialInterval most dialer.now :=
    Nat.add_le_add_right (Nat.add_le_add_right hsoon _) _
  by_cases hdialing : device ∈ dialer.dialing
  · have hbusy := busy_of_dialing hinv.once (bounded_run hlists hpast) hdialing
    rcases Machine.run_until busy_step hbusy hstays hrun with
      hstill | ⟨front, action, back, before, middle, rfl, hfront, -, hstep, hfree,
        hsoon⟩
    · have hlater : dialer.now + slowest most ≤
          redialed redialInterval most dialer.now := by
        rw [redialed, ripe]
        omega
      exact absurd (hstill.now_le.trans hlater) (Nat.not_le.mpr hlong)
    -- The dial is over, and the rest of the run begins with the device free.
    · rw [List.append_cons] at hrun hstays
      have hmiddle : (machine me redialInterval).run dialer (front ++ [action]) =
          some middle := by
        rw [Machine.run_append, hfront, Option.bind_some, Machine.run, hstep]
        rfl
      obtain ⟨-, hrest⟩ := hstays.append hmiddle
      rw [Machine.run_append, hmiddle] at hrun
      have hwhole : (machine me redialInterval).run (start now store)
          (past ++ (front ++ [action])) = some middle := by
        rw [Machine.run_append, hpast]
        exact hmiddle
      obtain ⟨later, last, back, before, after, rfl, hlater, hlast, hanew⟩ :=
        dials_anew_of_free (dialInv_run hwhole) hfree hrun hrest (hripe hsoon) hlong
      refine ⟨front ++ action :: later, last, back, before, after, ?_, ?_, hlast,
        hanew⟩
      · rw [List.append_assoc, List.cons_append]
      · rw [List.append_cons, Machine.run_append, hmiddle]
        exact hlater
  · exact dials_anew_of_free hinv hdialing hrun hstays
      (hripe (Nat.le_add_right _ _)) hlong

/-- A tick at which the device with the higher ID does not dial yet. -/
def waits (dial : ℕ) : List DialAction :=
  [.tick, .spawnDue, .advance dial, .advance dial, .pass 10000]

/-- A tick at which it does. -/
def tries (dial : ℕ) : List DialAction :=
  [.tick, .spawnDue] ++ List.replicate 5 (.advance dial)

/-- The only address does not answer, and the rest of the interval passes. -/
def timesOut (dial : ℕ) : List DialAction :=
  [.pass 3000, .timeOut dial] ++ List.replicate 3 (.advance dial) ++ [.pass 7000]

/-- At the fourth tick the node begins to dial. -/
def firstTry : List DialAction := waits 0 ++ waits 1 ++ waits 2 ++ tries 3

/-- It goes on dialing, and one tick is too early after four failures. -/
def noAnswer : List DialAction :=
  timesOut 3 ++ tries 4 ++ timesOut 4 ++ tries 5 ++ timesOut 5 ++ tries 6 ++
    timesOut 6 ++ [.tick, .pass 10000] ++ tries 7 ++ timesOut 7

theorem dialed_within_noAnswer :
    ∃ dialer front action back before after,
      (machine ⟨9⟩ 10000).run (start 0 withServer) firstTry = some dialer ∧
      noAnswer = front ++ action :: back ∧
      (machine ⟨9⟩ 10000).run dialer front = some before ∧
      (machine ⟨9⟩ 10000).step before action = some after ∧
      DialsAnew ⟨7⟩ (redialed 10000 0 dialer.now) before after := by
  obtain ⟨dialer, hpast, hstays, final, hrun, hlong⟩ :
      ∃ dialer ∈ (machine ⟨9⟩ 10000).run (start 0 withServer) firstTry,
        (machine ⟨9⟩ 10000).Along (StaysOffline 0 ⟨7⟩) dialer noAnswer ∧
        ∃ final ∈ (machine ⟨9⟩ 10000).run dialer noAnswer,
          redialed 10000 0 dialer.now < final.now := by
    decide +kernel
  have hlists : ∀ action ∈ firstTry, action.Lists 0 := by decide
  obtain ⟨front, action, back, before, after, hanew⟩ :=
    dialed_within ⟨7⟩ hpast hlists hrun hstays hlong
  exact ⟨dialer, front, action, back, before, after, hpast, hanew⟩

end Dialer

end Cled.Lan
