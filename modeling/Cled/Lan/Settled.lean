import Cled.Lan.Forward
import Cled.Lan.Spreading

/-!
# When every roster has arrived

Whatever happens in a group, a device that lists a session with a peer has told
it all it knows of third devices, is about to, or has the roster on its way; or
the peer is not behind.  So two devices that have nothing more to tell each
other over their session agree on who else is in the group.
-/

namespace Cled.Lan

open Cled.Core Cled.Sync

open Gossip (Horizon StoreWithin RosterWithin)

/-! ## What is told -/

section Told

variable (horizon : Horizon)

/-- The roster is the one of some store within the horizon. -/
def Sincere (roster : Roster) : Prop :=
  ∃ source, StoreWithin horizon source ∧ roster = source.roster

/-- The roster is of a store that knows this of the device. -/
def Bears (roster : Roster) (id : DeviceId) (standing : Standing PublicKey) :
    Prop :=
  ∃ source, StoreWithin horizon source ∧ roster = source.roster ∧
    source.standing id = standing

namespace Errand

/-- The errand ends with the device telling all its peers, or with no peers. -/
def Announces (me : DeviceId) : Errand → Prop
  | .disconnecting device _ => device = me
  | .telling device only => device = me ∧ only = none
  | .leaving device => device = me
  | _ => False

/-- The errand ends with the sender telling the receiver this of the device, or
with no connection between them. -/
def Owes (sender receiver id : DeviceId) (standing : Standing PublicKey) :
    Errand → Prop
  | .disconnecting me _ => me = sender
  | .telling me only => me = sender ∧ only.all (· = receiver)
  | .sending me only roster =>
      me = sender ∧ only.all (· = receiver) ∧ Bears horizon roster id standing
  | .leaving me => me = sender
  | _ => False

/-- A message that the errand has made is sincere. -/
def Honest : Errand → Prop
  | .sending _ _ roster => Sincere horizon roster
  | _ => True

theorem Announces.owes {me receiver id : DeviceId}
    {standing : Standing PublicKey} {errand : Errand}
    (hannounces : errand.Announces me) :
    errand.Owes horizon me receiver id standing := by
  cases errand with
  | disconnecting _ _ => exact hannounces
  | telling _ only =>
      obtain ⟨hme, rfl⟩ := hannounces
      exact ⟨hme, rfl⟩
  | leaving _ => exact hannounces
  | sending _ _ _ => exact hannounces.elim
  | removing _ _ => exact hannounces.elim
  | done => exact hannounces.elim

end Errand

namespace Spreading

/-- What the sender knows of the device is on its way over the session. -/
def Carried (group : Spreading) (session : ℕ)
    (sender receiver id : DeviceId) : Prop :=
  ∃ letter ∈ group.inFlight, letter.On session sender receiver ∧
    Bears horizon letter.roster id ((group.stores sender).standing id)

/-- It is on its way, or an errand will put it there. -/
def Told (group : Spreading) (session : ℕ) (sender receiver id : DeviceId) :
    Prop :=
  Covered (group.Carried horizon session sender receiver id)
    (Errand.Owes horizon sender receiver id
      ((group.stores sender).standing id)) group.errands

/-- The receiver is not behind the sender with the device. -/
def Caught (group : Spreading) (sender receiver id : DeviceId) : Prop :=
  ¬ ((group.stores sender).standing id).Replaces
    ((group.stores receiver).standing id)

/-- What holds of a third device while the sender lists the session. -/
structure Link (group : Spreading) (session : ℕ)
    (sender receiver id : DeviceId) : Prop where
  waiting : group.ends receiver session = .unopened →
    group.Told horizon session sender receiver id
  met : (sender, session) ∈ group.conns receiver →
    .leaving receiver ∉ group.errands →
      group.Told horizon session sender receiver id ∨
        group.Caught sender receiver id

/-- The invariant of a group within the horizon. -/
structure Spread (group : Spreading) : Prop where
  stores : ∀ device, StoreWithin horizon (group.stores device)
  ends : ∀ device, ∀ conn ∈ group.conns device,
    group.ends device conn.2 = .reading conn.1
  letters : ∀ letter ∈ group.inFlight, Sincere horizon letter.roster
  errands : ∀ errand ∈ group.errands, errand.Honest horizon
  links : ∀ sender receiver session, (receiver, session) ∈ group.conns sender →
    ∀ id, id ≠ sender → id ≠ receiver →
      group.Link horizon session sender receiver id

theorem spread_start : start.Spread horizon where
  stores _ := Gossip.storeWithin_empty
  ends _ := nofun
  letters := nofun
  errands := nofun
  links _ _ _ := nofun

end Spreading

end Told

/-! ## The pieces of a step -/

namespace Spreading

variable {horizon : Horizon} {group : Spreading}

/-- A new errand tells no less. -/
theorem Spread.spawn (hspread : group.Spread horizon) (errand : Errand)
    (hhonest : errand.Honest horizon) :
    (group.spawn errand).Spread horizon where
  stores := hspread.stores
  ends := hspread.ends
  letters := hspread.letters
  errands := forall_concat hspread.errands hhonest
  links sender receiver session hconn id hsender hreceiver := by
    have hlink := hspread.links sender receiver session hconn id hsender
      hreceiver
    refine ⟨fun hunopened => (hlink.waiting hunopened).concat errand,
      fun hmet hleaving => ?_⟩
    have hstays : .leaving receiver ∉ group.errands := fun hmem =>
      hleaving (List.mem_append_left _ hmem)
    exact (hlink.met hmet hstays).imp_left (Covered.concat · errand)

theorem stores_withStore_self (me : DeviceId) (store : PeerStore) :
    (group.withStore me store).stores me = store :=
  Function.update_self _ _ _

theorem stores_withStore_of_ne {me device : DeviceId} (hne : device ≠ me)
    (store : PeerStore) :
    (group.withStore me store).stores device = group.stores device :=
  Function.update_of_ne hne _ _

/-- A device whose change is announced, or is none, has told what it has told
or will tell anew. -/
theorem told_withStore {me : DeviceId} {store : PeerStore}
    (hannounced : (∃ errand ∈ group.errands, errand.Announces me) ∨
      ∀ id, store.standing id = (group.stores me).standing id)
    {session : ℕ} {sender receiver id : DeviceId}
    (htold : group.Told horizon session sender receiver id) :
    (group.withStore me store).Told horizon session sender receiver id := by
  unfold Told Carried at htold ⊢
  by_cases hme : sender = me
  · subst hme
    rcases hannounced with ⟨errand, hmem, hannounces⟩ | hsame
    · exact .inr ⟨errand, hmem, hannounces.owes horizon⟩
    · rwa [stores_withStore_self, hsame id]
  · rwa [stores_withStore_of_ne hme]

/-- A device that moves forward does not fall behind another. -/
theorem caught_withStore (horderly : horizon.Orderly)
    (hstores : ∀ device, StoreWithin horizon (group.stores device))
    {me : DeviceId} {store : PeerStore} (hwithin : StoreWithin horizon store)
    {sender receiver id : DeviceId}
    (hforward : receiver = me →
      ((group.stores me).standing id).rank ≤ (store.standing id).rank)
    (hsender : sender = me →
      store.standing id = (group.stores me).standing id)
    (hcaught : group.Caught sender receiver id) :
    (group.withStore me store).Caught sender receiver id := by
  have hsame : ((group.withStore me store).stores sender).standing id =
      (group.stores sender).standing id := by
    by_cases hme : sender = me
    · rw [hme, stores_withStore_self, hsender hme]
    · rw [stores_withStore_of_ne hme]
  unfold Caught at hcaught ⊢
  rw [hsame]
  by_cases hme : receiver = me
  · subst hme
    rw [stores_withStore_self]
    exact (horderly.lasting_all id).not_replaces_of_le
      ((hstores sender).standing_mem id) ((hstores receiver).standing_mem id)
      (hwithin.standing_mem id) (hforward rfl) hcaught
  · rwa [stores_withStore_of_ne hme]

/-- A store changes: forward with every device unless it leaves the group, and
in a way that is announced if what it knows of some device changes. -/
theorem Spread.withStore (horderly : horizon.Orderly)
    (hspread : group.Spread horizon) {me : DeviceId} {store : PeerStore}
    (hwithin : StoreWithin horizon store)
    (hforward : .leaving me ∈ group.errands ∨ ∀ id,
      ((group.stores me).standing id).rank ≤ (store.standing id).rank)
    (hannounced : (∃ errand ∈ group.errands, errand.Announces me) ∨
      ∀ id, store.standing id = (group.stores me).standing id) :
    (group.withStore me store).Spread horizon where
  stores := (Function.forall_update_iff group.stores fun _ store =>
    StoreWithin horizon store).mpr ⟨hwithin, fun device _ => hspread.stores device⟩
  ends := hspread.ends
  letters := hspread.letters
  errands := hspread.errands
  links sender receiver session hconn id hsender hreceiver := by
    have hlink := hspread.links sender receiver session hconn id hsender
      hreceiver
    refine ⟨fun hunopened => told_withStore hannounced (hlink.waiting hunopened),
      fun hmet hleaving => ?_⟩
    rcases hlink.met hmet hleaving with htold | hcaught
    · exact .inl (told_withStore hannounced htold)
    have hrank : receiver = me →
        ((group.stores me).standing id).rank ≤ (store.standing id).rank := by
      rintro rfl
      exact hforward.resolve_left hleaving id
    rcases hannounced with ⟨errand, hmem, hannounces⟩ | hsame
    · by_cases hme : sender = me
      · subst hme
        exact .inl (.inr ⟨errand, hmem, hannounces.owes horizon⟩)
      · exact .inr (caught_withStore horderly hspread.stores hwithin hrank
          (fun hsame => absurd hsame hme) hcaught)
    · exact .inr (caught_withStore horderly hspread.stores hwithin hrank
        (fun _ => hsame id) hcaught)

theorem mem_conns_withConns {me device : DeviceId}
    {conns : List (DeviceId × ℕ)} (hsubset : conns ⊆ group.conns me)
    {conn : DeviceId × ℕ} (hconn : conn ∈ (group.withConns me conns).conns device) :
    conn ∈ group.conns device := by
  dsimp only [withConns] at hconn
  by_cases hme : device = me
  · subst hme
    rw [Function.update_self] at hconn
    exact hsubset hconn
  · rwa [Function.update_of_ne hme] at hconn

/-- Connections are taken out of a table. -/
theorem Spread.withConns (hspread : group.Spread horizon) (me : DeviceId)
    (conns : List (DeviceId × ℕ)) (hsubset : conns ⊆ group.conns me) :
    (group.withConns me conns).Spread horizon where
  stores := hspread.stores
  ends device conn hconn :=
    hspread.ends device conn (mem_conns_withConns hsubset hconn)
  letters := hspread.letters
  errands := hspread.errands
  links sender receiver session hconn id hsender hreceiver := by
    have hlink := hspread.links sender receiver session
      (mem_conns_withConns hsubset hconn) id hsender hreceiver
    exact ⟨hlink.waiting, fun hmet =>
      hlink.met (mem_conns_withConns hsubset hmet)⟩

theorem Spread.disconnect (hspread : group.Spread horizon)
    (me peer : DeviceId) : (group.disconnect me peer).Spread horizon :=
  hspread.withConns _ _ List.filter_sublist.subset

/-- More letters are on their way. -/
theorem Spread.send (hspread : group.Spread horizon) (me : DeviceId)
    (only : Option DeviceId) {roster : Roster}
    (hsincere : Sincere horizon roster) :
    (group.send me only roster).Spread horizon where
  stores := hspread.stores
  ends := hspread.ends
  letters letter hletter := by
    rcases List.mem_append.mp hletter with hold | hnew
    · exact hspread.letters letter hold
    · obtain ⟨_, _, rfl⟩ := List.mem_map.mp hnew
      exact hsincere
  errands := hspread.errands
  links sender receiver session hconn id hsender hreceiver := by
    have hlink := hspread.links sender receiver session hconn id hsender
      hreceiver
    have htold : group.Told horizon session sender receiver id →
        (group.send me only roster).Told horizon session sender receiver id :=
      fun htold => htold.imp_left fun ⟨letter, hmem, hletter⟩ =>
        ⟨letter, List.mem_append_left _ hmem, hletter⟩
    exact ⟨fun hunopened => htold (hlink.waiting hunopened),
      fun hmet hleaving => (hlink.met hmet hleaving).imp_left htold⟩

/-- An errand goes on: what it was to tell is on its way, or still to be
told. -/
theorem Spread.advance (hspread : group.Spread horizon) {place : ℕ}
    {old new : Errand} (hplace : group.errands[place]? = some old)
    (hhonest : new.Honest horizon)
    (hleaving : ∀ me, old = .leaving me → group.conns me = [])
    (howes : ∀ sender receiver session, (receiver, session) ∈ group.conns sender →
      ∀ id, old.Owes horizon sender receiver id
          ((group.stores sender).standing id) →
        group.Carried horizon session sender receiver id ∨
          new.Owes horizon sender receiver id
            ((group.stores sender).standing id)) :
    (group.advance place new).Spread horizon where
  stores := hspread.stores
  ends := hspread.ends
  letters := hspread.letters
  errands := forall_set hspread.errands hhonest
  links sender receiver session hconn id hsender hreceiver := by
    have hlink := hspread.links sender receiver session hconn id hsender
      hreceiver
    have htold : group.Told horizon session sender receiver id →
        (group.advance place new).Told horizon session sender receiver id :=
      fun htold => htold.set hplace .inl
        (howes sender receiver session hconn id)
    refine ⟨fun hunopened => htold (hlink.waiting hunopened),
      fun hmet hstays => ?_⟩
    refine (hlink.met hmet fun hmem => ?_).imp_left htold
    rcases exists_set_or (P := (· = .leaving receiver)) ⟨_, hmem, rfl⟩ hplace new
      with rfl | ⟨_, hstill, rfl⟩
    · have hmetOld : (sender, session) ∈ group.conns receiver := hmet
      rw [hleaving receiver rfl] at hmetOld
      contradiction
    · exact hstays hstill

/-- A letter has been taken in: the receiver is not behind it any more. -/
theorem Spread.erase (hspread : group.Spread horizon) {letter : RosterLetter}
    (hopen : group.ends letter.receiver letter.session ≠ .unopened)
    (hcaught : ∀ id, id ≠ letter.sender → id ≠ letter.receiver →
      ∀ standing, Bears horizon letter.roster id standing →
        ¬ standing.Replaces ((group.stores letter.receiver).standing id)) :
    Spread horizon
      { group with inFlight := group.inFlight.erase letter } where
  stores := hspread.stores
  ends := hspread.ends
  letters other hother := hspread.letters other (List.mem_of_mem_erase hother)
  errands := hspread.errands
  links sender receiver session hconn id hsender hreceiver := by
    have hlink := hspread.links sender receiver session hconn id hsender
      hreceiver
    refine ⟨fun hunopened => ?_, fun hmet hleaving => ?_⟩
    · refine (hlink.waiting hunopened).imp_left ?_
      rintro ⟨other, hmem, ⟨rfl, rfl, rfl⟩, hbears⟩
      have hne : other ≠ letter := by
        rintro rfl
        exact hopen hunopened
      exact ⟨other, (List.mem_erase_of_ne hne).mpr hmem, ⟨rfl, rfl, rfl⟩, hbears⟩
    · rcases hlink.met hmet hleaving with hcarried | hbehind
      · rcases hcarried with ⟨other, hmem, ⟨rfl, rfl, rfl⟩, hbears⟩ | howed
        · by_cases hother : other = letter
          · subst hother
            exact .inr (hcaught id hsender hreceiver _ hbears)
          · exact .inl (.inl ⟨other, (List.mem_erase_of_ne hother).mpr hmem,
              ⟨rfl, rfl, rfl⟩, hbears⟩)
        · exact .inl (.inr howed)
      · exact .inr hbehind

/-- The end of a session opens, and its device is about to tell its roster. -/
theorem Spread.opens (hspread : group.Spread horizon) {me peer : DeviceId}
    {session : ℕ} (hunopened : group.ends me session = .unopened)
    (htelling : .telling me (some peer) ∈ group.errands) :
    ((group.withConns me (group.conns me ++ [(peer, session)])).withEnd me
      session (.reading peer)).Spread horizon := by
  have hends : ∀ device other, (device ≠ me ∨ other ≠ session) →
      Function.update group.ends me
        (Function.update (group.ends me) session (.reading peer)) device other =
          group.ends device other := by
    intro device other hother
    by_cases hdevice : device = me
    · subst hdevice
      rw [Function.update_self,
        Function.update_of_ne (hother.resolve_left (not_not.mpr rfl))]
    · rw [Function.update_of_ne hdevice]
  have hnew : Function.update group.ends me
      (Function.update (group.ends me) session (.reading peer)) me session =
        .reading peer := by
    rw [Function.update_self, Function.update_self]
  have hold : ∀ device, ∀ conn ∈ group.conns device,
      device ≠ me ∨ conn.2 ≠ session := by
    intro device conn hconn
    by_contra hboth
    obtain ⟨rfl, rfl⟩ := not_or.mp hboth |>.imp not_not.mp not_not.mp
    have hreading := hspread.ends _ conn hconn
    rw [hunopened] at hreading
    contradiction
  have hconns : ∀ device conn, conn ∈
      Function.update group.conns me (group.conns me ++ [(peer, session)])
        device → conn ∈ group.conns device ∨
          (device = me ∧ conn = (peer, session)) := by
    intro device conn hconn
    by_cases hdevice : device = me
    · subst hdevice
      rw [Function.update_self] at hconn
      exact (List.mem_append.mp hconn).imp_right
        fun hlast => ⟨rfl, List.mem_singleton.mp hlast⟩
    · rw [Function.update_of_ne hdevice] at hconn
      exact .inl hconn
  have hsends : ∀ session id, group.Told horizon session me peer id :=
    fun session id => .inr ⟨_, htelling, rfl, by simp⟩
  refine ⟨hspread.stores, fun device conn hconn => ?_, hspread.letters,
    hspread.errands, fun sender receiver other hconn id hsender hreceiver => ?_⟩
  · rcases hconns device conn hconn with hlisted | ⟨rfl, rfl⟩
    · exact (hends device conn.2 (hold device conn hlisted)).trans
        (hspread.ends device conn hlisted)
    · exact hnew
  · rcases hconns sender _ hconn with hlisted | ⟨rfl, hboth⟩
    · have hlink := hspread.links sender receiver other hlisted id hsender
        hreceiver
      by_cases hopens : receiver = me ∧ other = session
      · obtain ⟨rfl, rfl⟩ := hopens
        exact ⟨fun hnot => absurd (hnew.symm.trans hnot) nofun,
          fun _ _ => .inl (hlink.waiting hunopened)⟩
      · have hsame := hends receiver other (by tauto)
        refine ⟨fun hnot => hlink.waiting (hsame.symm.trans hnot),
          fun hmet => hlink.met ?_⟩
        refine (hconns receiver _ hmet).resolve_right ?_
        rintro ⟨rfl, hpair⟩
        exact hopens ⟨rfl, congrArg Prod.snd hpair⟩
    · obtain ⟨rfl, rfl⟩ := Prod.mk.inj hboth
      exact ⟨fun _ => hsends _ id, fun _ _ => .inl (hsends _ id)⟩

/-- The end of a session that its device no longer lists closes. -/
theorem Spread.closes (hspread : group.Spread horizon) {me : DeviceId}
    {session : ℕ} (hopen : group.ends me session ≠ .unopened)
    (hunlisted : ∀ conn ∈ group.conns me, conn.2 ≠ session) :
    Spread horizon
      { group.withEnd me session .over with
        inFlight := group.inFlight.filter fun letter =>
          ¬ (letter.session = session ∧ letter.receiver = me) } := by
  have hends : ∀ device other, (device ≠ me ∨ other ≠ session) →
      (group.withEnd me session .over).ends device other =
        group.ends device other := by
    intro device other hother
    dsimp only [withEnd]
    by_cases hdevice : device = me
    · subst hdevice
      rw [Function.update_self,
        Function.update_of_ne (hother.resolve_left (not_not.mpr rfl))]
    · rw [Function.update_of_ne hdevice]
  have hlisted : ∀ device, ∀ conn ∈ group.conns device,
      device ≠ me ∨ conn.2 ≠ session := by
    intro device conn hconn
    by_cases hdevice : device = me
    · exact .inr (hunlisted conn (hdevice ▸ hconn))
    · exact .inl hdevice
  refine ⟨hspread.stores, fun device conn hconn => ?_, fun letter hletter => ?_,
    hspread.errands, fun sender receiver other hconn id hsender hreceiver => ?_⟩
  · exact (hends device conn.2 (hlisted device conn hconn)).trans
      (hspread.ends device conn hconn)
  · exact hspread.letters letter (List.mem_of_mem_filter hletter)
  · have hlink := hspread.links sender receiver other hconn id hsender hreceiver
    by_cases hcloses : receiver = me ∧ other = session
    · obtain ⟨rfl, rfl⟩ := hcloses
      refine ⟨fun hnot => ?_, fun hmet => ?_⟩
      · have hover : (group.withEnd receiver other .over).ends receiver other =
            .over := by
          dsimp only [withEnd]
          rw [Function.update_self, Function.update_self]
        exact absurd (hover.symm.trans hnot) nofun
      · exact absurd rfl (hunlisted _ hmet)
    · have htold : group.Told horizon other sender receiver id →
          Told horizon
            { group.withEnd me session .over with
              inFlight := group.inFlight.filter fun letter =>
                ¬ (letter.session = session ∧ letter.receiver = me) }
            other sender receiver id := by
        refine Or.imp_left ?_
        rintro ⟨letter, hmem, ⟨rfl, rfl, rfl⟩, hbears⟩
        refine ⟨letter, List.mem_filter.mpr ⟨hmem, decide_eq_true ?_⟩,
          ⟨rfl, rfl, rfl⟩, hbears⟩
        exact fun hlost => hcloses ⟨hlost.2, hlost.1⟩
      have hsame := hends receiver other (by tauto)
      exact ⟨fun hnot => htold (hlink.waiting (hsame.symm.trans hnot)),
        fun hmet hleaving => (hlink.met hmet hleaving).imp_left htold⟩

/-! ## One step -/

/-- Saving and encoding work, and a removal is one of the horizon and no earlier
than the pairing. -/
def ErrandInTime (horizon : Horizon) (group : Spreading) (nowMs : ℕ)
    (result : Except LanError Unit) : Errand → Prop
  | .telling _ _ => result.isOk = true
  | .removing me id =>
      result.isOk = true ∧ ∀ peer ∈ (group.stores me).get id,
        (id, nowMs) ∈ horizon.gone ∧ peer.pairedAtMs ≤ nowMs
  | _ => True

instance (horizon : Horizon) (group : Spreading) (nowMs : ℕ)
    (result : Except LanError Unit) :
    DecidablePred (group.ErrandInTime horizon nowMs result)
  | .telling _ _ => inferInstanceAs (Decidable (_ = _))
  | .removing _ _ => inferInstanceAs (Decidable (_ ∧ _))
  | .disconnecting _ _ => .isTrue trivial
  | .sending _ _ _ => .isTrue trivial
  | .leaving _ => .isTrue trivial
  | .done => .isTrue trivial

/-- The same for every step; a pairing is one of the horizon too, and no earlier
than what the device knows. -/
def InTime (horizon : Horizon) (group : Spreading) : SpreadAction → Prop
  | .delivered _ _ saved => saved.isOk = true
  | .paired me peer saved =>
      saved.isOk = true ∧ peer.credential ∈ horizon.known ∧
        ((group.stores me).standing peer.deviceId).rank ≤
          (PeerStore.memberOf peer).rank
  | .goesOn place nowMs result =>
      ∀ errand ∈ group.errands[place]?,
        group.ErrandInTime horizon nowMs result errand
  | _ => True

instance (horizon : Horizon) (group : Spreading) :
    DecidablePred (group.InTime horizon)
  | .delivered _ _ _ => inferInstanceAs (Decidable (_ = _))
  | .paired _ _ _ => inferInstanceAs (Decidable (_ ∧ _))
  | .goesOn place nowMs result =>
      inferInstanceAs (Decidable (∀ errand ∈ group.errands[place]?,
        group.ErrandInTime horizon nowMs result errand))
  | .opened _ _ _ => .isTrue trivial
  | .closed _ _ => .isTrue trivial
  | .removePeer _ _ => .isTrue trivial
  | .dismissed _ _ _ => .isTrue trivial
  | .seen _ _ _ _ _ => .isTrue trivial
  | .notified _ _ _ => .isTrue trivial

theorem Spread.opened (hspread : group.Spread horizon) {me peer : DeviceId}
    {session : ℕ} (hunopened : group.ends me session = .unopened) :
    (group.opened me peer session).Spread horizon := by
  have hspawned := (hspread.disconnect me peer).spawn
    (.telling me (some peer)) trivial
  exact hspawned.opens hunopened (List.mem_append_right _ List.mem_cons_self)

theorem Spread.closed (hspread : group.Spread horizon) {me peer : DeviceId}
    {session : ℕ} (hreading : group.ends me session = .reading peer) :
    (group.closed me peer session).Spread horizon := by
  have hcut := hspread.withConns me
    ((group.conns me).filter fun conn => conn ≠ (peer, session))
    List.filter_sublist.subset
  refine hcut.closes (fun hunopened => ?_) fun conn hconn => ?_
  · exact absurd (hreading.symm.trans hunopened) nofun
  · dsimp only [Spreading.withConns] at hconn
    rw [Function.update_self] at hconn
    obtain ⟨hlisted, hother⟩ := List.mem_filter.mp hconn
    rintro rfl
    have hends := hspread.ends me conn hlisted
    obtain rfl := SessionEnd.reading.inj (hreading.symm.trans hends)
    exact of_decide_eq_true hother rfl

theorem Spread.delivered (horderly : horizon.Orderly)
    (hspread : group.Spread horizon) {me peer : DeviceId} {session : ℕ}
    (hreading : group.ends me session = .reading peer) {letter : RosterLetter}
    (hletter : letter ∈ group.inFlight) (hon : letter.On session peer me)
    {saved : Except LanError Unit} (hsaved : saved.isOk = true) :
    ({ group with inFlight := group.inFlight.erase letter }.applyRoster me peer
      letter.roster saved).Spread horizon := by
  obtain ⟨rfl, rfl, rfl⟩ := hon
  obtain ⟨source, hsource, hroster⟩ := hspread.letters letter hletter
  let me := letter.receiver
  let store := ((group.stores me).mergeEntries me letter.sender
    letter.roster).store
  have hstore := hspread.stores me
  have hwithin : StoreWithin horizon store := by
    refine hstore.mergeEntries me letter.sender ?_
    exact hroster ▸ hsource.roster
  have hforward : ∀ id, ((group.stores me).standing id).rank ≤
      (store.standing id).rank :=
    hstore.rank_le_merge horderly me letter.sender (hroster ▸ hsource.roster)
  -- The letter is taken in first, and is gone afterwards.
  have herase : ∀ next : Spreading, next.Spread horizon →
      next.ends = group.ends → next.stores me = store →
        Spread horizon { next with inFlight := next.inFlight.erase letter } := by
    intro next hnext hends hnextStore
    refine hnext.erase ?_ fun id hsender hreceiver standing hbears => ?_
    · rw [hends, hreading]
      exact nofun
    · obtain ⟨teller, hteller, htold, rfl⟩ := hbears
      rw [hnextStore]
      dsimp only [store]
      rw [htold]
      exact hstore.not_behind horderly hteller hreceiver hsender
  unfold applyRoster
  rw [PeerStore.merge_of_saved me letter.sender _ letter.roster hsaved]
  dsimp only
  split
  · next hempty =>
    have hsame := PeerStore.standing_of_isEmpty me letter.sender
      hstore.wellFormed letter.roster hempty
    exact herase (group.withStore me store)
      (hspread.withStore horderly hwithin (.inr hforward) (.inr hsame)) rfl
      (stores_withStore_self me store)
  · let errand : Errand := .disconnecting me (PeerStore.changedIds
      ((group.stores me).mergeEntries me letter.sender letter.roster).change)
    have hspawned := hspread.spawn errand trivial
    have hannounced : ∃ other ∈ (group.spawn errand).errands,
        other.Announces me :=
      ⟨errand, List.mem_append_right _ List.mem_cons_self, rfl⟩
    exact herase ((group.spawn errand).withStore me store)
      (hspawned.withStore horderly hwithin (.inr hforward) (.inl hannounced))
      rfl (stores_withStore_self me store)

theorem Spread.goesOn (horderly : horizon.Orderly)
    (hspread : group.Spread horizon) {place nowMs : ℕ}
    {result : Except LanError Unit} {errand : Errand}
    (hplace : group.errands[place]? = some errand)
    (hintime : group.ErrandInTime horizon nowMs result errand)
    {next : Spreading}
    (hstep : group.goesOn place nowMs result errand = some next) :
    next.Spread horizon := by
  cases errand with
  | disconnecting me devices =>
      cases devices with
      | nil =>
          obtain rfl := Option.some.inj hstep
          refine hspread.advance hplace trivial nofun ?_
          exact fun sender _ _ _ id howes => .inr ⟨howes, rfl⟩
      | cons device rest =>
          obtain rfl := Option.some.inj hstep
          refine (hspread.disconnect me device).advance hplace trivial nofun ?_
          exact fun sender _ _ _ id howes => .inr howes
  | telling me only =>
      obtain ⟨encoded, rfl⟩ : ∃ encoded, result = .ok encoded := by
        cases result with
        | error _ => contradiction
        | ok encoded => exact ⟨encoded, rfl⟩
      obtain rfl := Option.some.inj hstep
      refine hspread.advance hplace ⟨_, hspread.stores me, rfl⟩ nofun ?_
      rintro sender receiver session _ id ⟨rfl, honly⟩
      exact .inr ⟨rfl, honly, _, hspread.stores me, rfl, rfl⟩
  | sending me only roster =>
      obtain rfl := Option.some.inj hstep
      have hsincere := hspread.errands _ (List.mem_of_getElem? hplace)
      refine (hspread.send me only hsincere).advance hplace trivial nofun ?_
      rintro sender receiver session hconn id ⟨rfl, honly, hbears⟩
      refine .inl ⟨⟨session, me, receiver, roster⟩, ?_, ⟨rfl, rfl, rfl⟩, hbears⟩
      refine List.mem_append_right _ (List.mem_map.mpr
        ⟨(receiver, session), List.mem_filter.mpr ⟨hconn, ?_⟩, rfl⟩)
      unfold goesTo
      cases only with
      | none => rfl
      | some peer => simpa [eq_comm] using honly
  | removing me id =>
      obtain ⟨hsaved, htime⟩ := hintime
      let store := ((group.stores me).remove id nowMs result).2
      have hremoves : next =
          (group.advance place (.telling me none)).withStore me store := by
        cases result with
        | error _ => contradiction
        | ok _ =>
            dsimp only [Spreading.goesOn, store] at hstep ⊢
            unfold PeerStore.remove at hstep ⊢
            cases hget : (group.stores me).get id with
            | none =>
                rw [hget] at hstep
                exact (Option.some.inj hstep).symm
            | some peer =>
                rw [hget] at hstep
                exact (Option.some.inj hstep).symm
      rw [hremoves]
      have hgone : ∀ peer ∈ (group.stores me).get id,
          (id, nowMs) ∈ horizon.gone := fun peer hget => (htime peer hget).1
      have hadvanced :
          (group.advance place (.telling me none)).Spread horizon :=
        hspread.advance hplace trivial nofun fun _ _ _ _ _ howes => howes.elim
      refine hadvanced.withStore horderly
        ((hspread.stores me).remove result hgone) (.inr ?_) (.inl ?_)
      · exact (hspread.stores me).rank_le_remove horderly result hgone
          fun peer hget => (htime peer hget).2
      · exact exists_set_self hplace ⟨rfl, rfl⟩
  | leaving me =>
      obtain rfl := Option.some.inj hstep
      have hcut := hspread.withConns me [] (List.nil_subset _)
      have hempty : (group.withConns me []).conns me = [] :=
        Function.update_self _ _ _
      refine hcut.advance hplace trivial ?_ ?_
      · rintro other hother
        obtain rfl := Errand.leaving.inj hother
        exact hempty
      · rintro sender receiver session hconn id rfl
        rw [hempty] at hconn
        contradiction
  | done => contradiction

/-- Every step in time keeps the invariant. -/
theorem Spread.step (horderly : horizon.Orderly) {group next : Spreading}
    {action : SpreadAction} (hspread : group.Spread horizon)
    (hintime : group.InTime horizon action)
    (hstep : machine.step group action = some next) :
    next.Spread horizon := by
  change group.step action = some next at hstep
  cases action with
  | opened me peer session =>
      obtain ⟨hunopened, hnext⟩ := Option.ite_none_right_eq_some.mp hstep
      obtain rfl := Option.some.inj hnext
      exact hspread.opened hunopened
  | closed me session =>
      dsimp only [Spreading.step] at hstep
      split at hstep
      · next peer hreading =>
        obtain rfl := Option.some.inj hstep
        exact hspread.closed hreading
      · contradiction
  | delivered me session saved =>
      dsimp only [Spreading.step] at hstep
      split at hstep
      · next peer hreading =>
        obtain ⟨letter, hfound, rfl⟩ := Option.map_eq_some_iff.mp hstep
        have hon : decide (letter.On session peer me) = true :=
          List.find?_some (p := fun letter : RosterLetter =>
            decide (letter.On session peer me)) hfound
        exact hspread.delivered horderly hreading
          (List.mem_of_find?_eq_some hfound) (of_decide_eq_true hon) hintime
      · contradiction
  | paired me peer saved =>
      obtain ⟨hsaved, hknown, hlater⟩ := hintime
      cases saved with
      | error _ => contradiction
      | ok _ =>
          obtain rfl := Option.some.inj hstep
          have hspawned := hspread.spawn (.telling me none) trivial
          refine hspawned.withStore horderly ((hspread.stores me).put hknown)
            (.inr (Gossip.rank_le_put hlater)) (.inl ?_)
          exact ⟨_, List.mem_append_right _ List.mem_cons_self, rfl, rfl⟩
  | removePeer me id =>
      obtain rfl := Option.some.inj hstep
      exact (hspread.disconnect me id).spawn _ trivial
  | dismissed me sender saved =>
      obtain ⟨_, hnext⟩ := Option.ite_none_right_eq_some.mp hstep
      obtain rfl := Option.some.inj hnext
      have hspawned := hspread.spawn (.leaving me) trivial
      have hmem : Errand.leaving me ∈ (group.spawn (.leaving me)).errands :=
        List.mem_append_right _ List.mem_cons_self
      exact hspawned.withStore horderly ((hspread.stores me).clear saved)
        (.inl hmem) (.inl ⟨_, hmem, rfl⟩)
  | seen me id name address saved =>
      obtain rfl := Option.some.inj hstep
      have hsame : ∀ other,
          ((group.stores me).seen id name address saved).2.standing other =
            (group.stores me).standing other :=
        fun other => PeerStore.standing_seen id name address saved
      exact hspread.withStore horderly
        ((hspread.stores me).seen id name address saved)
        (.inr fun other => (congrArg Standing.rank (hsame other)).ge) (.inr hsame)
  | notified me id saved =>
      obtain rfl := Option.some.inj hstep
      have hsame : ∀ other,
          ((group.stores me).markNotified id saved).2.standing other =
            (group.stores me).standing other :=
        fun other => PeerStore.standing_markNotified id saved
      exact hspread.withStore horderly ((hspread.stores me).markNotified id saved)
        (.inr fun other => (congrArg Standing.rank (hsame other)).ge) (.inr hsame)
  | goesOn place nowMs result =>
      obtain ⟨errand, hplace, hnext⟩ := Option.bind_eq_some_iff.mp hstep
      exact hspread.goesOn horderly hplace (hintime errand hplace) hnext

theorem spread_of_run (horderly : horizon.Orderly)
    {actions : List SpreadAction} {final : Spreading}
    (hintime : machine.Along (InTime horizon) start actions)
    (hrun : machine.run start actions = some final) : final.Spread horizon :=
  Machine.run_of_invariant (fun _ _ _ hspread => hspread.step horderly)
    (spread_start horizon) hintime hrun

/-! ## Nothing left to tell -/

/-- The sender has nothing to tell the receiver over the session: no roster is
on its way, and no thread of the sender is in the middle of something. -/
def Settled (group : Spreading) (session : ℕ) (sender receiver : DeviceId) :
    Prop :=
  (receiver, session) ∈ group.conns sender ∧
    (∀ letter ∈ group.inFlight, ¬ letter.On session sender receiver) ∧
      ∀ errand ∈ group.errands, errand.device ≠ some sender

instance (group : Spreading) (session : ℕ) (sender receiver : DeviceId) :
    Decidable (group.Settled session sender receiver) :=
  inferInstanceAs (Decidable (_ ∧ _ ∧ _))

theorem device_of_owes {sender receiver id : DeviceId}
    {standing : Standing PublicKey} {errand : Errand}
    (howes : errand.Owes horizon sender receiver id standing) :
    errand.device = some sender := by
  cases errand with
  | disconnecting me devices => exact congrArg some howes
  | telling me only => exact congrArg some howes.1
  | sending me only roster => exact congrArg some howes.1
  | leaving me => exact congrArg some howes
  | removing me id => exact howes.elim
  | done => exact howes.elim

theorem Spread.caught (hspread : group.Spread horizon) {session : ℕ}
    {sender receiver id : DeviceId}
    (hsettled : group.Settled session sender receiver)
    (hback : group.Settled session receiver sender) (hsender : id ≠ sender)
    (hreceiver : id ≠ receiver) : group.Caught sender receiver id := by
  obtain ⟨hconn, hletters, herrands⟩ := hsettled
  obtain ⟨hmet, _, hstays⟩ := hback
  have hlink := hspread.links sender receiver session hconn id hsender hreceiver
  refine (hlink.met hmet fun hmem => hstays _ hmem rfl).resolve_left ?_
  rintro (⟨letter, hmem, hon, _⟩ | ⟨errand, hmem, howes⟩)
  · exact hletters letter hmem hon
  · exact herrands errand hmem (device_of_owes howes)

theorem key_and_removal_of_standing {store : PeerStore}
    (hwell : store.WellFormed) (id : DeviceId) :
    (store.get id).map Peer.publicKey = (store.standing id).key ∧
      (store.removal id).map Removed.removedAtMs = (store.standing id).removal := by
  cases hget : store.get id with
  | some peer =>
      have hremoval := (hwell.apart id).resolve_left (by simp [hget])
      rw [PeerStore.standing_of_get hget, hremoval]
      exact ⟨rfl, rfl⟩
  | none =>
      cases hremoval : store.removal id with
      | some removed =>
          rw [PeerStore.standing_of_removal hget hremoval]
          exact ⟨rfl, rfl⟩
      | none =>
          rw [PeerStore.standing_of_none hget hremoval]
          exact ⟨rfl, rfl⟩

/-- Two stores that know the same of a device, up to the time of a join, list
it with the same key or remember the same removal of it. -/
theorem agree_of_eq_or_sameKey {left right : PeerStore}
    (hleft : left.WellFormed) (hright : right.WellFormed) {id : DeviceId}
    (halike : left.standing id = right.standing id ∨
      (left.standing id).SameKey (right.standing id)) :
    (left.get id).map Peer.publicKey = (right.get id).map Peer.publicKey ∧
      (left.removal id).map Removed.removedAtMs =
        (right.removal id).map Removed.removedAtMs := by
  obtain ⟨hleftKey, hleftGone⟩ := key_and_removal_of_standing hleft id
  obtain ⟨hrightKey, hrightGone⟩ := key_and_removal_of_standing hright id
  rw [hleftKey, hleftGone, hrightKey, hrightGone]
  rcases halike with heq | hsame
  · rw [heq]
    exact ⟨rfl, rfl⟩
  · exact ⟨hsame.key_eq, hsame.removal_eq⟩

/-- In every run of a group, two devices with a session, all of whose rosters
have been taken in, agree on every third device: both list it with the same key,
both remember its removal at the same time, or neither knows it. -/
theorem agree_when_settled (horderly : horizon.Orderly)
    {actions : List SpreadAction} {final : Spreading}
    (hintime : machine.Along (InTime horizon) start actions)
    (hrun : machine.run start actions = some final) {session : ℕ}
    {left right : DeviceId} (hleft : final.Settled session left right)
    (hright : final.Settled session right left) {id : DeviceId}
    (hidLeft : id ≠ left) (hidRight : id ≠ right) :
    ((final.stores left).get id).map Peer.publicKey =
        ((final.stores right).get id).map Peer.publicKey ∧
      ((final.stores left).removal id).map Removed.removedAtMs =
        ((final.stores right).removal id).map Removed.removedAtMs := by
  have hspread := spread_of_run horderly hintime hrun
  have hstores := hspread.stores
  have hforth := hspread.caught hleft hright hidLeft hidRight
  have hback := hspread.caught hright hleft hidRight hidLeft
  exact agree_of_eq_or_sameKey (hstores left).wellFormed
    (hstores right).wellFormed ((horderly.lasting_all id).eq_or_sameKey
      ((hstores left).standing_mem id) ((hstores right).standing_mem id) hforth
      hback)

/-! ## A group of three -/

/-- A device whose key is its number, paired at this time. -/
def numbered (index : BitVec 128) (pairedAtMs : ℕ) : Peer :=
  { deviceId := ⟨index⟩
    name := ""
    publicKey := index.setWidth 256
    pairedAtMs
    lastAddress := none }

/-- The errand in this place takes this many steps. -/
def takes (steps place : ℕ) : List SpreadAction :=
  List.replicate steps (.goesOn place 30 (.ok ()))

/-- Two devices pair and open a session. -/
def meeting : List SpreadAction :=
  [.paired ⟨1⟩ (numbered 2 10) (.ok ()), .paired ⟨2⟩ (numbered 1 10) (.ok ()),
      .opened ⟨1⟩ ⟨2⟩ 0, .opened ⟨2⟩ ⟨1⟩ 0] ++
    takes 2 0 ++ takes 2 1 ++ takes 2 2 ++ takes 2 3 ++
      List.replicate 2 (.delivered ⟨1⟩ 0 (.ok ())) ++
        List.replicate 2 (.delivered ⟨2⟩ 0 (.ok ()))

/-- The first pairs a third device, which the second then removes. -/
def comesAndGoes : List SpreadAction :=
  [.paired ⟨1⟩ (numbered 3 20) (.ok ())] ++ takes 2 4 ++
    [.delivered ⟨2⟩ 0 (.ok ())] ++ takes 4 5 ++
      [.delivered ⟨1⟩ 0 (.ok ()), .removePeer ⟨2⟩ ⟨3⟩] ++ takes 3 6 ++
        [.delivered ⟨1⟩ 0 (.ok ())] ++ takes 4 7 ++ [.delivered ⟨2⟩ 0 (.ok ())]

def ofThree : Horizon where
  devices := ∅
  known := [(numbered 2 10).credential, (numbered 1 10).credential,
    (numbered 3 20).credential]
  gone := [(⟨3⟩, 30)]
  width := 0

theorem orderly_ofThree : ofThree.Orderly where
  lasting := by decide
  keys := by decide
  members := by decide
  removals := by decide

theorem agree_when_settled_comesAndGoes :
    ∃ final, machine.run start (meeting ++ comesAndGoes) = some final ∧
      ((final.stores ⟨1⟩).get ⟨3⟩).map Peer.publicKey =
          ((final.stores ⟨2⟩).get ⟨3⟩).map Peer.publicKey ∧
        ((final.stores ⟨1⟩).removal ⟨3⟩).map Removed.removedAtMs =
          ((final.stores ⟨2⟩).removal ⟨3⟩).map Removed.removedAtMs := by
  obtain ⟨final, hrun⟩ : ∃ final,
      machine.run start (meeting ++ comesAndGoes) = some final :=
    Option.isSome_iff_exists.mp (by decide)
  have hsettled : ∀ final ∈ machine.run start (meeting ++ comesAndGoes),
      final.Settled 0 ⟨1⟩ ⟨2⟩ ∧ final.Settled 0 ⟨2⟩ ⟨1⟩ := by decide
  obtain ⟨hleft, hright⟩ := hsettled final hrun
  exact ⟨final, hrun, agree_when_settled orderly_ofThree (by decide) hrun hleft
    hright (by decide) (by decide)⟩

end Spreading

end Cled.Lan
