import Cled.Lan.Pairing

/-!
# Codes that were shown

A code that `start_pairing` returned is good until it expires, pairs a device or
fails too often, or the user starts or cancels pairing.  The session that has it
is dropped by nothing else, unless someone who will drop it was already under
way when it got its turn: another start, a cancellation, or an attempt that has
ended the session before and is about to end this one too.
-/

namespace Cled.Lan

open Cled.Core

namespace Pairing

instance (pairing : Pairing) (code : ℕ) : Decidable (pairing.Expired code) :=
  inferInstanceAs (Decidable (∃ expiresAt ∈ pairing.expiries[code]?, _))

/-- The code expired, paired a device or failed too often. -/
def Spent (pairing : Pairing) (code : ℕ) : Prop :=
  pairing.Expired code ∨ code ∈ pairing.paired ∨
    maxPairingFailures ≤ pairing.failed.count code

instance (pairing : Pairing) (code : ℕ) : Decidable (pairing.Spent code) :=
  inferInstanceAs (Decidable (_ ∨ _ ∨ _))

/-- An attempt that began after its code was shown runs against that code,
unless the code is spent or the user has started or cancelled pairing since. -/
def RunsAgainstShown (pairing : Pairing) : PairingAction → Prop
  | .lock =>
      pairing.exchange = none →
        match pairing.waiting with
        | .attempt typed true :: _ =>
            typed ∈ pairing.fresh → ¬ pairing.Spent typed →
              pairing.startsExchange .lock = some typed
        | _ => True
  | _ => True

/-- Nobody who gets the lock will drop the session. -/
def Waiter.Harmless : Waiter → Prop
  | .attempt _ _ => True
  | _ => False

/-- When `start_pairing` gets the lock, nobody is under way who will drop the
session it makes. -/
def Uncontested (pairing : Pairing) : PairingAction → Prop
  | .lock =>
      match pairing.waiting with
      | .startPairing _ :: waiting =>
          (∀ waiter ∈ waiting, Waiter.Harmless waiter) ∧ pairing.ending = 0
      | _ => True
  | _ => True

instance (waiter : Waiter) : Decidable (Waiter.Harmless waiter) := by
  apply waiter.casesOn (motive := fun waiter =>
    Decidable (Waiter.Harmless waiter))
  all_goals
    intros
    dsimp only [Waiter.Harmless]
    infer_instance

/-- The session has this code, and nobody is on the way to drop it. -/
structure Stands (pairing : Pairing) (code : ℕ) : Prop where
  session : ∃ session ∈ pairing.session, session.code = code
  harmless : ∀ waiter ∈ pairing.waiting, Waiter.Harmless waiter
  ending : pairing.ending = 0

/-- Every shown code stands or is spent. -/
structure KeepsShown (pairing : Pairing) : Prop where
  sound : pairing.Sound
  shown : ∀ code ∈ pairing.fresh, pairing.Spent code ∨ pairing.Stands code

theorem keepsShown_start : start.KeepsShown := ⟨sound_start, nofun⟩

/-- Time and the histories only grow. -/
structure Grows (before after : Pairing) : Prop where
  now : before.now ≤ after.now
  expiries : before.expiries <+: after.expiries
  paired : before.paired ⊆ after.paired
  failed : before.failed.Sublist after.failed

theorem Spent.mono {before after : Pairing} (hgrows : Grows before after)
    {code : ℕ} (hspent : before.Spent code) : after.Spent code := by
  rcases hspent with ⟨expiresAt, hexpires, hpast⟩ | hpaired | hfailed
  · refine Or.inl ⟨expiresAt, ?_, lt_of_lt_of_le hpast hgrows.now⟩
    obtain ⟨later, hlater⟩ := hgrows.expiries
    have hmade := (List.getElem?_eq_some_iff.mp hexpires).1
    rw [← hlater, List.getElem?_append_left hmade]
    exact hexpires
  · exact Or.inr (Or.inl (hgrows.paired hpaired))
  · exact Or.inr (Or.inr (hfailed.trans (hgrows.failed.count_le code)))

theorem Grows.refl (pairing : Pairing) : Grows pairing pairing :=
  ⟨le_rfl, List.prefix_refl _, List.Subset.refl _, List.Sublist.refl _⟩

theorem grows_renew {before after : Pairing} (hgrows : Grows before after)
    (since : ℕ) : Grows before (after.renew since) :=
  ⟨hgrows.now, hgrows.expiries.trans (List.prefix_append _ _), hgrows.paired,
    hgrows.failed⟩

theorem grows_serve (pairing : Pairing) (waiter : Waiter) :
    Grows pairing (pairing.serve waiter) := by
  have hsame := Grows.refl pairing
  cases waiter with
  | startPairing calledAt =>
      obtain ⟨hnow, hexpiries, hpaired, hfailed⟩ := grows_renew hsame calledAt
      exact ⟨hnow, hexpiries, hpaired, hfailed⟩
  | endPairing => exact ⟨le_rfl, hsame.expiries, hsame.paired, hsame.failed⟩
  | attempt typed informed =>
      dsimp only [serve, acceptPairing]
      split
      · exact hsame
      split
      · exact ⟨le_rfl, hsame.expiries, hsame.paired, hsame.failed⟩
      · exact ⟨le_rfl, hsame.expiries, hsame.paired, hsame.failed⟩

theorem grows_finishExchange (pairing : Pairing) (session : PairingSession)
    (result : Except LanError Unit) :
    Grows pairing (pairing.finishExchange session result) := by
  have hsame := Grows.refl pairing
  cases result with
  | ok _ =>
      exact ⟨le_rfl, hsame.expiries, List.subset_append_left _ _,
        hsame.failed⟩
  | error _ =>
      dsimp only [finishExchange]
      split
      · refine grows_renew ?_ pairing.now
        exact ⟨le_rfl, hsame.expiries, hsame.paired, List.sublist_append_left _ _⟩
      · exact ⟨le_rfl, hsame.expiries, hsame.paired,
          List.sublist_append_left _ _⟩

theorem grows_step {pairing next : Pairing} {action : PairingAction}
    (hstep : pairing.step action = some next) : Grows pairing next := by
  have hsame := Grows.refl pairing
  cases stepped_of_step hstep with
  | wait =>
      exact ⟨Nat.le_add_right _ _, hsame.expiries, hsame.paired, hsame.failed⟩
  | callStart | callCancel | callAttempt | callEnd =>
      exact ⟨le_rfl, hsame.expiries, hsame.paired, hsame.failed⟩
  | lock waiter waiting =>
      obtain ⟨hnow, hexpiries, hpaired, hfailed⟩ :=
        grows_serve { pairing with waiting } waiter
      exact ⟨hnow, hexpiries, hpaired, hfailed⟩
  | finish session result => exact grows_finishExchange pairing session result

/-! ## What drops a session -/

/-- An attempt that gets the lock leaves a standing code in place, unless it
finds it expired. -/
theorem Stands.acceptPairing {pairing : Pairing} {code : ℕ}
    (hsound : pairing.Sound) (hstands : pairing.Stands code) :
    pairing.acceptPairing.Spent code ∨ pairing.acceptPairing.Stands code := by
  obtain ⟨⟨session, hsession, rfl⟩, hharmless, hending⟩ := hstands
  have hexpires := (hsound.session session hsession).expires
  have hsome : pairing.session = some session := hsession
  simp only [Pairing.acceptPairing, hsome]
  split
  · next hpast => exact Or.inl (Or.inl ⟨session.expiresAt, hexpires, hpast⟩)
  · exact Or.inr ⟨⟨session, rfl, rfl⟩, hharmless, hending⟩

/-- An exchange with a standing code uses it up, or leaves it in place with one
failure more. -/
theorem Stands.finishExchange {pairing : Pairing} {session : PairingSession}
    (hsound : pairing.Sound) (hstands : pairing.Stands session.code)
    (hsession : pairing.session = some session)
    (result : Except LanError Unit) :
    (pairing.finishExchange session result).Spent session.code ∨
      (pairing.finishExchange session result).Stands session.code := by
  obtain ⟨_, hharmless, hending⟩ := hstands
  cases result with
  | ok _ =>
      have hpaired : session.code ∈ pairing.paired ++ [session.code] :=
        List.mem_append_right _ (List.mem_singleton_self _)
      exact Or.inl (Or.inr (Or.inl hpaired))
  | error _ =>
      have hcount : (pairing.failed ++ [session.code]).count session.code =
          session.failures + 1 := by
        rw [List.count_append, (hsound.session session hsession).counted,
          List.count_singleton_self]
      by_cases hmany : maxPairingFailures ≤ session.failures + 1
      · simp only [Pairing.finishExchange, if_pos hmany]
        exact Or.inl (Or.inr (Or.inr (le_of_le_of_eq hmany hcount.symm)))
      · simp only [Pairing.finishExchange, if_neg hmany]
        exact Or.inr ⟨⟨_, rfl, rfl⟩, hharmless, hending⟩

/-- A code that stands is dropped only by a start or a cancellation that is
called later, and by its own end. -/
theorem Stands.step {pairing next : Pairing} {code : ℕ}
    (hsound : pairing.Sound) (hstands : pairing.Stands code)
    {action : PairingAction} (hstep : pairing.step action = some next)
    (hfresh : code ∈ next.fresh) : next.Spent code ∨ next.Stands code := by
  obtain ⟨hsession, hharmless, hending⟩ := hstands
  cases stepped_of_step hstep with
  | wait => exact Or.inr ⟨hsession, hharmless, hending⟩
  | callStart => contradiction
  | callCancel => contradiction
  | callAttempt typed =>
      refine Or.inr ⟨hsession, fun waiter hwaiter => ?_, hending⟩
      rcases List.mem_append.mp hwaiter with hold | hnew
      · exact hharmless waiter hold
      · obtain rfl := List.mem_singleton.mp hnew
        trivial
  | lock waiter waiting hidle hwaiting =>
      rw [hwaiting] at hharmless
      obtain ⟨hhead, htail⟩ := List.forall_mem_cons.mp hharmless
      cases waiter with
      | startPairing calledAt => contradiction
      | endPairing => contradiction
      | attempt typed informed =>
          have hpopped : Pairing.Sound { pairing with waiting } :=
            hsound.of_same rfl rfl rfl rfl rfl rfl
          have hstands : Pairing.Stands { pairing with waiting } code :=
            ⟨hsession, htail, hending⟩
          exact hstands.acceptPairing hpopped
  | finish session result hsome =>
      obtain ⟨other, hother, rfl⟩ := hsession
      obtain rfl := Option.some.inj (hsome.symm.trans hother)
      exact Stands.finishExchange hsound
        ⟨⟨session, hsome, rfl⟩, hharmless, hending⟩ hsome result
  | callEnd hpending => exact absurd hending hpending

/-- What is shown after a step was shown before it, or is the code that
`start_pairing` has just made. -/
theorem mem_fresh_step {pairing next : Pairing} {action : PairingAction}
    (hstep : pairing.step action = some next) {code : ℕ}
    (hfresh : code ∈ next.fresh) :
    code ∈ pairing.fresh ∨
      action = .lock ∧ ∃ calledAt waiting,
        pairing.waiting = .startPairing calledAt :: waiting ∧
          next = { pairing with waiting }.serve (.startPairing calledAt) ∧
            code = pairing.expiries.length := by
  cases stepped_of_step hstep with
  | callStart => contradiction
  | callCancel => contradiction
  | wait | callAttempt | callEnd => exact Or.inl hfresh
  | lock waiter waiting hidle hwaiting =>
      cases waiter with
      | startPairing calledAt =>
          rcases List.mem_cons.mp hfresh with hnew | hold
          · exact Or.inr ⟨rfl, calledAt, waiting, hwaiting, rfl, hnew⟩
          · exact Or.inl hold
      | endPairing => exact Or.inl hfresh
      | attempt typed informed =>
          dsimp only [serve, Pairing.acceptPairing] at hfresh
          split at hfresh
          · exact Or.inl hfresh
          split at hfresh
          · exact Or.inl hfresh
          · exact Or.inl hfresh
  | finish session result =>
      cases result with
      | ok _ => exact Or.inl hfresh
      | error _ =>
          dsimp only [Pairing.finishExchange] at hfresh
          split at hfresh
          · exact Or.inl hfresh
          · exact Or.inl hfresh

theorem keepsShown_step {pairing next : Pairing} {action : PairingAction}
    (hkeeps : pairing.KeepsShown) (huncontested : pairing.Uncontested action)
    (hstep : pairing.step action = some next) : next.KeepsShown := by
  refine ⟨sound_step hkeeps.sound hstep, fun code hfresh => ?_⟩
  rcases mem_fresh_step hstep hfresh with
    hold | ⟨rfl, calledAt, waiting, hwaiting, rfl, rfl⟩
  · rcases hkeeps.shown code hold with hspent | hstands
    · exact Or.inl (hspent.mono (grows_step hstep))
    · exact hstands.step hkeeps.sound hstep hfresh
  · dsimp only [Uncontested] at huncontested
    rw [hwaiting] at huncontested
    obtain ⟨hharmless, hending⟩ := huncontested
    exact Or.inr ⟨⟨_, rfl, rfl⟩, hharmless, hending⟩

/-- A code that stands is what the next attempt runs against. -/
theorem KeepsShown.runsAgainstShown {pairing : Pairing}
    (hkeeps : pairing.KeepsShown) (action : PairingAction) :
    pairing.RunsAgainstShown action := by
  cases action with
  | lock =>
      intro hidle
      split
      · next typed waiting hwaiting =>
        intro hfresh hgood
        obtain hspent | ⟨⟨session, hsession, rfl⟩, _, _⟩ :=
          hkeeps.shown typed hfresh
        · exact absurd hspent hgood
        have hexpires := (hkeeps.sound.session session hsession).expires
        have hvalid : ¬ session.expiresAt < pairing.now := fun hpast =>
          hgood (Or.inl ⟨session.expiresAt, hexpires, hpast⟩)
        have hsome : pairing.session = some session := hsession
        simp only [startsExchange, Pairing.step, hidle, hwaiting, serve,
          Pairing.acceptPairing, hsome, if_neg hvalid]
        rfl
      · trivial
  | _ => trivial

/-- If nobody who would drop the session is under way whenever `start_pairing`
gets the lock, every shown code stays good. -/
theorem runsAgainstShown_along {actions : List PairingAction}
    (huncontested : machine.Along Uncontested start actions) :
    machine.Along RunsAgainstShown start actions := by
  have hgood : ∀ pairing action, KeepsShown pairing →
      Uncontested pairing action → RunsAgainstShown pairing action :=
    fun _ action hkeeps _ => hkeeps.runsAgainstShown action
  have hstep : ∀ pairing action next, KeepsShown pairing →
      Uncontested pairing action → machine.step pairing action = some next →
        KeepsShown next :=
    fun _ _ _ hkeeps hhere hnext => keepsShown_step hkeeps hhere hnext
  exact Machine.along_of_invariant hgood hstep keepsShown_start huncontested

instance (pairing : Pairing) (action : PairingAction) :
    Decidable (pairing.Uncontested action) := by
  apply action.casesOn (motive := fun action =>
    Decidable (pairing.Uncontested action))
  all_goals
    intros
    dsimp only [Uncontested]
    try split
    all_goals infer_instance

instance (pairing : Pairing) (action : PairingAction) :
    Decidable (pairing.RunsAgainstShown action) := by
  apply action.casesOn (motive := fun action =>
    Decidable (pairing.RunsAgainstShown action))
  all_goals
    intros
    dsimp only [RunsAgainstShown]
    try split
    all_goals infer_instance

/-- A code that pairs a device, and then a new one that is typed wrong twice
before it is typed right. -/
def patientUser : List PairingAction :=
  [.callStart, .lock] ++ attempt 0 (.ok ()) ++
    [.callEnd, .lock, .callStart, .lock] ++
      attempt 7 (.error .wrongCode) ++ attempt 7 (.error .wrongCode) ++
        [.callAttempt 1, .lock]

theorem runsAgainstShown_patientUser :
    machine.Along RunsAgainstShown start patientUser ∧
      (machine.run start patientUser).bind Pairing.exchange = some 1 :=
  ⟨runsAgainstShown_along (by decide), by decide⟩

/-- The user starts pairing again while an exchange is still under way.  The new
code is made before the attempt that ended calls `end_pairing`. -/
def hastyUser : List PairingAction :=
  [.callStart, .lock, .callAttempt 0, .lock, .callStart, .finish (.ok ()),
    .lock, .callEnd, .lock, .callAttempt 1, .lock]

/-- The second code is withdrawn by the end of the first attempt, and the device
that types it is refused. -/
theorem not_runsAgainstShown_hastyUser :
    ¬ machine.Along RunsAgainstShown start hastyUser ∧
      (machine.run start hastyUser).map
        (fun final => (final.session, final.fresh)) = some (none, [1]) := by
  decide

end Pairing

end Cled.Lan
