import Mathlib.Logic.Relation
import Cled.Core.Machine

/-!
# Two ends that talk over a connection

An end writes to one byte stream and reads from another, one thing after the
other, until it is done.  Whatever it waits for may fail, and then it is done at
once.  If both ends, undisturbed, come to a point from which neither goes on,
they come there in whatever order they take their steps; and an end that
succeeds, whatever happened to the other one, has the result that it has there.
-/

namespace Cled.Core

/-- Takes a value off the front of a stream, once enough has arrived.  What
arrives later does not change it. -/
structure Reading (Letter Value : Type) where
  take : List Letter → Option (Value × List Letter)
  stable : ∀ {stream rest : List Letter} {value : Value},
    take stream = some (value, rest) →
      ∀ more, take (stream ++ more) = some (value, rest ++ more)

/-- What one end does.  `failed` makes its own error of one that it meets. -/
inductive Talk (Letter Error Result : Type) : Type 1 where
  | done (result : Except Error Result)
  | write (letters : List Letter) (failed : Error → Error)
      (next : Talk Letter Error Result)
  | read {Value : Type} (reading : Reading Letter Value)
      (failed : Error → Error) (next : Value → Talk Letter Error Result)

namespace Talk

variable {Letter Error A B : Type}

/-- Goes on with the result, unless it is an error. -/
def andThen : Talk Letter Error A → (A → Talk Letter Error B) →
    Talk Letter Error B
  | .done (.ok value), next => next value
  | .done (.error error), _ => .done (.error error)
  | .write letters failed rest, next =>
      .write letters failed (rest.andThen next)
  | .read reading failed rest, next =>
      .read reading failed fun value => (rest value).andThen next

/-- Answers with another error where this would answer with one. -/
def mapError (change : Error → Error) :
    Talk Letter Error A → Talk Letter Error A
  | .done (.ok value) => .done (.ok value)
  | .done (.error error) => .done (.error (change error))
  | .write letters failed rest =>
      .write letters (change ∘ failed) (rest.mapError change)
  | .read reading failed rest =>
      .read reading (change ∘ failed) fun value => (rest value).mapError change

/-- One step, with what is left to read after it and what it writes. -/
def advance : Talk Letter Error A → List Letter →
    Option (Talk Letter Error A × List Letter × List Letter)
  | .done _, _ => none
  | .write letters _ next, incoming => some (next, incoming, letters)
  | .read reading _ next, incoming =>
      (reading.take incoming).map fun (value, rest) => (next value, rest, [])

/-- What it waits for fails: its error, and what it was about to write. -/
def fail (error : Error) : Talk Letter Error A → Option (Error × List Letter)
  | .done _ => none
  | .write letters failed _ => some (failed error, letters)
  | .read _ failed _ => some (failed error, [])

/-- What a step does. -/
inductive Steps : Talk Letter Error A → List Letter → Talk Letter Error A →
    List Letter → List Letter → Prop
  | wrote (letters : List Letter) (failed : Error → Error)
      (next : Talk Letter Error A) (incoming : List Letter) :
      Steps (.write letters failed next) incoming next incoming letters
  | took {Value : Type} (reading : Reading Letter Value)
      (failed : Error → Error) (next : Value → Talk Letter Error A)
      {incoming rest : List Letter} {value : Value}
      (htake : reading.take incoming = some (value, rest)) :
      Steps (.read reading failed next) incoming (next value) rest []

section Steps

variable {talk next : Talk Letter Error A} {incoming rest added : List Letter}

theorem steps_of_advance
    (hadvance : talk.advance incoming = some (next, rest, added)) :
    Steps talk incoming next rest added := by
  cases talk with
  | done result => cases hadvance
  | write letters failed last =>
      obtain ⟨rfl, rfl, rfl⟩ : last = next ∧ incoming = rest ∧ letters = added := by
        simpa [advance] using hadvance
      exact .wrote letters failed last incoming
  | read reading failed last =>
      obtain ⟨⟨value, left⟩, htake, hnext⟩ := Option.map_eq_some_iff.mp hadvance
      obtain ⟨rfl, rfl, rfl⟩ : last value = next ∧ left = rest ∧ [] = added := by
        simpa using hnext
      exact .took reading failed last htake

theorem Steps.advance (hsteps : Steps talk incoming next rest added) :
    talk.advance incoming = some (next, rest, added) := by
  cases hsteps with
  | wrote => rfl
  | took reading failed last htake =>
      rw [Talk.advance, htake]
      rfl

theorem Steps.append (hsteps : Steps talk incoming next rest added)
    (more : List Letter) :
    Steps talk (incoming ++ more) next (rest ++ more) added := by
  cases hsteps with
  | wrote => exact .wrote _ _ _ _
  | took reading failed last htake =>
      exact .took reading failed last (reading.stable htake more)

theorem Steps.andThen (hsteps : Steps talk incoming next rest added)
    (later : A → Talk Letter Error B) :
    Steps (talk.andThen later) incoming (next.andThen later) rest added := by
  cases hsteps with
  | wrote => exact .wrote _ _ _ _
  | took reading failed last htake =>
      exact .took reading failed (fun value => (last value).andThen later) htake

theorem Steps.mapError (hsteps : Steps talk incoming next rest added)
    (change : Error → Error) :
    Steps (talk.mapError change) incoming (next.mapError change) rest added := by
  cases hsteps with
  | wrote => exact .wrote _ _ _ _
  | took reading failed last htake =>
      exact .took reading _ (fun value => (last value).mapError change) htake

end Steps

end Talk

/-- Two ends and what is on its way to each. -/
structure Dialogue (Letter Error A B : Type) where
  left : Talk Letter Error A
  right : Talk Letter Error B
  toLeft : List Letter
  toRight : List Letter

/-- `leftFails error arrived`: the connection is lost for the left end, and of
all that is on its way from there only so much arrives. -/
inductive DialogueAction (Error : Type) where
  | leftGoes
  | rightGoes
  | leftFails (error : Error) (arrived : ℕ)
  | rightFails (error : Error) (arrived : ℕ)
  deriving DecidableEq

namespace Dialogue

variable {Letter Error A B A' B' : Type}

def start (left : Talk Letter Error A) (right : Talk Letter Error B) :
    Dialogue Letter Error A B :=
  ⟨left, right, [], []⟩

/-- The same dialogue seen from the other end. -/
def swap (dialogue : Dialogue Letter Error A B) : Dialogue Letter Error B A :=
  ⟨dialogue.right, dialogue.left, dialogue.toRight, dialogue.toLeft⟩

def leftGoes (dialogue : Dialogue Letter Error A B) :
    Option (Dialogue Letter Error A B) :=
  (dialogue.left.advance dialogue.toLeft).map fun (left, toLeft, added) =>
    { dialogue with left, toLeft, toRight := dialogue.toRight ++ added }

def leftFails (dialogue : Dialogue Letter Error A B) (error : Error)
    (arrived : ℕ) : Option (Dialogue Letter Error A B) :=
  (dialogue.left.fail error).map fun (error, letters) =>
    { dialogue with
      left := .done (.error error)
      toRight := (dialogue.toRight ++ letters).take arrived }

def step (dialogue : Dialogue Letter Error A B) :
    DialogueAction Error → Option (Dialogue Letter Error A B)
  | .leftGoes => dialogue.leftGoes
  | .rightGoes => dialogue.swap.leftGoes.map swap
  | .leftFails error arrived => dialogue.leftFails error arrived
  | .rightFails error arrived => (dialogue.swap.leftFails error arrived).map swap

def machine : Machine (Dialogue Letter Error A B) (DialogueAction Error) :=
  ⟨step⟩

/-- Nothing fails. -/
def Undisturbed : DialogueAction Error → Prop
  | .leftGoes => True
  | .rightGoes => True
  | _ => False

instance : DecidablePred (Undisturbed : DialogueAction Error → Prop)
  | .leftGoes => .isTrue trivial
  | .rightGoes => .isTrue trivial
  | .leftFails _ _ => .isFalse id
  | .rightFails _ _ => .isFalse id

/-! ## Undisturbed steps -/

def Goes (dialogue next : Dialogue Letter Error A B) : Prop :=
  dialogue.leftGoes = some next ∨ dialogue.swap.leftGoes.map swap = some next

def Reaches : Dialogue Letter Error A B → Dialogue Letter Error A B → Prop :=
  Relation.ReflTransGen Goes

/-- Neither end goes on. -/
def Halted (dialogue : Dialogue Letter Error A B) : Prop :=
  dialogue.left.advance dialogue.toLeft = none ∧
    dialogue.right.advance dialogue.toRight = none

section Steps

variable {dialogue next last : Dialogue Letter Error A B}

theorem leftGoes_eq_some : dialogue.leftGoes = some next ↔
    ∃ talk rest added, dialogue.left.Steps dialogue.toLeft talk rest added ∧
      next = ⟨talk, dialogue.right, rest, dialogue.toRight ++ added⟩ := by
  constructor
  · intro hgoes
    obtain ⟨⟨talk, rest, added⟩, hadvance, rfl⟩ := Option.map_eq_some_iff.mp hgoes
    exact ⟨talk, rest, added, Talk.steps_of_advance hadvance, rfl⟩
  · rintro ⟨talk, rest, added, hsteps, rfl⟩
    rw [leftGoes, hsteps.advance]
    rfl

theorem rightGoes_eq_some : dialogue.swap.leftGoes.map swap = some next ↔
    ∃ talk rest added, dialogue.right.Steps dialogue.toRight talk rest added ∧
      next = ⟨dialogue.left, talk, dialogue.toLeft ++ added, rest⟩ := by
  constructor
  · intro hgoes
    obtain ⟨turned, hturned, rfl⟩ := Option.map_eq_some_iff.mp hgoes
    obtain ⟨talk, rest, added, hsteps, rfl⟩ := leftGoes_eq_some.mp hturned
    exact ⟨talk, rest, added, hsteps, rfl⟩
  · rintro ⟨talk, rest, added, hsteps, rfl⟩
    exact Option.map_eq_some_iff.mpr
      ⟨_, leftGoes_eq_some.mpr ⟨talk, rest, added, hsteps, rfl⟩, rfl⟩

theorem goes_swap (hgoes : dialogue.Goes next) : dialogue.swap.Goes next.swap := by
  cases hgoes with
  | inl hleft =>
      right
      change dialogue.leftGoes.map swap = some next.swap
      rw [hleft]
      rfl
  | inr hright =>
      left
      obtain ⟨turned, hturned, rfl⟩ := Option.map_eq_some_iff.mp hright
      exact hturned

theorem Reaches.swap (hreaches : dialogue.Reaches next) :
    dialogue.swap.Reaches next.swap :=
  hreaches.lift Dialogue.swap fun _ _ => goes_swap

/-- Steps of different ends do not disturb each other. -/
theorem crossed {left right : Dialogue Letter Error A B}
    (hleft : dialogue.leftGoes = some left)
    (hright : dialogue.swap.leftGoes.map Dialogue.swap = some right) :
    ∃ both, left.swap.leftGoes.map Dialogue.swap = some both ∧
      right.leftGoes = some both := by
  obtain ⟨talk, rest, added, hsteps, rfl⟩ := leftGoes_eq_some.mp hleft
  obtain ⟨other, unread, answer, hother, rfl⟩ := rightGoes_eq_some.mp hright
  exact ⟨⟨talk, other, rest ++ answer, unread ++ added⟩,
    rightGoes_eq_some.mpr ⟨other, _, answer, hother.append added, rfl⟩,
    leftGoes_eq_some.mpr ⟨talk, _, added, hsteps.append answer, rfl⟩⟩

theorem goes_diamond {left right : Dialogue Letter Error A B}
    (hleft : dialogue.Goes left) (hright : dialogue.Goes right) :
    ∃ both, Relation.ReflGen Goes left both ∧
      Relation.ReflTransGen Goes right both := by
  cases hleft with
  | inl hleft =>
      cases hright with
      | inl hright =>
          obtain rfl := Option.some.inj (hleft.symm.trans hright)
          exact ⟨left, .refl, .refl⟩
      | inr hright =>
          obtain ⟨both, hfirst, hsecond⟩ := crossed hleft hright
          exact ⟨both, .single (.inr hfirst), .single (.inl hsecond)⟩
  | inr hleft =>
      cases hright with
      | inl hright =>
          obtain ⟨both, hfirst, hsecond⟩ := crossed hright hleft
          exact ⟨both, .single (.inl hsecond), .single (.inr hfirst)⟩
      | inr hright =>
          obtain rfl := Option.some.inj (hleft.symm.trans hright)
          exact ⟨left, .refl, .refl⟩

theorem Halted.not_goes (hhalted : dialogue.Halted) : ¬ dialogue.Goes next := by
  intro hgoes
  cases hgoes with
  | inl hleft =>
      obtain ⟨talk, rest, added, hsteps, -⟩ := leftGoes_eq_some.mp hleft
      exact absurd (hhalted.1.symm.trans hsteps.advance) nofun
  | inr hright =>
      obtain ⟨talk, rest, added, hsteps, -⟩ := rightGoes_eq_some.mp hright
      exact absurd (hhalted.2.symm.trans hsteps.advance) nofun

theorem Halted.eq_of_reaches (hhalted : dialogue.Halted)
    (hreaches : dialogue.Reaches next) : next = dialogue := by
  cases hreaches.cases_head with
  | inl heq => exact heq.symm
  | inr hgoes =>
      obtain ⟨_, hfirst, -⟩ := hgoes
      exact absurd hfirst hhalted.not_goes

/-- Whatever steps were taken, the point where both ends halt can still be
reached. -/
theorem reaches_halted {start : Dialogue Letter Error A B}
    (hlast : start.Reaches last) (hhalted : last.Halted)
    (hreaches : start.Reaches dialogue) : dialogue.Reaches last := by
  obtain ⟨both, hfirst, hsecond⟩ :=
    Relation.church_rosser (fun _ _ _ => goes_diamond) hreaches hlast
  rwa [← hhalted.eq_of_reaches hsecond]

/-- An end that is done stays so, and reads no more. -/
theorem done_of_reaches {result : Except Error A}
    (hdone : dialogue.left = .done result) (hreaches : dialogue.Reaches next) :
    next.left = .done result ∧ dialogue.toLeft <+: next.toLeft := by
  induction hreaches with
  | refl => exact ⟨hdone, List.prefix_rfl⟩
  | tail _ hgoes ih =>
      cases hgoes with
      | inl hleft =>
          obtain ⟨talk, rest, added, hsteps, -⟩ := leftGoes_eq_some.mp hleft
          rw [ih.1] at hsteps
          cases hsteps
      | inr hright =>
          obtain ⟨talk, rest, added, -, rfl⟩ := rightGoes_eq_some.mp hright
          exact ⟨ih.1, ih.2.trans (List.prefix_append _ _)⟩

end Steps

/-! ## Parts of a dialogue -/

/-- A change of a talk that takes the same steps. -/
def Lifts (change : Talk Letter Error A → Talk Letter Error A') : Prop :=
  ∀ {talk next : Talk Letter Error A} {incoming rest added : List Letter},
    talk.Steps incoming next rest added →
      (change talk).Steps incoming (change next) rest added

theorem lifts_id : Lifts (id : Talk Letter Error A → Talk Letter Error A) :=
  id

theorem lifts_andThen (later : A → Talk Letter Error A') :
    Lifts fun talk => talk.andThen later :=
  fun hsteps => hsteps.andThen later

theorem lifts_mapError (change : Error → Error) :
    Lifts fun talk : Talk Letter Error A => talk.mapError change :=
  fun hsteps => hsteps.mapError change

theorem Reaches.map {left : Talk Letter Error A → Talk Letter Error A'}
    {right : Talk Letter Error B → Talk Letter Error B'} (hleft : Lifts left)
    (hright : Lifts right) {dialogue next : Dialogue Letter Error A B}
    (hreaches : dialogue.Reaches next) :
    Reaches ⟨left dialogue.left, right dialogue.right, dialogue.toLeft,
        dialogue.toRight⟩
      ⟨left next.left, right next.right, next.toLeft, next.toRight⟩ := by
  refine hreaches.lift (fun dialogue : Dialogue Letter Error A B =>
    (⟨left dialogue.left, right dialogue.right, dialogue.toLeft,
      dialogue.toRight⟩ : Dialogue Letter Error A' B')) fun first second hgoes => ?_
  cases hgoes with
  | inl hgoes =>
      obtain ⟨talk, rest, added, hsteps, rfl⟩ := leftGoes_eq_some.mp hgoes
      exact .inl (leftGoes_eq_some.mpr ⟨_, _, _, hleft hsteps, rfl⟩)
  | inr hgoes =>
      obtain ⟨talk, rest, added, hsteps, rfl⟩ := rightGoes_eq_some.mp hgoes
      exact .inr (rightGoes_eq_some.mpr ⟨_, _, _, hright hsteps, rfl⟩)

/-- When one part of a dialogue has succeeded at both ends, the next part
begins. -/
theorem Reaches.andThen {left : Talk Letter Error A} {right : Talk Letter Error B}
    {toLeft toRight unreadLeft unreadRight : List Letter} {a : A} {b : B}
    (hreaches : Reaches ⟨left, right, toLeft, toRight⟩
      ⟨.done (.ok a), .done (.ok b), unreadLeft, unreadRight⟩)
    (f : A → Talk Letter Error A') (g : B → Talk Letter Error B') :
    Reaches ⟨left.andThen f, right.andThen g, toLeft, toRight⟩
      ⟨f a, g b, unreadLeft, unreadRight⟩ :=
  hreaches.map (lifts_andThen f) (lifts_andThen g)

theorem reaches_left {left next : Talk Letter Error A}
    {right : Talk Letter Error B} {toLeft toRight rest added : List Letter}
    (hsteps : left.Steps toLeft next rest added) :
    Reaches ⟨left, right, toLeft, toRight⟩
      ⟨next, right, rest, toRight ++ added⟩ :=
  .single (.inl (leftGoes_eq_some.mpr ⟨next, rest, added, hsteps, rfl⟩))

theorem reaches_right {left : Talk Letter Error A}
    {right next : Talk Letter Error B} {toLeft toRight rest added : List Letter}
    (hsteps : right.Steps toRight next rest added) :
    Reaches ⟨left, right, toLeft, toRight⟩
      ⟨left, next, toLeft ++ added, rest⟩ :=
  .single (.inr (rightGoes_eq_some.mpr ⟨next, rest, added, hsteps, rfl⟩))

/-- The left end writes what the right one takes. -/
theorem reaches_sent {Value : Type} {letters : List Letter} {value : Value}
    {reading : Reading Letter Value}
    (htake : reading.take letters = some (value, []))
    (failed other : Error → Error) (left : Talk Letter Error A)
    (right : Value → Talk Letter Error B) (toLeft : List Letter) :
    Reaches ⟨.write letters failed left, .read reading other right, toLeft, []⟩
      ⟨left, right value, toLeft, []⟩ := by
  refine (reaches_left (.wrote letters failed left toLeft)).trans ?_
  have htook : Reaches ⟨left, .read reading other right, toLeft, letters⟩
      ⟨left, right value, toLeft ++ [], []⟩ :=
    reaches_right (.took reading other right htake)
  rwa [List.append_nil] at htook

/-- The right end writes what the left one takes. -/
theorem reaches_answered {Value : Type} {letters : List Letter} {value : Value}
    {reading : Reading Letter Value}
    (htake : reading.take letters = some (value, []))
    (failed other : Error → Error) (left : Value → Talk Letter Error A)
    (right : Talk Letter Error B) (toRight : List Letter) :
    Reaches ⟨.read reading other left, .write letters failed right, [], toRight⟩
      ⟨left value, right, [], toRight⟩ :=
  (reaches_sent htake failed other right left toRight).swap

/-! ## Runs -/

/-- What the left end has seen it could have seen with nothing failing, unless
it has failed. -/
def LeftSound (first dialogue : Dialogue Letter Error A B) : Prop :=
  (∃ error, dialogue.left = .done (.error error)) ∨
    ∃ twin, first.Reaches twin ∧ twin.left = dialogue.left ∧
      dialogue.toLeft <+: twin.toLeft

/-- Both ends are sound, and one has failed. -/
structure Broken (first dialogue : Dialogue Letter Error A B) : Prop where
  left : first.LeftSound dialogue
  right : first.swap.LeftSound dialogue.swap
  failed : (∃ error, dialogue.left = .done (.error error)) ∨
    ∃ error, dialogue.right = .done (.error error)

section Runs

variable {first dialogue next last : Dialogue Letter Error A B}

theorem Broken.swap (hbroken : first.Broken dialogue) :
    first.swap.Broken dialogue.swap :=
  ⟨hbroken.right, hbroken.left, hbroken.failed.symm⟩

/-- The first failure, at the left end. -/
theorem broken_of_leftFails {error : Error} {arrived : ℕ}
    (hreaches : first.Reaches dialogue)
    (hfails : dialogue.leftFails error arrived = some next) :
    first.Broken next := by
  obtain ⟨⟨mine, letters⟩, hfail, rfl⟩ := Option.map_eq_some_iff.mp hfails
  refine ⟨.inl ⟨mine, rfl⟩, .inr ?_, .inl ⟨mine, rfl⟩⟩
  -- The right end sees no more than if all of it had been written.
  cases hleft : dialogue.left with
  | done result => rw [hleft] at hfail; cases hfail
  | write written failed rest =>
      rw [hleft] at hfail
      obtain ⟨rfl, rfl⟩ : failed error = mine ∧ written = letters := by
        simpa [Talk.fail] using hfail
      have hwrote : dialogue.Goes ⟨rest, dialogue.right, dialogue.toLeft,
          dialogue.toRight ++ written⟩ :=
        .inl (leftGoes_eq_some.mpr ⟨_, _, _, hleft ▸ .wrote _ _ _ _, rfl⟩)
      exact ⟨_, Reaches.swap (hreaches.tail hwrote), rfl, List.take_prefix _ _⟩
  | read reading failed rest =>
      rw [hleft] at hfail
      obtain ⟨rfl, rfl⟩ : failed error = mine ∧ [] = letters := by
        simpa [Talk.fail] using hfail
      refine ⟨_, hreaches.swap, rfl, ?_⟩
      change (dialogue.toRight ++ []).take arrived <+: dialogue.toRight
      rw [List.append_nil]
      exact List.take_prefix _ _

theorem Broken.leftGoes (hbroken : first.Broken dialogue)
    (hgoes : dialogue.leftGoes = some next) : first.Broken next := by
  obtain ⟨talk, rest, added, hsteps, rfl⟩ := leftGoes_eq_some.mp hgoes
  -- This end goes on, so it is the other one that failed.
  have hopen : ¬ ∃ error, dialogue.left = .done (.error error) := by
    rintro ⟨error, hdone⟩
    rw [hdone] at hsteps
    cases hsteps
  have hother := hbroken.failed.resolve_left hopen
  refine ⟨.inr ?_, .inl hother, .inr hother⟩
  obtain ⟨twin, htwin, hsame, more, hmore⟩ := hbroken.left.resolve_left hopen
  have hstepsTwin := hsteps.append more
  rw [hmore, ← hsame] at hstepsTwin
  have hgoesTwin : twin.Goes
      ⟨talk, twin.right, rest ++ more, twin.toRight ++ added⟩ :=
    .inl (leftGoes_eq_some.mpr ⟨_, _, _, hstepsTwin, rfl⟩)
  exact ⟨_, htwin.tail hgoesTwin, rfl, List.prefix_append _ _⟩

theorem Broken.leftFails (hbroken : first.Broken dialogue) {error : Error}
    {arrived : ℕ} (hfails : dialogue.leftFails error arrived = some next) :
    first.Broken next := by
  obtain ⟨⟨mine, letters⟩, hfail, rfl⟩ := Option.map_eq_some_iff.mp hfails
  have hopen : ¬ ∃ error, dialogue.left = .done (.error error) := by
    rintro ⟨error, hdone⟩
    rw [hdone] at hfail
    cases hfail
  exact ⟨.inl ⟨mine, rfl⟩, .inl (hbroken.failed.resolve_left hopen),
    .inl ⟨mine, rfl⟩⟩

theorem Broken.step {action : DialogueAction Error}
    (hbroken : first.Broken dialogue)
    (hstep : dialogue.step action = some next) : first.Broken next := by
  cases action with
  | leftGoes => exact hbroken.leftGoes hstep
  | leftFails error arrived => exact hbroken.leftFails hstep
  | rightGoes =>
      obtain ⟨turned, hturned, rfl⟩ := Option.map_eq_some_iff.mp hstep
      exact (hbroken.swap.leftGoes hturned).swap
  | rightFails error arrived =>
      obtain ⟨turned, hturned, rfl⟩ := Option.map_eq_some_iff.mp hstep
      exact (hbroken.swap.leftFails hturned).swap

theorem reaches_or_broken_step {action : DialogueAction Error}
    (hsound : first.Reaches dialogue ∨ first.Broken dialogue)
    (hstep : dialogue.step action = some next) :
    first.Reaches next ∨ first.Broken next := by
  cases hsound with
  | inr hbroken => exact .inr (hbroken.step hstep)
  | inl hreaches =>
      cases action with
      | leftGoes => exact .inl (hreaches.tail (.inl hstep))
      | rightGoes => exact .inl (hreaches.tail (.inr hstep))
      | leftFails error arrived => exact .inr (broken_of_leftFails hreaches hstep)
      | rightFails error arrived =>
          obtain ⟨turned, hturned, rfl⟩ := Option.map_eq_some_iff.mp hstep
          exact .inr (broken_of_leftFails hreaches.swap hturned).swap

theorem reaches_or_broken_of_run {actions : List (DialogueAction Error)}
    {final : Dialogue Letter Error A B}
    (hrun : machine.run first actions = some final) :
    first.Reaches final ∨ first.Broken final := by
  have hstep : ∀ dialogue action next,
      first.Reaches dialogue ∨ first.Broken dialogue →
        machine.step dialogue action = some next →
          first.Reaches next ∨ first.Broken next :=
    fun _ _ _ => reaches_or_broken_step
  have hfirst : first.Reaches first ∨ first.Broken first := .inl .refl
  exact Machine.run_of_step_invariant hstep hfirst hrun

/-- What the left end succeeds with, and what it leaves to be read, are as in
any undisturbed dialogue that has come to its end. -/
theorem left_of_run {actions : List (DialogueAction Error)}
    {final : Dialogue Letter Error A B}
    (hrun : machine.run first actions = some final)
    (hlast : first.Reaches last) (hhalted : last.Halted) {value : A}
    (hdone : final.left = .done (.ok value)) :
    last.left = .done (.ok value) ∧ final.toLeft <+: last.toLeft := by
  cases reaches_or_broken_of_run hrun with
  | inl hreaches =>
      exact done_of_reaches hdone (reaches_halted hlast hhalted hreaches)
  | inr hbroken =>
      cases hbroken.left with
      | inl hfailed =>
          obtain ⟨error, hfailed⟩ := hfailed
          rw [hfailed] at hdone
          cases hdone
      | inr hsound =>
          obtain ⟨twin, htwin, hsame, hunread⟩ := hsound
          have hend := done_of_reaches (hsame.trans hdone)
            (reaches_halted hlast hhalted htwin)
          exact ⟨hend.1, hunread.trans hend.2⟩

theorem right_of_run {actions : List (DialogueAction Error)}
    {final : Dialogue Letter Error A B}
    (hrun : machine.run first actions = some final)
    (hlast : first.Reaches last) (hhalted : last.Halted) {value : B}
    (hdone : final.right = .done (.ok value)) :
    last.right = .done (.ok value) ∧ final.toRight <+: last.toRight := by
  cases reaches_or_broken_of_run hrun with
  | inl hreaches =>
      have hswap : final.swap.left = .done (.ok value) := hdone
      exact done_of_reaches hswap (reaches_halted hlast hhalted hreaches).swap
  | inr hbroken =>
      cases hbroken.right with
      | inl hfailed =>
          obtain ⟨error, hfailed⟩ := hfailed
          exact absurd (hfailed.symm.trans hdone) nofun
      | inr hsound =>
          obtain ⟨twin, htwin, hsame, hunread⟩ := hsound
          have hback := reaches_halted hlast hhalted htwin.swap
          have hend := done_of_reaches (hsame.trans hdone) hback.swap
          exact ⟨hend.1, hunread.trans hend.2⟩

theorem exists_run (hreaches : first.Reaches last) :
    ∃ actions, (∀ action ∈ actions, Undisturbed action) ∧
      machine.run first actions = some last := by
  induction hreaches using Relation.ReflTransGen.head_induction_on with
  | refl => exact ⟨[], nofun, rfl⟩
  | head hgoes _ ih =>
      obtain ⟨actions, hcalm, hrun⟩ := ih
      cases hgoes with
      | inl hleft =>
          refine ⟨.leftGoes :: actions,
            List.forall_mem_cons.mpr ⟨trivial, hcalm⟩, ?_⟩
          exact Option.bind_eq_some_iff.mpr ⟨_, hleft, hrun⟩
      | inr hright =>
          refine ⟨.rightGoes :: actions,
            List.forall_mem_cons.mpr ⟨trivial, hcalm⟩, ?_⟩
          exact Option.bind_eq_some_iff.mpr ⟨_, hright, hrun⟩

end Runs

/-! ## How a dialogue ends -/

/-- Whatever fails, an end that succeeds has this result.  If nothing fails both
ends succeed, and this is what the left one has not read. -/
structure Settles (first : Dialogue Letter Error A B) (left : A) (right : B)
    (unread : List Letter) : Prop where
  left_of_run : ∀ {actions final}, machine.run first actions = some final →
    ∀ {value}, final.left = .done (.ok value) →
      value = left ∧ final.toLeft <+: unread
  right_of_run : ∀ {actions final}, machine.run first actions = some final →
    ∀ {value}, final.right = .done (.ok value) → value = right
  both_of_run : ∀ {actions final},
    (∀ action ∈ actions, Undisturbed action) →
      machine.run first actions = some final → final.Halted →
        final.left = .done (.ok left) ∧ final.right = .done (.ok right) ∧
          final.toLeft = unread
  exists_run : ∃ actions final, (∀ action ∈ actions, Undisturbed action) ∧
    machine.run first actions = some final ∧ final.Halted

end Dialogue

end Cled.Core
