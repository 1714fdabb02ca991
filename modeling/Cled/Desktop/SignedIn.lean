import Cled.Core.Tasks
import Cled.Desktop.SignIn

/-!
# Who is signed in, in four places

Once no call is in progress, the session in memory, the session file, the status
and the input of the relay connection say the same, if the calls did not get in
each other's way: while one keeps and publishes a session, no other does so or
takes it away, and a superseded sign-in saves nothing.
-/

namespace Cled.Desktop

open Cled.Core

/-! ## The four places -/

/-- What the four places say. -/
structure Copies where
  session : Option StoredSession
  file : Option StoredSession
  status : AuthStatus
  signedIn : Bool

def Auth.copies (auth : Auth) : Copies where
  session := auth.session.map (·.stored)
  file := auth.file
  status := auth.status
  signedIn := auth.control.inputs.signedIn

namespace Copies

variable (copies : Copies)

/-- The account of the session in memory. -/
def account : Option Account := copies.session.map (·.account)

/-- The session of this account is in memory and in the file. -/
def Holds (account : Account) : Prop :=
  copies.file = copies.session ∧ copies.account = some account

/-- All four say the same. -/
structure Consistent : Prop where
  file : copies.file = copies.session
  status : copies.status = .ofAccount copies.account
  signedIn : copies.signedIn = copies.session.isSome

end Copies

/-! ## What a call is still to do -/

namespace Call

/-- The number of a sign-in that has not been checked. -/
def number : Call → Option ℕ
  | .signIn (.numbered number) | .signIn (.announced number)
  | .signIn (.browsing number) | .signIn (.exchanging number _)
  | .signIn (.storing number _) | .signIn (.ended number _) => some number
  | _ => none

/-- It keeps a session, or publishes one. -/
def Finishing : Call → Prop
  | .signIn (.storing _ _) | .signIn (.ended _ (some _))
  | .signIn (.checked (some _)) | .signIn (.publishing (some _))
  | .signIn (.connecting true) => True
  | _ => False

/-- It has saved a session and not kept it. -/
def Storing : Call → Prop
  | .signIn (.storing _ _) => True
  | _ => False

/-- It is a sign-out that has taken its number. -/
def SigningOut : Call → Prop
  | .signOut .called => False
  | .signOut _ => True
  | _ => False

/-- It makes known that there is no session. -/
def Clearing : Call → Prop
  | .signIn (.publishing none) | .signIn (.connecting false)
  | .signOut .forgetting | .signOut .disconnecting
  | .accessToken .forgetting | .accessToken .signedOut => True
  | _ => False

instance : DecidablePred Returned := fun call => by
  unfold Returned
  split <;> infer_instance

instance : DecidablePred Finishing := fun call => by
  unfold Finishing
  split <;> infer_instance

instance : DecidablePred Storing := fun call => by
  unfold Storing
  split <;> infer_instance

instance : DecidablePred SigningOut := fun call => by
  unfold SigningOut
  split <;> infer_instance

instance : DecidablePred Clearing := fun call => by
  unfold Clearing
  split <;> infer_instance

/-- It will remove the session file. -/
def Removes : Call → Prop
  | .signOut .forgetting | .accessToken .forgetting => True
  | _ => False

/-- It will set the status to what the session says then. -/
def Publishes (generation : ℕ) : Call → Prop
  | .signIn (.numbered number) | .signIn (.announced number)
  | .signIn (.browsing number) | .signIn (.exchanging number _)
  | .signIn (.ended number none) => number = generation
  | .signIn (.checked none) | .signIn (.publishing none)
  | .signOut .numbered | .signOut .forgetting
  | .accessToken .forgetting => True
  | _ => False

/-- It will set the input of the relay connection to what the session says
then. -/
def Connects (generation : ℕ) : Call → Prop
  | .signIn (.connecting false) | .signOut .disconnecting
  | .accessToken .signedOut => True
  | call => call.Publishes generation

theorem Removes.clearing {call : Call} (hremoves : call.Removes) :
    call.Clearing := by
  cases call with
  | signIn => cases hremoves
  | signOut stage =>
      cases stage with
      | forgetting => trivial
      | _ => cases hremoves
  | accessToken stage =>
      cases stage with
      | forgetting => trivial
      | _ => cases hremoves

theorem Storing.finishing {call : Call} (hstoring : call.Storing) :
    call.Finishing := by
  unfold Storing at hstoring
  split at hstoring
  · trivial
  · cases hstoring

/-- A call that has returned is one of the three kinds of call. -/
theorem Returned.eq {call : Call} (hreturned : call.Returned) :
    call = .signIn .returned ∨ call = .signOut .returned ∨
      call = .accessToken .returned := by
  unfold Returned at hreturned
  split at hreturned
  · exact .inl rfl
  · exact .inr (.inl rfl)
  · exact .inr (.inr rfl)
  · cases hreturned

theorem Returned.not_removes {call : Call} (hreturned : call.Returned) :
    ¬ call.Removes := by
  rcases hreturned.eq with rfl | rfl | rfl <;> exact id

theorem Returned.not_publishes {call : Call} (hreturned : call.Returned)
    (generation : ℕ) : ¬ call.Publishes generation := by
  rcases hreturned.eq with rfl | rfl | rfl <;> exact id

theorem Returned.not_connects {call : Call} (hreturned : call.Returned)
    (generation : ℕ) : ¬ call.Connects generation := by
  rcases hreturned.eq with rfl | rfl | rfl <;> exact id

theorem Returned.not_finishing {call : Call} (hreturned : call.Returned) :
    ¬ call.Finishing := by
  rcases hreturned.eq with rfl | rfl | rfl <;> exact id

end Call

/-! ## Calls that do not get in each other's way -/

namespace Auth

section Serial

variable (readClaims : String → Option IdClaims)

/-- The call changes which session there is, acts on what it is, or makes it
known.  Saying that it is signing in is not meant. -/
def Touches (auth : Auth) : Call → Answer → Prop
  | .signIn .called, _ | .signIn (.numbered _), _ | .signIn (.announced _), _
  | .signIn (.browsing _), _ | .signIn (.ended _ _), _ => False
  | .signIn (.exchanging _ service), .tokens tokens =>
      (newSession readClaims service tokens).isSome
  | .signIn (.exchanging _ _), _ => False
  | .signIn _, _ => True
  | .signOut .called, _ | .signOut .revoking, _ => False
  | .signOut _, _ => True
  | .accessToken .called, answer => answer = .goOn ∧ auth.session = none
  | .accessToken .refreshing, answer => answer = .rejected
  | .accessToken _, _ => True

/-- A sign-out that was called after all others has taken its number. -/
def SignedOutLast (auth : Auth) : Prop :=
  ∃ call ∈ auth.lastCalled.bind (auth.calls[·]?), call.SigningOut

/-- The call is not too late for what it does. -/
def InTime (auth : Auth) : Call → Answer → Prop
  | .signIn .called, _ => ¬ auth.SignedOutLast
  | .signIn (.numbered number), _ | .signIn (.announced number), _ =>
      number = auth.generation
  | .signIn (.exchanging number service), .tokens tokens =>
      (newSession readClaims service tokens).isSome →
        number = auth.generation ∧ ∀ call ∈ auth.calls, ¬ call.Clearing
  | .accessToken .refreshing, .tokens tokens =>
      (auth.session.bind (rotated · tokens)).isSome →
        ∀ call ∈ auth.calls, ¬ call.Storing
  | _, _ => True

/-- No call gets in the way of one that keeps or publishes a session, and none
is too late. -/
def Serial (auth : Auth) : Move → Prop
  | .turn number answer =>
      ∀ call, auth.calls[number]? = some call →
        (auth.Touches readClaims call answer →
          OnlyAt Call.Finishing number auth.calls) ∧
        auth.InTime readClaims call answer
  | .signIn | .cancelSignIn | .signOut | .accessToken => True

instance (auth : Auth) (call : Call) (answer : Answer) :
    Decidable (auth.Touches readClaims call answer) := by
  unfold Touches
  split <;> infer_instance

instance (auth : Auth) : Decidable auth.SignedOutLast :=
  inferInstanceAs (Decidable
    (∃ call ∈ auth.lastCalled.bind (auth.calls[·]?), call.SigningOut))

instance (auth : Auth) (call : Call) (answer : Answer) :
    Decidable (auth.InTime readClaims call answer) := by
  unfold InTime
  split <;> infer_instance

instance (auth : Auth) (move : Move) :
    Decidable (auth.Serial readClaims move) := by
  unfold Serial
  split
  · exact inferInstanceAs (Decidable (∀ call ∈ auth.calls[_]?, _))
  · infer_instance
  · infer_instance
  · infer_instance
  · infer_instance

end Serial

end Auth

/-! ## While nothing is kept or published -/

/-- What a sign-in that keeps or publishes a session has got right so far. -/
def Copies.Settles (copies : Copies) : Call → Prop
  | .signIn (.storing _ session) => copies.file = some session.stored
  | .signIn (.ended _ (some account)) | .signIn (.checked (some account))
  | .signIn (.publishing (some account)) => copies.Holds account
  | .signIn (.connecting true) => ∃ account, copies.Holds account
  | _ => False

/-- Nothing has come after the sign-in that it would have to leave to others. -/
def Copies.Leads (copies : Copies) (generation : ℕ) : Call → Prop
  | .signIn (.storing number _) | .signIn (.ended number _) =>
      number = generation
  | .signIn (.connecting _) => copies.status = .ofAccount copies.account
  | _ => True

/-- No session is being kept or published: what is not right yet is up to a call
that is in progress. -/
structure Calm (copies : Copies) (generation : ℕ) (calls : List Call) : Prop where
  file : Covered (copies.file = copies.session) Call.Removes calls
  status : Covered (copies.status = .ofAccount copies.account)
    (Call.Publishes generation) calls
  signedIn : Covered (copies.signedIn = copies.session.isSome)
    (Call.Connects generation) calls
  cleared : ∀ call ∈ calls, call.Clearing → copies.session = none
  unfinished : ∀ call ∈ calls, ¬ call.Finishing

/-- One call keeps and publishes a session, and no other is in its way.  If
another has come after it, that one will publish too. -/
structure Busy (copies : Copies) (generation : ℕ) (calls : List Call)
    (place : ℕ) (call : Call) : Prop where
  there : calls[place]? = some call
  settles : copies.Settles call
  leads : Covered (copies.Leads generation call) (Call.Publishes generation) calls
  only : OnlyAt Call.Finishing place calls
  uncleared : ∀ call ∈ calls, ¬ call.Clearing

def Settled (copies : Copies) (generation : ℕ) (calls : List Call) : Prop :=
  Calm copies generation calls ∨
    ∃ place call, Busy copies generation calls place call

section Settled

variable {copies copies' : Copies} {generation generation' : ℕ}
  {calls : List Call} {number place : ℕ} {call call' keeper : Call}

theorem Copies.Settles.finishing (hsettles : copies.Settles call) :
    call.Finishing := by
  unfold Settles at hsettles
  split at hsettles
  · trivial
  · trivial
  · trivial
  · trivial
  · trivial
  · cases hsettles

theorem Call.Publishes.connects (hpublishes : call.Publishes generation) :
    call.Connects generation := by
  unfold Connects
  split
  · trivial
  · trivial
  · trivial
  · exact hpublishes

/-- A call that keeps or publishes a session leaves nothing to others. -/
theorem Call.Finishing.not_connects (hfinishing : call.Finishing) :
    ¬ call.Connects generation := by
  unfold Finishing at hfinishing
  split at hfinishing
  · exact id
  · exact id
  · exact id
  · exact id
  · exact id
  · cases hfinishing

theorem Call.Finishing.not_publishes (hfinishing : call.Finishing) :
    ¬ call.Publishes generation :=
  fun hpublishes => hfinishing.not_connects hpublishes.connects

/-- A session in memory is in the file. -/
theorem Calm.file_of_session (hcalm : Calm copies generation calls)
    (hsession : copies.session ≠ none) : copies.file = copies.session := by
  rcases hcalm.file with hfile | ⟨call, hmem, hremoves⟩
  · exact hfile
  · exact absurd (hcalm.cleared call hmem hremoves.clearing) hsession

theorem Calm.unclear_of_session (hcalm : Calm copies generation calls)
    (hsession : copies.session ≠ none) : ∀ call ∈ calls, ¬ call.Clearing :=
  fun call hmem hclearing => hsession (hcalm.cleared call hmem hclearing)

/-- The call that keeps or publishes a session is the only one that may touch
it. -/
theorem Busy.eq (hbusy : Busy copies generation calls place keeper)
    (honly : OnlyAt Call.Finishing number calls)
    (hcall : calls[number]? = some call) : place = number ∧ keeper = call := by
  obtain rfl := honly place keeper hbusy.there hbusy.settles.finishing
  exact ⟨rfl, Option.some.inj (hbusy.there.symm.trans hcall)⟩

/-- A call that does not keep or publish one is another call. -/
theorem Busy.ne (hbusy : Busy copies generation calls place keeper)
    (hcall : calls[number]? = some call) (hother : ¬ call.Finishing) :
    number ≠ place := by
  rintro rfl
  obtain rfl := Option.some.inj (hcall.symm.trans hbusy.there)
  exact hother hbusy.settles.finishing

/-- Nothing is being kept or published when a call that does neither touches
one of the four. -/
theorem Settled.calm (hsettled : Settled copies generation calls)
    (honly : OnlyAt Call.Finishing number calls)
    (hcall : calls[number]? = some call) (hother : ¬ call.Finishing) :
    Calm copies generation calls := by
  rcases hsettled with hcalm | ⟨place, keeper, hbusy⟩
  · exact hcalm
  · exact absurd (hbusy.eq honly hcall).1.symm (hbusy.ne hcall hother)

/-- A call that keeps or publishes a session has got it right so far. -/
theorem Settled.busy (hsettled : Settled copies generation calls)
    (hcall : calls[number]? = some call) (hfinishing : call.Finishing) :
    Busy copies generation calls number call := by
  rcases hsettled with hcalm | ⟨place, keeper, hbusy⟩
  · exact absurd hfinishing (hcalm.unfinished call (List.mem_of_getElem? hcall))
  · obtain rfl := hbusy.only number call hcall hfinishing
    obtain rfl := Option.some.inj (hbusy.there.symm.trans hcall)
    exact hbusy

/-- The call goes on keeping and publishing. -/
theorem Busy.set (hbusy : Busy copies generation calls number call)
    (hsettles : copies'.Settles call')
    (hleads : copies.Leads generation call → copies'.Leads generation call')
    (hclear : ¬ call'.Clearing) :
    Busy copies' generation (calls.set number call') number call' where
  there := List.getElem?_set_self (List.getElem?_eq_some_iff.mp hbusy.there).1
  settles := hsettles
  leads := hbusy.leads.set hbusy.there (fun h => .inl (hleads h))
    (absurd · hbusy.settles.finishing.not_publishes)
  only := onlyAt_set hbusy.only (.inl rfl)
  uncleared := forall_set hbusy.uncleared hclear

/-- The call has nothing left to do for its session. -/
theorem Busy.finish (hbusy : Busy copies generation calls number call)
    (hfile : copies'.file = copies'.session)
    (hstatus : copies.Leads generation call →
      copies'.status = .ofAccount copies'.account)
    (hsignedIn : copies'.signedIn = copies'.session.isSome ∨
      ¬ copies.Leads generation call)
    (hfinishing : ¬ call'.Finishing) (hclear : ¬ call'.Clearing) :
    Calm copies' generation (calls.set number call') where
  file := .of_fact hfile
  status := hbusy.leads.set hbusy.there (fun h => .inl (hstatus h))
    (absurd · hbusy.settles.finishing.not_publishes)
  signedIn := by
    rcases hsignedIn with hsame | hnot
    · exact .of_fact hsame
    · obtain ⟨other, hmem, hother⟩ := hbusy.leads.resolve_left hnot
      have hpending : Covered False (Call.Connects generation) calls :=
        .inr ⟨other, hmem, hother.connects⟩
      refine hpending.set hbusy.there False.elim fun hself => ?_
      exact absurd hself hbusy.settles.finishing.not_connects
  cleared := forall_set
    (fun call hmem hclearing => absurd hclearing (hbusy.uncleared call hmem))
    (absurd · hclear)
  unfinished := none_of_onlyAt hbusy.only hfinishing

/-- A call begins to keep or publish a session. -/
theorem Calm.begin (hcalm : Calm copies generation calls)
    (hcall : calls[number]? = some call) (hsettles : copies'.Settles call')
    (hleads : copies'.Leads generation call') (hclear : ¬ call'.Clearing)
    (huncleared : ∀ call ∈ calls, ¬ call.Clearing) :
    Busy copies' generation (calls.set number call') number call' where
  there := List.getElem?_set_self (List.getElem?_eq_some_iff.mp hcall).1
  settles := hsettles
  leads := .of_fact hleads
  only := onlyAt_of_none hcalm.unfinished call'
  uncleared := forall_set huncleared hclear

/-- A call goes on without touching any of the four. -/
theorem Calm.set (hcalm : Calm copies generation calls)
    (hcall : calls[number]? = some call)
    (hremoves : call.Removes → call'.Removes)
    (hpublishes : call.Publishes generation → call'.Publishes generation)
    (hconnects : call.Connects generation → call'.Connects generation)
    (hclearing : call'.Clearing → copies.session = none)
    (hfinishing : ¬ call'.Finishing) :
    Calm copies generation (calls.set number call') where
  file := hcalm.file.set hcall .inl fun h => .inr (hremoves h)
  status := hcalm.status.set hcall .inl fun h => .inr (hpublishes h)
  signedIn := hcalm.signedIn.set hcall .inl fun h => .inr (hconnects h)
  cleared := forall_set hcalm.cleared hclearing
  unfinished := forall_set hcalm.unfinished hfinishing

theorem Settled.set (hsettled : Settled copies generation calls)
    (hcall : calls[number]? = some call)
    (hremoves : call.Removes → call'.Removes)
    (hpublishes : call.Publishes generation → call'.Publishes generation)
    (hconnects : call.Connects generation → call'.Connects generation)
    (hclearing : ¬ call'.Clearing) (hfinishing : ¬ call'.Finishing)
    (hother : ¬ call.Finishing) :
    Settled copies generation (calls.set number call') := by
  rcases hsettled with hcalm | ⟨place, keeper, hbusy⟩
  · exact .inl (hcalm.set hcall hremoves hpublishes hconnects
      (absurd · hclearing) hfinishing)
  · refine .inr ⟨place, keeper, ?_, hbusy.settles, ?_, ?_, ?_⟩
    · exact (List.getElem?_set_ne (hbusy.ne hcall hother)).trans hbusy.there
    · exact hbusy.leads.set hcall .inl fun h => .inr (hpublishes h)
    · exact onlyAt_set hbusy.only (.inr hfinishing)
    · exact forall_set hbusy.uncleared hclearing

/-- A call that will publish takes the next number, or says that it is signing
in. -/
theorem Settled.overtake (hsettled : Settled copies generation calls)
    (hcall : calls[number]? = some call) (hremoves : ¬ call.Removes)
    (hother : ¬ call.Finishing) (status : AuthStatus) (signedIn : Bool)
    (hpublishes : call'.Publishes generation') (hclearing : ¬ call'.Clearing)
    (hfinishing : ¬ call'.Finishing) :
    Settled { copies with status, signedIn } generation'
      (calls.set number call') := by
  rcases hsettled with hcalm | ⟨place, keeper, hbusy⟩
  · exact .inl ⟨hcalm.file.set hcall .inl (absurd · hremoves),
      .by_self hcall hpublishes, .by_self hcall hpublishes.connects,
      forall_set hcalm.cleared (absurd · hclearing),
      forall_set hcalm.unfinished hfinishing⟩
  · refine .inr ⟨place, keeper, ?_, hbusy.settles, .by_self hcall hpublishes,
      onlyAt_set hbusy.only (.inr hfinishing),
      forall_set hbusy.uncleared hclearing⟩
    exact (List.getElem?_set_ne (hbusy.ne hcall hother)).trans hbusy.there

/-- The session is gone from memory, and a call will make that known. -/
theorem Calm.clear (hcalm : Calm copies generation calls)
    (hcall : calls[number]? = some call) (hgone : copies'.session = none)
    (hremoves : call'.Removes) (hpublishes : call'.Publishes generation)
    (hconnects : call'.Connects generation) (hfinishing : ¬ call'.Finishing) :
    Calm copies' generation (calls.set number call') where
  file := .by_self hcall hremoves
  status := .by_self hcall hpublishes
  signedIn := .by_self hcall hconnects
  cleared := fun _ _ _ => hgone
  unfinished := forall_set hcalm.unfinished hfinishing

/-- The file and the status say that there is no session. -/
theorem Calm.forget (hcalm : Calm copies generation calls)
    (hcall : calls[number]? = some call) (hclearing : call.Clearing)
    (hconnects : call'.Connects generation) (hfinishing : ¬ call'.Finishing) :
    Calm { copies with file := none, status := .signedOut } generation
      (calls.set number call') := by
  have hgone : copies.session = none :=
    hcalm.cleared call (List.mem_of_getElem? hcall) hclearing
  refine ⟨.of_fact hgone.symm, .of_fact ?_, .by_self hcall hconnects,
    fun _ _ _ => hgone, forall_set hcalm.unfinished hfinishing⟩
  rw [Copies.account, hgone]
  rfl

/-- The relay is told that there is no session. -/
theorem Calm.disconnect (hcalm : Calm copies generation calls)
    (hcall : calls[number]? = some call) (hclearing : call.Clearing)
    (hremoves : ¬ call.Removes) (hpublishes : ¬ call.Publishes generation)
    (hfinishing : ¬ call'.Finishing) :
    Calm { copies with signedIn := false } generation
      (calls.set number call') := by
  have hgone : copies.session = none :=
    hcalm.cleared call (List.mem_of_getElem? hcall) hclearing
  refine ⟨hcalm.file.set hcall .inl fun h => absurd h hremoves,
    hcalm.status.set hcall .inl fun h => absurd h hpublishes, .of_fact ?_,
    fun _ _ _ => hgone, forall_set hcalm.unfinished hfinishing⟩
  dsimp only
  rw [hgone]
  rfl

/-- What a call has published stays right while the account does. -/
theorem Copies.Leads.of_account (hleads : copies.Leads generation call)
    (hstatus : copies'.status = copies.status)
    (haccount : copies'.account = copies.account) :
    copies'.Leads generation call := by
  unfold Leads at hleads ⊢
  split at hleads
  · exact hleads
  · exact hleads
  · rw [hstatus, haccount]
    exact hleads
  · trivial

/-- A session that is kept already may be replaced by one of its account. -/
theorem Copies.Settles.of_account (hsettles : copies.Settles call)
    (hkept : ¬ call.Storing) (hfile : copies'.file = copies'.session)
    (haccount : copies'.account = copies.account) : copies'.Settles call := by
  unfold Settles at hsettles ⊢
  split at hsettles
  · exact absurd trivial hkept
  · exact ⟨hfile, haccount.trans hsettles.2⟩
  · exact ⟨hfile, haccount.trans hsettles.2⟩
  · exact ⟨hfile, haccount.trans hsettles.2⟩
  · obtain ⟨account, hholds⟩ := hsettles
    exact ⟨account, hfile, haccount.trans hholds.2⟩
  · exact hsettles

/-- The refresh token in memory and in the file is replaced. -/
theorem Settled.rotate (hsettled : Settled copies generation calls)
    {stored stored' : StoredSession} (hsession : copies.session = some stored)
    (haccount : stored'.account = stored.account)
    (hstoring : ∀ call ∈ calls, ¬ call.Storing) :
    Settled { copies with session := some stored', file := some stored' }
      generation calls := by
  have hsame : ({ copies with
      session := some stored', file := some stored' } : Copies).account =
      copies.account := by
    rw [Copies.account, Copies.account, hsession]
    exact congrArg some haccount
  rcases hsettled with hcalm | ⟨place, keeper, hbusy⟩
  · have hsome : copies.session ≠ none := by
      rw [hsession]
      exact Option.some_ne_none stored
    refine .inl ⟨.of_fact rfl, ?_, ?_, fun call hmem hclearing => ?_,
      hcalm.unfinished⟩
    · rw [hsame]
      exact hcalm.status
    · have hsigned := hcalm.signedIn
      rw [hsession] at hsigned
      exact hsigned
    · exact absurd hclearing (hcalm.unclear_of_session hsome call hmem)
  · have hkept : ¬ keeper.Storing :=
      hstoring keeper (List.mem_of_getElem? hbusy.there)
    refine .inr ⟨place, keeper, hbusy.there, ?_, ?_, hbusy.only,
      hbusy.uncleared⟩
    · exact hbusy.settles.of_account hkept rfl hsame
    · exact hbusy.leads.imp_left fun hleads => hleads.of_account rfl hsame

theorem Settled.concat (hsettled : Settled copies generation calls)
    (hclearing : ¬ call.Clearing) (hfinishing : ¬ call.Finishing) :
    Settled copies generation (calls ++ [call]) := by
  rcases hsettled with hcalm | ⟨place, keeper, hbusy⟩
  · exact .inl ⟨hcalm.file.concat call, hcalm.status.concat call,
      hcalm.signedIn.concat call,
      forall_concat hcalm.cleared (absurd · hclearing),
      forall_concat hcalm.unfinished hfinishing⟩
  · exact .inr ⟨place, keeper, getElem?_concat_of_some hbusy.there call,
      hbusy.settles, hbusy.leads.concat call,
      onlyAt_concat hbusy.only hfinishing,
      forall_concat hbusy.uncleared hclearing⟩

end Settled

/-! ## Turns -/

namespace Auth

variable {format : UrlFormat} {readClaims : String → Option IdClaims}
  {auth auth' next : Auth} {number : ℕ} {answer : Answer} {call call' : Call}

/-- The four places with another session in memory. -/
theorem copies_account (auth : Auth) :
    auth.copies.account = auth.session.map (·.account) :=
  Option.map_map _ _ _

/-- Keeping the tokens of a refresh leaves the four as they were, or rotates. -/
theorem settled_keepTokens {session : Session} {tokens : TokenResponse}
    {calls : List Call}
    (hsettled : Settled auth.copies auth.generation calls)
    (hsession : auth.session = some session)
    (hstoring : (rotated session tokens).isSome →
      ∀ call ∈ calls, ¬ call.Storing) :
    Settled (auth.keepTokens session tokens).copies auth.generation calls := by
  have hstored : auth.copies.session = some session.stored := by
    rw [copies, hsession]
    rfl
  rw [keepTokens]
  split
  · next stored hrotated =>
    have haccount : stored.account = session.stored.account := by
      obtain ⟨refreshToken, -, rfl⟩ := Option.map_eq_some_iff.mp hrotated
      rfl
    exact hsettled.rotate hstored haccount
      (hstoring (Option.isSome_of_eq_some hrotated))
  · have hsame : ({ auth with
        session := some ⟨session.stored, some tokens.accessToken⟩ } :
        Auth).copies = auth.copies := by
      rw [copies, copies, hsession]
      rfl
    rw [hsame]
    exact hsettled

/-- A turn of a sign-in. -/
theorem settled_signIn {stage : SignIn}
    (hsettled : Settled auth.copies auth.generation auth.calls)
    (hcall : auth.calls[number]? = some (.signIn stage))
    (honly : auth.Touches readClaims (.signIn stage) answer →
      OnlyAt Call.Finishing number auth.calls)
    (htime : auth.InTime readClaims (.signIn stage) answer)
    (hturn : Turn format readClaims auth number (.signIn stage) answer auth'
      call') :
    Settled auth'.copies auth'.generation (auth.calls.set number call') := by
  cases hturn with
  | number => exact hsettled.overtake hcall id id _ _ rfl id id
  | announce generation =>
      have hnumber : generation = auth.generation := htime
      exact hsettled.overtake hcall id id .signingIn _ hnumber id id
  | disconnect generation =>
      have hnumber : generation = auth.generation := htime
      exact hsettled.overtake hcall id id _ false hnumber id id
  | stop | code =>
      exact hsettled.set hcall id id id id id id
  | exchangeFails =>
      exact hsettled.set hcall id id id id id id
  | save generation service tokens session hsession =>
      have hsome : (newSession readClaims service tokens).isSome :=
        Option.isSome_of_eq_some hsession
      obtain ⟨hnumber, huncleared⟩ := htime hsome
      have hcalm := hsettled.calm (honly hsome) hcall id
      exact .inr ⟨number, _, hcalm.begin hcall rfl hnumber id huncleared⟩
  | keep generation session =>
      have hbusy := hsettled.busy hcall trivial
      have hholds : { auth with session := some session : Auth }.copies.Holds
          session.account := ⟨hbusy.settles, rfl⟩
      exact .inr ⟨number, _, hbusy.set hholds id id⟩
  | superseded generation account hgeneration =>
      cases account with
      | none =>
          exact hsettled.set hcall id (absurd · hgeneration.symm)
            (absurd · hgeneration.symm) id id id
      | some account =>
          have hbusy := hsettled.busy hcall trivial
          exact .inl (hbusy.finish hbusy.settles.1
            (absurd · hgeneration.symm) (.inr hgeneration.symm) id id)
  | check account =>
      cases account with
      | none =>
          exact hsettled.set hcall id (fun _ => trivial) (fun _ => trivial)
            id id id
      | some account =>
          have hbusy := hsettled.busy hcall trivial
          exact .inr ⟨number, _, hbusy.set hbusy.settles (fun _ => trivial) id⟩
  | read account =>
      cases account with
      | some account =>
          have hbusy := hsettled.busy hcall trivial
          exact .inr ⟨number, _, hbusy.set hbusy.settles (fun _ => trivial) id⟩
      | none =>
          have hcalm := hsettled.calm (honly trivial) hcall id
          dsimp only [outcome]
          rw [← copies_account]
          cases haccount : auth.copies.account with
          | none =>
              have hgone : auth.copies.session = none :=
                Option.map_eq_none_iff.mp haccount
              exact .inl (hcalm.set hcall id id id (fun _ => hgone) id)
          | some account =>
              have hsome : auth.copies.session ≠ none := by
                intro hgone
                rw [Copies.account, hgone] at haccount
                cases haccount
              exact .inr ⟨number, _, hcalm.begin hcall
                ⟨hcalm.file_of_session hsome, haccount⟩ trivial id
                (hcalm.unclear_of_session hsome)⟩
  | publish account =>
      cases account with
      | some account =>
          have hbusy := hsettled.busy hcall trivial
          have hpublished : AuthStatus.signedIn account =
              .ofAccount auth.copies.account :=
            congrArg AuthStatus.ofAccount hbusy.settles.2.symm
          exact .inr ⟨number, _, hbusy.set ⟨account, hbusy.settles⟩
            (fun _ => hpublished) id⟩
      | none =>
          have hcalm := hsettled.calm (honly trivial) hcall id
          have hgone : auth.copies.session = none :=
            hcalm.cleared _ (List.mem_of_getElem? hcall) trivial
          refine .inl ⟨hcalm.file.set hcall .inl False.elim, .of_fact ?_,
            .by_self hcall trivial, forall_set hcalm.cleared fun _ => hgone,
            forall_set hcalm.unfinished id⟩
          have haccount : auth.copies.account = none :=
            Option.map_eq_none_iff.mpr hgone
          exact congrArg AuthStatus.ofAccount haccount.symm
  | connect signedIn =>
      cases signedIn with
      | true =>
          have hbusy := hsettled.busy hcall trivial
          obtain ⟨account, hfile, haccount⟩ := hbusy.settles
          obtain ⟨stored, hstored, -⟩ := Option.map_eq_some_iff.mp haccount
          refine .inl (hbusy.finish hfile id (.inl ?_) id id)
          exact (Option.isSome_of_eq_some hstored).symm
      | false =>
          have hcalm := hsettled.calm (honly trivial) hcall id
          exact .inl (hcalm.disconnect hcall trivial id id id)

theorem settled_signOut {stage : SignOut}
    (hsettled : Settled auth.copies auth.generation auth.calls)
    (hcall : auth.calls[number]? = some (.signOut stage))
    (honly : auth.Touches readClaims (.signOut stage) answer →
      OnlyAt Call.Finishing number auth.calls)
    (hturn : Turn format readClaims auth number (.signOut stage) answer auth'
      call') :
    Settled auth'.copies auth'.generation (auth.calls.set number call') := by
  cases hturn with
  | supersede => exact hsettled.overtake hcall id id _ _ trivial id id
  | take =>
      have hcalm := hsettled.calm (honly trivial) hcall id
      exact .inl (hcalm.clear hcall rfl trivial trivial trivial id)
  | forget =>
      have hcalm := hsettled.calm (honly trivial) hcall id
      exact .inl (hcalm.forget hcall trivial trivial id)
  | signOutRelay =>
      have hcalm := hsettled.calm (honly trivial) hcall id
      exact .inl (hcalm.disconnect hcall trivial id id id)
  | revoke => exact hsettled.set hcall id id id id id id

theorem settled_accessToken {stage : Fetch}
    (hsettled : Settled auth.copies auth.generation auth.calls)
    (hcall : auth.calls[number]? = some (.accessToken stage))
    (honly : auth.Touches readClaims (.accessToken stage) answer →
      OnlyAt Call.Finishing number auth.calls)
    (htime : auth.InTime readClaims (.accessToken stage) answer)
    (hturn : Turn format readClaims auth number (.accessToken stage) answer
      auth' call') :
    Settled auth'.copies auth'.generation (auth.calls.set number call') := by
  cases hturn with
  | noSession hfree hsession =>
      have hcalm := hsettled.calm (honly ⟨rfl, hsession⟩) hcall id
      have hgone : auth.copies.session = none := by
        rw [copies, hsession]
        rfl
      exact .inl (hcalm.set hcall False.elim False.elim False.elim
        (fun _ => hgone) id)
  | refresh | enough | giveUp => exact hsettled.set hcall id id id id id id
  | reject =>
      have hcalm := hsettled.calm (honly rfl) hcall id
      exact .inl (hcalm.clear hcall rfl trivial trivial trivial id)
  | refreshed session tokens hsession =>
      have hrotates : (rotated session tokens).isSome →
          ∀ call ∈ auth.calls, ¬ call.Storing := by
        intro hsome
        refine htime ?_
        rw [hsession]
        exact hsome
      have hkept : Settled (auth.keepTokens session tokens).copies
          auth.generation auth.calls :=
        settled_keepTokens hsettled hsession hrotates
      have hgeneration : (auth.keepTokens session tokens).generation =
          auth.generation := by
        rw [keepTokens]
        split <;> rfl
      dsimp only
      rw [hgeneration]
      exact hkept.set hcall id id id id id id
  | forgetRejected =>
      have hcalm := hsettled.calm (honly trivial) hcall id
      exact .inl (hcalm.forget hcall trivial trivial id)
  | onSignedOut =>
      have hcalm := hsettled.calm (honly trivial) hcall id
      exact .inl (hcalm.disconnect hcall trivial id id id)

theorem settled_turn
    (hsettled : Settled auth.copies auth.generation auth.calls)
    (hcall : auth.calls[number]? = some call)
    (honly : auth.Touches readClaims call answer →
      OnlyAt Call.Finishing number auth.calls)
    (htime : auth.InTime readClaims call answer)
    (hturn : Turn format readClaims auth number call answer auth' call') :
    Settled auth'.copies auth'.generation (auth.calls.set number call') := by
  cases call with
  | signIn => exact settled_signIn hsettled hcall honly htime hturn
  | signOut => exact settled_signOut hsettled hcall honly hturn
  | accessToken => exact settled_accessToken hsettled hcall honly htime hturn

/-! ## After a sign-out -/

/-- No number is ahead of the generation. -/
def Numbered (auth : Auth) : Prop :=
  ∀ call ∈ auth.calls, ∀ number, call.number = some number →
    number ≤ auth.generation

/-- A turn of a call takes at most the next number. -/
theorem Turn.number_eq
    (hturn : Turn format readClaims auth number call answer auth' call') :
    auth'.generation = auth.generation ∧
        (call'.number = call.number ∨ call'.number = none) ∨
      auth'.generation = auth.generation + 1 ∧
        (call = .signIn .called ∧ call'.number = some auth'.generation ∨
          call = .signOut .called ∧ call'.number = none) := by
  cases hturn with
  | number => exact .inr ⟨rfl, .inl ⟨rfl, rfl⟩⟩
  | supersede => exact .inr ⟨rfl, .inr ⟨rfl, rfl⟩⟩
  | announce | disconnect | stop | code | exchangeFails | save | keep =>
      exact .inl ⟨rfl, .inl rfl⟩
  | refreshed session tokens =>
      refine .inl ⟨?_, .inl rfl⟩
      dsimp only [keepTokens]
      split <;> rfl
  | superseded | check | read | publish | connect | take | forget
  | signOutRelay | revoke | noSession | refresh | enough | giveUp | reject
  | forgetRejected | onSignedOut => exact .inl ⟨rfl, .inr rfl⟩

theorem Numbered.turn (hnumbered : auth.Numbered)
    (hcall : auth.calls[number]? = some call)
    (hturn : Turn format readClaims auth number call answer auth' call') :
    ({ auth' with calls := auth.calls.set number call' } : Auth).Numbered := by
  have hold : ∀ number, call.number = some number → number ≤ auth.generation :=
    hnumbered call (List.mem_of_getElem? hcall)
  rcases hturn.number_eq with ⟨hgeneration, hnumber⟩ | ⟨hgeneration, hnumber⟩
  · refine forall_set (fun other hmem => hgeneration ▸ hnumbered other hmem) ?_
    rcases hnumber with hsame | hnone
    · exact fun number heq => hgeneration ▸ hold number (hsame ▸ heq)
    · exact fun number heq => by
        rw [hnone] at heq
        cases heq
  · refine forall_set (fun other hmem number heq => ?_) fun number heq => ?_
    · dsimp only
      exact hgeneration ▸ Nat.le_succ_of_le (hnumbered other hmem number heq)
    · rcases hnumber with ⟨-, hnext⟩ | ⟨-, hnone⟩
      · exact Nat.le_of_eq (Option.some.inj (heq.symm.trans hnext))
      · rw [hnone] at heq
        cases heq

/-- There is no session, and none is on its way. -/
def Gone (auth : Auth) : Prop :=
  auth.session = none ∧ ∀ call ∈ auth.calls, ¬ call.Storing

/-- Only a sign-in that has saved a session brings one to memory. -/
theorem Turn.session_eq_none
    (hturn : Turn format readClaims auth number call answer auth' call')
    (hnone : auth.session = none) (hkept : ¬ call.Storing) :
    auth'.session = none := by
  cases hturn with
  | keep => exact absurd trivial hkept
  | refreshed session tokens hsession =>
      rw [hnone] at hsession
      cases hsession
  | take | reject => rfl
  | _ => exact hnone

/-- Only a sign-in that is current saves a session. -/
theorem Turn.number_of_storing
    (hturn : Turn format readClaims auth number call answer auth' call')
    (htime : auth.InTime readClaims call answer) (hstoring : call'.Storing) :
    call.number = some auth.generation := by
  cases hturn with
  | save generation service tokens session hsession =>
      have hnumber : generation = auth.generation :=
        (htime (Option.isSome_of_eq_some hsession)).1
      exact congrArg some hnumber
  | _ => cases hstoring

/-- The last sign-out has superseded every sign-in, and the session goes. -/
structure Out (auth : Auth) (stage : SignOut) : Prop where
  superseded : ∀ call ∈ auth.calls, call.number ≠ some auth.generation
  gone : stage = .numbered ∨ auth.Gone

/-- The last call, if it is a sign-out that has taken its number. -/
def LastOut (auth : Auth) : Prop :=
  ∀ place stage, auth.lastCalled = some place →
    auth.calls[place]? = some (.signOut stage) → stage ≠ .called →
      auth.Out stage

/-- A turn of the last sign-out. -/
theorem Out.self {stage stage' : SignOut} (hnumbered : auth.Numbered)
    (hout : stage ≠ .called → auth.Out stage)
    (hcall : auth.calls[number]? = some (.signOut stage))
    (honly : auth.Touches readClaims (.signOut stage) answer →
      OnlyAt Call.Finishing number auth.calls)
    (hturn : Turn format readClaims auth number (.signOut stage) answer auth'
      (.signOut stage')) :
    ({ auth' with calls := auth.calls.set number (.signOut stage') } :
      Auth).Out stage' := by
  cases hturn with
  | supersede =>
      refine ⟨forall_set (fun call hmem heq => ?_) nofun, .inl rfl⟩
      exact Nat.not_succ_le_self _ (hnumbered call hmem _ heq)
  | take =>
      have hbefore := hout SignOut.noConfusion
      have hnone : ∀ call ∈ auth.calls.set number (.signOut .forgetting),
          ¬ call.Finishing := none_of_onlyAt (honly trivial) id
      exact ⟨forall_set hbefore.superseded nofun,
        .inr ⟨rfl, fun call hmem hstoring => hnone call hmem hstoring.finishing⟩⟩
  | forget | signOutRelay | revoke =>
      have hbefore := hout SignOut.noConfusion
      obtain ⟨hsession, hkept⟩ :=
        hbefore.gone.resolve_left SignOut.noConfusion
      exact ⟨forall_set hbefore.superseded nofun,
        .inr ⟨hsession, forall_set hkept id⟩⟩

/-- A turn of another call after the last sign-out. -/
theorem Out.other {stage : SignOut} (hout : auth.Out stage)
    (hnumbered : auth.Numbered) (hcall : auth.calls[number]? = some call)
    (hfirst : call ≠ .signIn .called)
    (htime : auth.InTime readClaims call answer)
    (hturn : Turn format readClaims auth number call answer auth' call') :
    ({ auth' with calls := auth.calls.set number call' } : Auth).Out stage := by
  have hmem := List.mem_of_getElem? hcall
  refine ⟨?_, hout.gone.imp_right fun ⟨hnone, hkept⟩ => ⟨?_, ?_⟩⟩
  · rcases hturn.number_eq with ⟨hgeneration, hnumber⟩ | ⟨hgeneration, hnumber⟩
    · refine forall_set (hgeneration ▸ hout.superseded) ?_
      rcases hnumber with hsame | hnone
      · rw [hsame, hgeneration]
        exact hout.superseded call hmem
      · rw [hnone]
        exact nofun
    · refine forall_set (fun other hother heq => ?_) ?_
      · have hle := hnumbered other hother _ heq
        dsimp only at hle
        rw [hgeneration] at hle
        exact Nat.not_succ_le_self _ hle
      · rcases hnumber with ⟨hcalled, -⟩ | ⟨-, hnone⟩
        · exact absurd hcalled hfirst
        · rw [hnone]
          exact nofun
  · exact hturn.session_eq_none hnone (hkept call hmem)
  · refine forall_set hkept fun hstoring => ?_
    exact hout.superseded call hmem (hturn.number_of_storing htime hstoring)

theorem LastOut.turn (hlast : auth.LastOut) (hnumbered : auth.Numbered)
    (hcall : auth.calls[number]? = some call)
    (honly : auth.Touches readClaims call answer →
      OnlyAt Call.Finishing number auth.calls)
    (htime : auth.InTime readClaims call answer)
    (hturn : Turn format readClaims auth number call answer auth' call') :
    ({ auth' with calls := auth.calls.set number call' } : Auth).LastOut := by
  intro place stage hplaced hplace hnumber
  have hcalled : auth.lastCalled = some place := hturn.keeps.2 ▸ hplaced
  dsimp only at hplace
  by_cases heq : number = place
  · subst heq
    obtain rfl := eq_of_getElem?_set hplace
    cases call with
    | signIn => cases hturn
    | accessToken => cases hturn
    | signOut before =>
        exact Out.self hnumbered (hlast number before hcalled hcall) hcall
          honly hturn
  · rw [List.getElem?_set_ne heq] at hplace
    refine (hlast place stage hcalled hplace hnumber).other hnumbered hcall ?_
      htime hturn
    rintro rfl
    refine htime ⟨.signOut stage, ?_, ?_⟩
    · exact Option.bind_eq_some_iff.mpr ⟨place, hcalled, hplace⟩
    · cases stage with
      | called => exact absurd rfl hnumber
      | _ => trivial

/-! ## Runs -/

structure Inv (auth : Auth) : Prop where
  settled : Settled auth.copies auth.generation auth.calls
  numbered : auth.Numbered
  lastOut : auth.LastOut

theorem inv_load (format : UrlFormat) (saved : Option StoredSession)
    (mode : ConnectionMode) (relayUrl : String) :
    (load format saved mode relayUrl).Inv := by
  have hsame : (load format saved mode relayUrl).copies =
      ⟨saved, saved, .ofAccount (saved.map (·.account)), saved.isSome⟩ := by
    cases saved <;> rfl
  have hcalls (call : Call) : call ∉ (load format saved mode relayUrl).calls :=
    List.not_mem_nil
  constructor
  case settled =>
    rw [hsame]
    exact .inl ⟨.of_fact rfl, .of_fact rfl, .of_fact rfl,
      fun call hcall => absurd hcall (hcalls call),
      fun call hcall => absurd hcall (hcalls call)⟩
  case numbered => exact fun call hcall => absurd hcall (hcalls call)
  case lastOut => exact nofun

/-- A call of `sign_in` or `sign_out` begins. -/
theorem Inv.begin (hinv : auth.Inv) (hnumber : call.number = none)
    (hclearing : ¬ call.Clearing) (hfinishing : ¬ call.Finishing)
    (hout : ∀ stage, call = .signOut stage → stage = .called) :
    (auth.begin call).Inv := by
  refine ⟨hinv.settled.concat hclearing hfinishing, ?_, ?_⟩
  · exact forall_concat hinv.numbered fun number heq => by
      rw [hnumber] at heq
      cases heq
  · rintro place stage ⟨rfl⟩ hplace hcalled
    have hcall : (auth.calls ++ [call])[auth.calls.length]? = some call :=
      List.getElem?_concat_length
    obtain rfl := Option.some.inj (hcall.symm.trans hplace)
    exact absurd (hout stage rfl) hcalled

theorem Inv.step (auth : Auth) (move : Move) (next : Auth) (hinv : auth.Inv)
    (hserial : auth.Serial readClaims move)
    (hstep : (machine format readClaims).step auth move = some next) :
    next.Inv := by
  cases move with
  | signIn =>
      obtain rfl := Option.some.inj hstep
      exact hinv.begin rfl id id nofun
  | cancelSignIn =>
      obtain rfl := Option.some.inj hstep
      refine ⟨hinv.settled, hinv.numbered, ?_⟩
      intro place stage hplaced hplace hnumber
      have hout := hinv.lastOut place stage hplaced hplace hnumber
      exact ⟨hout.superseded, hout.gone⟩
  | signOut =>
      obtain rfl := Option.some.inj hstep
      refine hinv.begin rfl id id ?_
      rintro _ ⟨rfl⟩
      rfl
  | accessToken =>
      obtain rfl := Option.some.inj hstep
      refine ⟨hinv.settled.concat id id, forall_concat hinv.numbered nofun, ?_⟩
      intro place stage hplaced hplace hnumber
      rcases Nat.lt_or_ge place auth.calls.length with hlt | hge
      · dsimp only at hplace
        rw [List.getElem?_append_left hlt] at hplace
        have hout := hinv.lastOut place stage hplaced hplace hnumber
        refine ⟨forall_concat hout.superseded nofun,
          hout.gone.imp_right fun ⟨hnone, hkept⟩ => ?_⟩
        exact ⟨hnone, forall_concat hkept id⟩
      · dsimp only at hplace
        rw [List.getElem?_append_right hge] at hplace
        cases List.mem_singleton.mp (List.mem_of_getElem? hplace)
  | turn number answer =>
      obtain ⟨call, auth', call', hcall, hturn, rfl⟩ := turn_eq_some hstep
      obtain ⟨honly, htime⟩ := hserial call hcall
      have hsettled : Settled auth'.copies auth'.generation
          (auth.calls.set number call') :=
        settled_turn hinv.settled hcall honly htime hturn
      exact ⟨hsettled, hinv.numbered.turn hcall hturn,
        hinv.lastOut.turn hinv.numbered hcall honly htime hturn⟩

/-- The session in memory, the session file, the status and the input of the
relay connection say the same. -/
structure Consistent (auth : Auth) : Prop where
  file : auth.file = auth.session.map (·.stored)
  status : auth.status = .ofAccount (auth.session.map (·.account))
  signedIn : auth.control.inputs.signedIn = auth.session.isSome

/-- Without a call in progress nothing is left to be done. -/
theorem Inv.consistent (hinv : auth.Inv)
    (hreturned : ∀ call ∈ auth.calls, call.Returned) : auth.Consistent := by
  have hdone {fact : Prop} {pending : Call → Prop}
      (hpending : ∀ call : Call, call.Returned → ¬ pending call)
      (hcovered : Covered fact pending auth.calls) : fact := by
    rcases hcovered with hfact | ⟨call, hmem, hcall⟩
    · exact hfact
    · exact absurd hcall (hpending call (hreturned call hmem))
  rcases hinv.settled with hcalm | ⟨place, keeper, hbusy⟩
  · refine ⟨hdone (fun _ h => h.not_removes) hcalm.file, ?_, ?_⟩
    · rw [← copies_account]
      exact hdone (fun _ h => h.not_publishes _) hcalm.status
    · rw [← Option.isSome_map]
      exact hdone (fun _ h => h.not_connects _) hcalm.signedIn
  · exact absurd hbusy.settles.finishing
      (hreturned keeper (List.mem_of_getElem? hbusy.there)).not_finishing

/-- Whenever no call is in progress the four places say the same, and after a
sign-out that was called last there is no session. -/
theorem sign_in_state_is_consistent {saved : Option StoredSession}
    {mode : ConnectionMode} {relayUrl : String} {moves : List Move} {final : Auth}
    (hserial : (machine format readClaims).Along (Serial readClaims)
      (load format saved mode relayUrl) moves)
    (hrun : (machine format readClaims).run (load format saved mode relayUrl)
      moves = some final)
    (hreturned : ∀ call ∈ final.calls, call.Returned) :
    final.Consistent ∧
      ∀ place stage, final.lastCalled = some place →
        final.calls[place]? = some (.signOut stage) →
          final.session = none ∧ final.file = none := by
  have hinv : final.Inv :=
    Machine.run_of_invariant Inv.step (inv_load format saved mode relayUrl)
      hserial hrun
  have hconsistent := hinv.consistent hreturned
  refine ⟨hconsistent, fun place stage hplaced hplace => ?_⟩
  have hdone := hreturned _ (List.mem_of_getElem? hplace)
  have hout : final.Out stage := by
    refine hinv.lastOut place stage hplaced hplace ?_
    rintro rfl
    exact hdone
  have hnone : final.session = none := by
    refine (hout.gone.resolve_left ?_).1
    rintro rfl
    exact hdone
  refine ⟨hnone, ?_⟩
  rw [hconsistent.file, hnone]
  rfl

def exampleClaims (_ : String) : Option IdClaims :=
  some ⟨"user", none, some "name", none, none⟩

def exampleService : Service := ⟨"issuer", "client", "token", none⟩

/-- A second sign-in supersedes the first one, its tokens are refreshed before it
has published its account, and the user signs out meanwhile. -/
def overlapping : List Move :=
  [.signIn, .turn 0 .goOn, .turn 0 .goOn, .turn 0 .goOn, .signIn, .turn 1 .goOn,
    .turn 0 .goOn, .turn 1 .goOn, .turn 0 .goOn, .turn 1 .goOn,
    .turn 1 (.code exampleService), .accessToken,
    .turn 1 (.tokens ⟨"a.b.c", some "first", none⟩), .turn 1 .goOn,
    .turn 2 .goOn, .turn 1 .goOn, .signOut,
    .turn 2 (.tokens ⟨"d.e.f", some "second", none⟩), .turn 1 .goOn,
    .turn 3 .goOn, .turn 1 .goOn, .turn 1 .goOn, .turn 3 .goOn, .accessToken,
    .turn 3 .goOn, .turn 3 .goOn, .turn 4 .goOn, .turn 3 .goOn, .turn 4 .goOn]

theorem sign_in_state_is_consistent_overlapping :
    ∃ final, (machine exampleUrls exampleClaims).run
        (load exampleUrls none .relay "https://a.example") overlapping =
          some final ∧
      final.Consistent ∧ final.session = none ∧ final.file = none := by
  have hserial : (machine exampleUrls exampleClaims).Along
      (Serial exampleClaims)
      (load exampleUrls none .relay "https://a.example") overlapping := by
    decide +kernel
  have hcalls : ((machine exampleUrls exampleClaims).run
      (load exampleUrls none .relay "https://a.example") overlapping).map
        (fun auth => (auth.calls, auth.lastCalled)) =
      some ([.signIn .returned, .signIn .returned, .accessToken .returned,
        .signOut .returned, .accessToken .returned], some 3) := by
    decide +kernel
  obtain ⟨final, hrun, hfinal⟩ := Option.map_eq_some_iff.mp hcalls
  obtain ⟨hcalls, hlast⟩ := Prod.mk.inj hfinal
  have hreturned : ∀ call ∈ final.calls, call.Returned := by
    rw [hcalls]
    decide
  obtain ⟨hconsistent, hout⟩ :=
    sign_in_state_is_consistent hserial hrun hreturned
  refine ⟨final, hrun, hconsistent, hout 3 .returned hlast ?_⟩
  rw [hcalls]
  rfl

/-- The user signs out while the code is exchanged for tokens. -/
def signedOutInExchange : List Move :=
  [.signIn, .turn 0 .goOn, .turn 0 .goOn, .turn 0 .goOn,
    .turn 0 (.code exampleService),
    .signOut, .turn 1 .goOn, .turn 1 .goOn, .turn 1 .goOn, .turn 1 .goOn,
    .turn 1 .goOn,
    .turn 0 (.tokens ⟨"a.b.c", some "first", none⟩),
    .turn 0 .goOn, .turn 0 .goOn]

/-- The session is kept after the sign-out, and nobody is said to be signed
in. -/
theorem not_consistent_signedOutInExchange :
    ∃ final, (machine exampleUrls exampleClaims).run
        (load exampleUrls none .relay "https://a.example")
          signedOutInExchange = some final ∧
      final.calls = [.signIn .returned, .signOut .returned] ∧
      final.lastCalled = some 1 ∧ final.session ≠ none ∧ final.file ≠ none ∧
      ¬ final.Consistent := by
  have hview : ((machine exampleUrls exampleClaims).run
      (load exampleUrls none .relay "https://a.example")
        signedOutInExchange).map
        (fun auth => (auth.calls, auth.lastCalled, auth.session.isSome,
          auth.file.isSome, auth.status)) =
      some ([.signIn .returned, .signOut .returned], some 1, true, true,
        .signedOut) := by
    decide
  obtain ⟨final, hrun, hfinal⟩ := Option.map_eq_some_iff.mp hview
  simp only [Prod.mk.injEq] at hfinal
  obtain ⟨hcalls, hlast, hsession, hfile, hstatus⟩ := hfinal
  refine ⟨final, hrun, hcalls, hlast, Option.isSome_iff_ne_none.mp hsession,
    Option.isSome_iff_ne_none.mp hfile, fun hconsistent => ?_⟩
  obtain ⟨session, hsome⟩ := Option.isSome_iff_exists.mp hsession
  have hsigned := hconsistent.status
  rw [hstatus, hsome] at hsigned
  cases hsigned

end Auth

end Cled.Desktop
