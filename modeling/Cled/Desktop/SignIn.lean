import Cled.Core.Machine
import Cled.Desktop.Control

/-!
# Signing in and out

Who is signed in is written down four times: the session in memory, the session
file, the status, and the input of the relay connection.  Calls of `sign_in`,
`sign_out` and `access_token` change them at different points, and between two
of these points another call can come in: wherever a call waits, and wherever it
lets go of a lock.  From one such point to the next is one step here.  All file
operations succeed.
-/

namespace Cled.Desktop

open Cled.Core

/-- Who is signed in, for display. -/
structure Account where
  userId : String
  email : Option String
  name : Option String
  deriving DecidableEq

/-- What's saved to disk: enough to get new access tokens after a restart. -/
structure StoredSession where
  issuer : String
  clientId : String
  tokenEndpoint : String
  revocationEndpoint : Option String
  refreshToken : String
  account : Account
  deriving DecidableEq

structure Session where
  stored : StoredSession
  /-- `none` until the first refresh after loading from disk. -/
  accessToken : Option String
  deriving DecidableEq

def Session.account (session : Session) : Account := session.stored.account

inductive AuthStatus where
  | signedOut
  /-- Waiting for the user to finish in the browser. -/
  | signingIn
  | signedIn (account : Account)
  deriving DecidableEq

def AuthStatus.ofAccount : Option Account → AuthStatus
  | some account => .signedIn account
  | none => .signedOut

/-! ## Answers of the account service -/

structure TokenResponse where
  accessToken : String
  refreshToken : Option String
  idToken : Option String
  deriving DecidableEq

/-- Claims read from the ID token for display. -/
structure IdClaims where
  sub : String
  email : Option String
  name : Option String
  givenName : Option String
  familyName : Option String

/-- The service the relay named, by its own metadata. -/
structure Service where
  issuer : String
  clientId : String
  tokenEndpoint : String
  revocationEndpoint : Option String
  deriving DecidableEq

section Answers

-- What the payload of a token says, as base64url of JSON.
variable (readClaims : String → Option IdClaims)

def accountFrom (tokens : TokenResponse) : Option Account :=
  -- Prefer the ID token; fall back to the access token.
  let token := tokens.idToken.getD tokens.accessToken
  (token.toList.splitOn '.')[1]?.bind fun payload =>
    (readClaims (String.ofList payload)).map fun claims =>
      let full := " ".intercalate
        (claims.givenName.toList ++ claims.familyName.toList)
      { userId := claims.sub
        email := claims.email
        name := claims.name.or (if full = "" then none else some full) }

/-- The session a sign-in comes to. -/
def newSession (service : Service) (tokens : TokenResponse) : Option Session :=
  tokens.refreshToken.bind fun refreshToken =>
    (accountFrom readClaims tokens).map fun account =>
      { stored :=
          { issuer := service.issuer
            clientId := service.clientId
            tokenEndpoint := service.tokenEndpoint
            revocationEndpoint := service.revocationEndpoint
            refreshToken
            account }
        accessToken := some tokens.accessToken }

/-- The session with another refresh token, if the service sent one. -/
def rotated (session : Session) (tokens : TokenResponse) :
    Option StoredSession :=
  (tokens.refreshToken.filter (· ≠ session.stored.refreshToken)).map
    fun refreshToken => { session.stored with refreshToken }

end Answers

/-! ## Calls -/

/-- How far a call of `sign_in` has got.  The number is its generation. -/
inductive SignIn where
  /-- It has cancelled the sign-in in progress. -/
  | called
  | numbered (number : ℕ)
  /-- The status says that it is signing in. -/
  | announced (number : ℕ)
  /-- From asking the relay for its account service to the code. -/
  | browsing (number : ℕ)
  /-- The code is exchanged for tokens. -/
  | exchanging (number : ℕ) (service : Service)
  /-- The session is saved, and the call waits for the session lock. -/
  | storing (number : ℕ) (session : Session)
  /-- `sign_in_flow` has returned. -/
  | ended (number : ℕ) (account : Option Account)
  /-- No other call has superseded it. -/
  | checked (account : Option Account)
  /-- It publishes that this account is signed in, or none. -/
  | publishing (account : Option Account)
  | connecting (signedIn : Bool)
  | returned
  deriving DecidableEq

/-- How far a call of `sign_out` has got. -/
inductive SignOut where
  /-- It has cancelled the sign-in in progress. -/
  | called
  /-- It waits for the session lock. -/
  | numbered
  /-- It has taken the session. -/
  | forgetting
  | disconnecting
  | revoking
  | returned
  deriving DecidableEq

/-- How far the relay task has got with a call of `access_token`. -/
inductive Fetch where
  /-- It waits for the session lock. -/
  | called
  /-- It holds the lock while it asks for tokens. -/
  | refreshing
  /-- The session is gone from memory. -/
  | forgetting
  /-- It is signed out, and the relay task says so. -/
  | signedOut
  | returned
  deriving DecidableEq

inductive Call where
  | signIn (stage : SignIn)
  | signOut (stage : SignOut)
  | accessToken (stage : Fetch)
  deriving DecidableEq

/-- The call is not in progress. -/
def Call.Returned : Call → Prop
  | .signIn .returned | .signOut .returned | .accessToken .returned => True
  | _ => False

/-- What a call that waits gets to know. -/
inductive Answer where
  | goOn
  | fails
  /-- The browser arrives with a code. -/
  | code (service : Service)
  | tokens (tokens : TokenResponse)
  /-- The account service does not accept the refresh token. -/
  | rejected
  /-- The access token that is kept has not expired. -/
  | kept
  deriving DecidableEq

structure Auth where
  session : Option Session
  /-- The call that holds the session lock while it waits. -/
  holder : Option ℕ
  status : AuthStatus
  /-- The call whose sign-in can be cancelled. -/
  cancelSignIn : Option ℕ
  /-- The calls whose sign-in was cancelled. -/
  cancelled : List ℕ
  generation : ℕ
  file : Option StoredSession
  control : Control
  calls : List Call
  /-- The last call of `sign_in` or `sign_out`, to be spoken about. -/
  lastCalled : Option ℕ

namespace Auth

inductive Move where
  | signIn
  | cancelSignIn
  | signOut
  | accessToken
  | turn (call : ℕ) (answer : Answer)
  deriving DecidableEq

variable (format : UrlFormat) (readClaims : String → Option IdClaims)

/-- With the sign-in that was saved, if one was. -/
def load (saved : Option StoredSession) (mode : ConnectionMode)
    (relayUrl : String) : Auth where
  session := saved.map fun stored => ⟨stored, none⟩
  holder := none
  status := .ofAccount (saved.map (·.account))
  cancelSignIn := none
  cancelled := []
  generation := 0
  file := saved
  control := .start format ⟨mode, relayUrl, saved.isSome⟩
  calls := []
  lastCalled := none

/-- The sender is used up, or dropped. -/
def cancelPendingSignIn (auth : Auth) : Auth :=
  { auth with
    cancelSignIn := none
    cancelled := auth.cancelled ++ auth.cancelSignIn.toList }

def setSignedIn (auth : Auth) (signedIn : Bool) : Auth :=
  { auth with control := auth.control.setSignedIn format signedIn }

/-- The session file is removed, and the status is signed out. -/
def forget (auth : Auth) : Auth :=
  { auth with file := none, status := .signedOut }

/-- What a sign-in publishes in the end: its own account, or after a failed
attempt the one that is still there. -/
def outcome (auth : Auth) : Option Account → Option Account
  | some account => some account
  | none => auth.session.map (·.account)

def stepSignIn (auth : Auth) (call : ℕ) : SignIn → Answer → Option (Auth × SignIn)
  | .called, .goOn =>
      some ({ auth.cancelPendingSignIn with
        generation := auth.generation + 1
        cancelSignIn := some call }, .numbered (auth.generation + 1))
  | .numbered number, .goOn =>
      some ({ auth with status := .signingIn }, .announced number)
  | .announced number, .goOn =>
      some (auth.setSignedIn format false, .browsing number)
  | .browsing number, .fails => some (auth, .ended number none)
  | .browsing number, .goOn =>
      if call ∈ auth.cancelled then some (auth, .ended number none) else none
  -- The code can be there at the same time as the cancellation.
  | .browsing number, .code service => some (auth, .exchanging number service)
  | .exchanging number _, .fails => some (auth, .ended number none)
  | .exchanging number service, .tokens tokens =>
      match newSession readClaims service tokens with
      | none => some (auth, .ended number none)
      | some session =>
          some ({ auth with file := some session.stored },
            .storing number session)
  | .storing number session, .goOn =>
      if auth.holder = none then
        some ({ auth with session := some session },
          .ended number (some session.account))
      else none
  | .ended number account, .goOn =>
      -- Superseded by a newer sign-in or a sign-out.
      if auth.generation ≠ number then some (auth, .returned)
      else some (auth, .checked account)
  | .checked account, .goOn =>
      if auth.holder = none then
        some (auth, .publishing (auth.outcome account))
      else none
  | .publishing account, .goOn =>
      some ({ auth with status := .ofAccount account }, .connecting account.isSome)
  | .connecting signedIn, .goOn =>
      some (auth.setSignedIn format signedIn, .returned)
  | _, _ => none

def stepSignOut (auth : Auth) : SignOut → Answer → Option (Auth × SignOut)
  | .called, .goOn =>
      some ({ auth with generation := auth.generation + 1 }, .numbered)
  | .numbered, .goOn =>
      if auth.holder = none then
        some ({ auth with session := none }, .forgetting)
      else none
  | .forgetting, .goOn => some (auth.forget, .disconnecting)
  | .disconnecting, .goOn => some (auth.setSignedIn format false, .revoking)
  | .revoking, .goOn => some (auth, .returned)
  | _, _ => none

/-- Keeps the tokens of a refresh; if the refresh token rotated, the new one
replaces the old one everywhere. -/
def keepTokens (auth : Auth) (session : Session) (tokens : TokenResponse) :
    Auth :=
  let fresh := some tokens.accessToken
  match rotated session tokens with
  | some stored =>
      { auth with session := some ⟨stored, fresh⟩, file := some stored }
  | none => { auth with session := some ⟨session.stored, fresh⟩ }

def stepFetch (auth : Auth) (call : ℕ) : Fetch → Answer → Option (Auth × Fetch)
  | .called, .goOn =>
      if auth.holder = none then
        match auth.session with
        | none => some (auth, .signedOut)
        | some _ => some ({ auth with holder := some call }, .refreshing)
      else none
  | .called, .kept =>
      if auth.holder = none ∧ (auth.session.bind (·.accessToken)).isSome then
        some (auth, .returned)
      else none
  -- The relay task drops the call when what it should do changes.
  | .called, .fails => some (auth, .returned)
  | .refreshing, .fails => some ({ auth with holder := none }, .returned)
  | .refreshing, .rejected =>
      some ({ auth with session := none, holder := none }, .forgetting)
  | .refreshing, .tokens tokens =>
      auth.session.map fun session =>
        ({ auth.keepTokens session tokens with holder := none }, .returned)
  | .forgetting, .goOn => some (auth.forget, .signedOut)
  | .signedOut, .goOn => some (auth.setSignedIn format false, .returned)
  | _, _ => none

/-- A call goes on. -/
def stepCall (auth : Auth) (number : ℕ) (answer : Answer) :
    Call → Option (Auth × Call)
  | .signIn stage =>
      (auth.stepSignIn format readClaims number stage answer).map
        fun (auth, stage) => (auth, .signIn stage)
  | .signOut stage =>
      (auth.stepSignOut format stage answer).map
        fun (auth, stage) => (auth, .signOut stage)
  | .accessToken stage =>
      (auth.stepFetch format number stage answer).map
        fun (auth, stage) => (auth, .accessToken stage)

/-- A call of `sign_in` or `sign_out` begins. -/
def begin (auth : Auth) (call : Call) : Auth :=
  { auth.cancelPendingSignIn with
    calls := auth.calls ++ [call]
    lastCalled := some auth.calls.length }

def machine : Machine Auth Move where
  step auth
    | .signIn => some (auth.begin (.signIn .called))
    | .cancelSignIn => some auth.cancelPendingSignIn
    | .signOut => some (auth.begin (.signOut .called))
    | .accessToken =>
        some { auth with calls := auth.calls ++ [.accessToken .called] }
    | .turn number answer =>
        auth.calls[number]?.bind fun call =>
          (auth.stepCall format readClaims number answer call).map
            fun (auth, call) =>
              { auth with calls := auth.calls.set number call }

/-! ## What a turn can do -/

/-- What a call does when it goes on. -/
inductive Turn (auth : Auth) (number : ℕ) : Call → Answer → Auth → Call → Prop
  | number :
      Turn auth number (.signIn .called) .goOn
        { auth.cancelPendingSignIn with
          generation := auth.generation + 1
          cancelSignIn := some number }
        (.signIn (.numbered (auth.generation + 1)))
  | announce (generation : ℕ) :
      Turn auth number (.signIn (.numbered generation)) .goOn
        { auth with status := .signingIn } (.signIn (.announced generation))
  | disconnect (generation : ℕ) :
      Turn auth number (.signIn (.announced generation)) .goOn
        (auth.setSignedIn format false) (.signIn (.browsing generation))
  | stop (generation : ℕ) (answer : Answer) :
      Turn auth number (.signIn (.browsing generation)) answer auth
        (.signIn (.ended generation none))
  | code (generation : ℕ) (service : Service) :
      Turn auth number (.signIn (.browsing generation)) (.code service) auth
        (.signIn (.exchanging generation service))
  | exchangeFails (generation : ℕ) (service : Service) (answer : Answer)
      (hnone : ∀ tokens, answer = .tokens tokens →
        newSession readClaims service tokens = none) :
      Turn auth number (.signIn (.exchanging generation service)) answer auth
        (.signIn (.ended generation none))
  | save (generation : ℕ) (service : Service) (tokens : TokenResponse)
      (session : Session)
      (hsession : newSession readClaims service tokens = some session) :
      Turn auth number (.signIn (.exchanging generation service))
        (.tokens tokens) { auth with file := some session.stored }
        (.signIn (.storing generation session))
  | keep (generation : ℕ) (session : Session) (hfree : auth.holder = none) :
      Turn auth number (.signIn (.storing generation session)) .goOn
        { auth with session := some session }
        (.signIn (.ended generation (some session.account)))
  | superseded (generation : ℕ) (account : Option Account)
      (hgeneration : auth.generation ≠ generation) :
      Turn auth number (.signIn (.ended generation account)) .goOn auth
        (.signIn .returned)
  | check (account : Option Account) :
      Turn auth number (.signIn (.ended auth.generation account)) .goOn auth
        (.signIn (.checked account))
  | read (account : Option Account) (hfree : auth.holder = none) :
      Turn auth number (.signIn (.checked account)) .goOn auth
        (.signIn (.publishing (auth.outcome account)))
  | publish (account : Option Account) :
      Turn auth number (.signIn (.publishing account)) .goOn
        { auth with status := .ofAccount account }
        (.signIn (.connecting account.isSome))
  | connect (signedIn : Bool) :
      Turn auth number (.signIn (.connecting signedIn)) .goOn
        (auth.setSignedIn format signedIn) (.signIn .returned)
  | supersede :
      Turn auth number (.signOut .called) .goOn
        { auth with generation := auth.generation + 1 } (.signOut .numbered)
  | take (hfree : auth.holder = none) :
      Turn auth number (.signOut .numbered) .goOn { auth with session := none }
        (.signOut .forgetting)
  | forget :
      Turn auth number (.signOut .forgetting) .goOn auth.forget
        (.signOut .disconnecting)
  | signOutRelay :
      Turn auth number (.signOut .disconnecting) .goOn
        (auth.setSignedIn format false) (.signOut .revoking)
  | revoke :
      Turn auth number (.signOut .revoking) .goOn auth (.signOut .returned)
  | noSession (hfree : auth.holder = none) (hsession : auth.session = none) :
      Turn auth number (.accessToken .called) .goOn auth
        (.accessToken .signedOut)
  | refresh (hfree : auth.holder = none) (hsession : auth.session.isSome) :
      Turn auth number (.accessToken .called) .goOn
        { auth with holder := some number } (.accessToken .refreshing)
  | enough (answer : Answer) :
      Turn auth number (.accessToken .called) answer auth
        (.accessToken .returned)
  | giveUp :
      Turn auth number (.accessToken .refreshing) .fails
        { auth with holder := none } (.accessToken .returned)
  | reject :
      Turn auth number (.accessToken .refreshing) .rejected
        { auth with session := none, holder := none } (.accessToken .forgetting)
  | refreshed (session : Session) (tokens : TokenResponse)
      (hsession : auth.session = some session) :
      Turn auth number (.accessToken .refreshing) (.tokens tokens)
        { auth.keepTokens session tokens with holder := none }
        (.accessToken .returned)
  | forgetRejected :
      Turn auth number (.accessToken .forgetting) .goOn auth.forget
        (.accessToken .signedOut)
  | onSignedOut :
      Turn auth number (.accessToken .signedOut) .goOn
        (auth.setSignedIn format false) (.accessToken .returned)

section Turns

variable {format : UrlFormat} {readClaims : String → Option IdClaims}
  {auth auth' : Auth} {number : ℕ} {answer : Answer}

theorem stepSignIn_turn {stage stage' : SignIn}
    (hstep : auth.stepSignIn format readClaims number stage answer =
      some (auth', stage')) :
    Turn format readClaims auth number (.signIn stage) answer auth'
      (.signIn stage') := by
  unfold stepSignIn at hstep
  split at hstep
  · obtain ⟨rfl, rfl⟩ := hstep
    exact .number
  · obtain ⟨rfl, rfl⟩ := hstep
    exact .announce _
  · obtain ⟨rfl, rfl⟩ := hstep
    exact .disconnect _
  · obtain ⟨rfl, rfl⟩ := hstep
    exact .stop _ _
  · split at hstep
    · obtain ⟨rfl, rfl⟩ := hstep
      exact .stop _ _
    · cases hstep
  · obtain ⟨rfl, rfl⟩ := hstep
    exact .code _ _
  · obtain ⟨rfl, rfl⟩ := hstep
    exact .exchangeFails _ _ _ nofun
  · split at hstep
    · next hnone =>
      obtain ⟨rfl, rfl⟩ := hstep
      refine .exchangeFails _ _ _ ?_
      rintro _ ⟨rfl⟩
      exact hnone
    · next session hsession =>
      obtain ⟨rfl, rfl⟩ := hstep
      exact .save _ _ _ _ hsession
  · split at hstep
    · next hfree =>
      obtain ⟨rfl, rfl⟩ := hstep
      exact .keep _ _ hfree
    · cases hstep
  · split at hstep
    · next hgeneration =>
      obtain ⟨rfl, rfl⟩ := hstep
      exact .superseded _ _ hgeneration
    · next hcurrent =>
      obtain ⟨rfl, rfl⟩ := hstep
      obtain rfl := not_not.mp hcurrent
      exact .check _
  · split at hstep
    · next hfree =>
      obtain ⟨rfl, rfl⟩ := hstep
      exact .read _ hfree
    · cases hstep
  · obtain ⟨rfl, rfl⟩ := hstep
    exact .publish _
  · obtain ⟨rfl, rfl⟩ := hstep
    exact .connect _
  · cases hstep

theorem stepSignOut_turn {stage stage' : SignOut}
    (hstep : auth.stepSignOut format stage answer = some (auth', stage')) :
    Turn format readClaims auth number (.signOut stage) answer auth'
      (.signOut stage') := by
  unfold stepSignOut at hstep
  split at hstep
  · obtain ⟨rfl, rfl⟩ := hstep
    exact .supersede
  · split at hstep
    · next hfree =>
      obtain ⟨rfl, rfl⟩ := hstep
      exact .take hfree
    · cases hstep
  · obtain ⟨rfl, rfl⟩ := hstep
    exact .forget
  · obtain ⟨rfl, rfl⟩ := hstep
    exact .signOutRelay
  · obtain ⟨rfl, rfl⟩ := hstep
    exact .revoke
  · cases hstep

theorem stepFetch_turn {stage stage' : Fetch}
    (hstep : auth.stepFetch format number stage answer = some (auth', stage')) :
    Turn format readClaims auth number (.accessToken stage) answer auth'
      (.accessToken stage') := by
  unfold stepFetch at hstep
  split at hstep
  · split at hstep
    · next hfree =>
      split at hstep
      · next hnone =>
        obtain ⟨rfl, rfl⟩ := hstep
        exact .noSession hfree hnone
      · next session hsession =>
        obtain ⟨rfl, rfl⟩ := hstep
        exact .refresh hfree (Option.isSome_of_eq_some hsession)
    · cases hstep
  · split at hstep
    · obtain ⟨rfl, rfl⟩ := hstep
      exact .enough _
    · cases hstep
  · obtain ⟨rfl, rfl⟩ := hstep
    exact .enough _
  · obtain ⟨rfl, rfl⟩ := hstep
    exact .giveUp
  · obtain ⟨rfl, rfl⟩ := hstep
    exact .reject
  · obtain ⟨session, hsession, heq⟩ := Option.map_eq_some_iff.mp hstep
    obtain ⟨rfl, rfl⟩ := heq
    exact .refreshed session _ hsession
  · obtain ⟨rfl, rfl⟩ := hstep
    exact .forgetRejected
  · obtain ⟨rfl, rfl⟩ := hstep
    exact .onSignedOut
  · cases hstep

theorem stepCall_turn {call call' : Call}
    (hstep : auth.stepCall format readClaims number answer call =
      some (auth', call')) :
    Turn format readClaims auth number call answer auth' call' := by
  cases call with
  | signIn stage =>
      obtain ⟨⟨after, stage'⟩, hstage, heq⟩ := Option.map_eq_some_iff.mp hstep
      obtain ⟨rfl, rfl⟩ := heq
      exact stepSignIn_turn hstage
  | signOut stage =>
      obtain ⟨⟨after, stage'⟩, hstage, heq⟩ := Option.map_eq_some_iff.mp hstep
      obtain ⟨rfl, rfl⟩ := heq
      exact stepSignOut_turn hstage
  | accessToken stage =>
      obtain ⟨⟨after, stage'⟩, hstage, heq⟩ := Option.map_eq_some_iff.mp hstep
      obtain ⟨rfl, rfl⟩ := heq
      exact stepFetch_turn hstage

/-- A turn is about one call, and what it says about itself is all it changes of
the calls. -/
theorem Turn.keeps {call call' : Call}
    (hturn : Turn format readClaims auth number call answer auth' call') :
    auth'.calls = auth.calls ∧ auth'.lastCalled = auth.lastCalled := by
  cases hturn with
  | refreshed session tokens =>
      dsimp only [keepTokens]
      split <;> exact ⟨rfl, rfl⟩
  | _ => exact ⟨rfl, rfl⟩

theorem turn_eq_some {next : Auth}
    (hstep : (machine format readClaims).step auth (.turn number answer) =
      some next) :
    ∃ call auth' call', auth.calls[number]? = some call ∧
      Turn format readClaims auth number call answer auth' call' ∧
      next = { auth' with calls := auth.calls.set number call' } := by
  obtain ⟨call, hcall, hmap⟩ := Option.bind_eq_some_iff.mp hstep
  obtain ⟨⟨auth', call'⟩, hcalled, rfl⟩ := Option.map_eq_some_iff.mp hmap
  have hturn := stepCall_turn hcalled
  refine ⟨call, auth', call', hcall, hturn, ?_⟩
  dsimp only
  rw [hturn.keeps.1]

end Turns

end Auth

end Cled.Desktop
