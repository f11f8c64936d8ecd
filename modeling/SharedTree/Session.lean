import SharedTree.Auth.Problem

/-!
The life of a sync session: signing in, waiting for the first download, and telling peers about
commits. A session takes one event at a time and answers with its next state and the actions that
are now to be carried out, in order.

A session becomes ready when it is authenticated and holds usable data, in whichever order it learns
the two, and stays ready. A peer notification is owed from a committing cycle until a send succeeds.
-/

namespace SharedTree

/-- How far a session has come. -/
inductive Phase where
  | uninitialized
  /-- Signing in was attempted in some form. -/
  | authenticating
  /-- Authenticated, and the first download has ended. -/
  | ready
  deriving DecidableEq, Repr

def Phase.name : Phase → String
  | .uninitialized => "Uninitialized"
  | .authenticating => "Authenticating"
  | .ready => "Ready"

/-- The syncer's account of itself during a cycle or at its end. -/
structure SyncerAccount where
  /-- The share holds enough to be shown. -/
  isUsable : Bool := false
  /-- A cycle has just ended. -/
  cycleEnded : Bool := false
  /-- More work is known to be waiting. -/
  hasMore : Bool := false
  /-- How many items the cycle committed to the server. -/
  commits : Nat := 0
  deriving DecidableEq, Repr

/-- What a session is told. -/
inductive SessionEvent where
  /-- The embedder handed over a user name and a password. -/
  | passwordOffered (passwordEmpty : Bool)
  /-- The last user's token was found, and that user's directory opened. -/
  | rememberedUserFound (firstSyncDone : Bool)
  /-- The embedder handed over an LSID cookie. -/
  | lsidOffered
  /-- There is nothing to sign in with. -/
  | nothingToOffer
  | attemptStarted
  /-- Signing in worked, and the user's directory is open. -/
  | signedIn (firstSyncDone : Bool)
  | signInFailed (error : AuthProblem)
  /-- A report that is neither a success nor a failure. -/
  | otherReport
  /-- A test skipped signing in. -/
  | signInSkipped
  | syncerAccount (account : SyncerAccount)
  /-- An attempt to notify the peers came to its end. -/
  | notificationTried (success : Bool)
  deriving DecidableEq, Repr

/-- What is to be done after an event. -/
inductive SessionAction where
  /-- Tell the observer about authentication. -/
  | tellAuthProblem (error : AuthProblem)
  /-- Hand the user name and password to the auth watcher. -/
  | tryPassword
  /-- Hand the remembered token to the auth watcher. -/
  | tryToken
  /-- Hand the LSID cookie to the auth watcher. -/
  | tryLsid
  /-- Listen for changes of the user's directory. -/
  | listenToDirectory
  /-- Tell the observer that the share can be used. -/
  | tellInitialized
  /-- Tell the observer that nothing is left to sync. -/
  | tellCycleCompleted
  /-- Tell the peers that there is something new on the server. -/
  | notifyPeers
  deriving DecidableEq, Repr

def SessionAction.name : SessionAction → String
  | .tellAuthProblem _ => "EmitAuthError"
  | .tryPassword => "StartAuthentication"
  | .tryToken => "StartTokenAuthentication"
  | .tryLsid => "StartLsidAuthentication"
  | .listenToDirectory => "HookDirectoryChanges"
  | .tellInitialized => "NotifyInitializationComplete"
  | .tellCycleCompleted => "EmitSyncCycleCompleted"
  | .notifyPeers => "SendPeerNotification"

/-- The state of a session. -/
structure Session where
  phase : Phase := .uninitialized
  authenticated : Bool := false
  firstSyncDone : Bool := false
  authProblem : AuthState := .none
  /-- The peers have not heard of the latest commit. -/
  owesNotification : Bool := false
  deriving DecidableEq, Repr

namespace Session

def initial : Session := {}

def isReady (s : Session) : Bool := s.phase = .ready

/-- Signing in has been attempted; a session that came further stays where it is. -/
def beginSigningIn (s : Session) : Session :=
  if s.phase = .uninitialized then { s with phase := .authenticating } else s

/-- There is a problem, and the observer is to hear of it. -/
def raise (s : Session) (error : AuthProblem) : Session × List SessionAction :=
  ({ s with authProblem := error.state }, [.tellAuthProblem error])

/-- Becomes ready once both conditions are met. -/
def becomeReady (s : Session) : Session × List SessionAction :=
  if s.phase ≠ .ready ∧ s.authenticated ∧ s.firstSyncDone then
    ({ s with phase := .ready }, [.tellInitialized])
  else (s, [])

/-- What a session that is ready makes of the end of a cycle. -/
def endCycle (s : Session) (account : SyncerAccount) : Session × List SessionAction :=
  let completed := if account.hasMore then [] else [.tellCycleCompleted]
  let pending := s.owesNotification || 0 < account.commits
  ({ s with owesNotification := pending },
    completed ++ if pending then [.notifyPeers] else [])

/-- What a session makes of the syncer's account. -/
def onAccount (s : Session) (account : SyncerAccount) : Session × List SessionAction :=
  if s.phase ≠ .ready then
    if account.isUsable then becomeReady { s with firstSyncDone := true } else (s, [])
  else if account.cycleEnded then s.endCycle account
  else (s, [])

/-- The next state after an event, and what is to be done. -/
def onEvent (s : Session) : SessionEvent → Session × List SessionAction
  | .passwordOffered passwordEmpty =>
    if s.authenticated then (s, [])
    else
      let s := s.beginSigningIn
      if passwordEmpty then
        let (s, actions) := s.raise (.ofState .credentialsNeeded)
        (s, actions ++ [.tryPassword])
      else (s, [.tryPassword])
  | .rememberedUserFound ended =>
    let s := s.beginSigningIn
    ({ s with firstSyncDone := s.firstSyncDone || ended }, [.tryToken])
  | .lsidOffered => (s.beginSigningIn, [.tryLsid])
  | .nothingToOffer => s.raise (.ofState .credentialsNeeded)
  | .attemptStarted => (s, [])
  | .signedIn ended =>
    let (s, ready) := becomeReady
      { s with
        authProblem := .none
        authenticated := true
        firstSyncDone := s.firstSyncDone || ended }
    (s, [.tellAuthProblem .healthy, .listenToDirectory] ++ ready)
  | .signInFailed error => s.raise error
  | .otherReport => ({ s with authProblem := .none }, [])
  | .signInSkipped =>
    let (s, ready) := becomeReady { s with authenticated := true, firstSyncDone := true }
    (s, .listenToDirectory :: ready)
  | .syncerAccount account => s.onAccount account
  | .notificationTried success =>
    (if success then { s with owesNotification := false } else s, [])

/-- A session as descriptions show it. -/
def describe (s : Session) : String :=
  "SessionState \x7b phase: " ++ s.phase.name ++ ", authenticated: " ++ toString s.authenticated ++
    ", initial_sync_ended: " ++ toString s.firstSyncDone ++ ", auth_problem: " ++
    s.authProblem.name ++ ", notification_pending: " ++ toString s.owesNotification ++ " \x7d"

end Session

end SharedTree
