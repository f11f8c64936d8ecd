import SharedTree.Auth.Credentials
import SharedTree.Auth.Problem
import SharedTree.Contents
import SharedTree.Change

/-!
Everything a client does to the outside: what it asks of its services, and what it tells the
observer. A client keeps the list of its effects; the questions of what was asked and told so far
are answered from that list.
-/

namespace SharedTree

/-- What the auth watcher is asked to try. -/
inductive SignInRequest where
  | password (credentials : Credentials)
  | token (remembered : RememberedUser)
  | lsid (lsid : String)
  deriving DecidableEq

/-- Why the syncer is woken. -/
inductive NudgeReason where
  | localEdit
  | notification
  | continuation
  deriving DecidableEq, Repr

def NudgeReason.name : NudgeReason → String
  | .localEdit => "Local"
  | .notification => "Notification"
  | .continuation => "Continuation"

/-- What an observer is told. -/
inductive Callback where
  /-- The syncer changed entries; the observer may look at the directory as it now is. -/
  | changesApplied (contents : Contents) (changes : List Change)
  /-- The share can be used. -/
  | initializationComplete
  /-- There is a problem with signing in, or there no longer is one. -/
  | authProblem (error : AuthProblem)
  /-- Nothing is left to sync. -/
  | syncCycleCompleted

/-- One thing done to the outside. -/
inductive Effect where
  | signInRequested (request : SignInRequest)
  | authShutDown
  | nudged (delay : Nat) (source : NudgeReason)
  /-- The syncer was told to stop, and did so in time or did not. -/
  | syncerStopped (timeout : Nat) (inTime : Bool)
  /-- A notification was sent to the peers, and was delivered or was not. -/
  | peersNotified (delivered : Bool)
  | notifierLoggedOut
  | connectionChecked
  | lastUserLookedUp (serviceId : String)
  | toldObserver (observer : String) (callback : Callback)

namespace Effect

/-- The requests to the auth watcher, in order. -/
def signInRequests (effects : List Effect) : List SignInRequest :=
  effects.filterMap fun | .signInRequested request => some request | _ => none

def hasAuthShutDown (effects : List Effect) : Bool :=
  effects.any fun | .authShutDown => true | _ => false

/-- The delays of the nudges, in order. -/
def nudges (effects : List Effect) : List Nat :=
  effects.filterMap fun | .nudged delay _ => some delay | _ => none

/-- The timeouts given to the syncer, in order. -/
def stops (effects : List Effect) : List Nat :=
  effects.filterMap fun | .syncerStopped timeout _ => some timeout | _ => none

/-- The outcomes of the attempts to notify the peers, in order. -/
def deliveries (effects : List Effect) : List Bool :=
  effects.filterMap fun | .peersNotified delivered => some delivered | _ => none

def hasLoggedOut (effects : List Effect) : Bool :=
  effects.any fun | .notifierLoggedOut => true | _ => false

/-- How often the connection was checked. -/
def connectionChecks (effects : List Effect) : Nat :=
  effects.countP fun | .connectionChecked => true | _ => false

/-- What observers were told, in order. -/
def callbacks (effects : List Effect) : List Callback :=
  effects.filterMap fun | .toldObserver _ callback => some callback | _ => none

/-- The lists of changes that were delivered, in order. -/
def changeLists (effects : List Effect) : List (List Change) :=
  (callbacks effects).filterMap fun | .changesApplied _ changes => some changes | _ => none

/-- What was told about authentication, in order. -/
def authProblems (effects : List Effect) : List AuthProblem :=
  (callbacks effects).filterMap fun | .authProblem error => some error | _ => none

/-- How often the share was reported usable. -/
def initializations (effects : List Effect) : Nat :=
  (callbacks effects).countP fun | .initializationComplete => true | _ => false

/-- How often a cycle was reported complete. -/
def completedCycles (effects : List Effect) : Nat :=
  (callbacks effects).countP fun | .syncCycleCompleted => true | _ => false

end Effect

end SharedTree
