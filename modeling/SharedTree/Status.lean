/-!
The state of the whole client at a glance: what the syncer, the connection and the notifier say of
themselves, and one word that sums it up.
-/

namespace SharedTree

/-- What the syncer says of itself. -/
structure SyncerState where
  syncing : Bool := false
  unsyncedCount : Nat := 0
  conflictingCount : Nat := 0
  firstSyncDone : Bool := false
  syncerStuck : Bool := false
  updatesAvailable : Nat := 0
  updatesReceived : Nat := 0
  diskFull : Bool := false
  consecutiveErrors : Nat := 0
  deriving DecidableEq, Repr

/-- What is known of the server from the last probe. -/
structure ServerState where
  isReachable : Bool := false
  isUp : Bool := false
  isBroken : Bool := false
  deriving DecidableEq, Repr

/-- A server in good order. -/
def ServerState.online : ServerState :=
  { isReachable := true, isUp := true }

/-- What the notifier says of itself. -/
structure NotifierState where
  isEnabled : Bool := false
  received : Nat := 0
  sent : Nat := 0
  deriving DecidableEq, Repr

/-- The client's state in one word. -/
inductive StatusWord where
  | offline
  /-- Offline, with changes the server does not know. -/
  | offlineUnsynced
  | syncing
  | ready
  | conflict
  /-- Offline, and the first download has not ended. -/
  | offlineUnusable
  deriving DecidableEq, Repr

def StatusWord.name : StatusWord → String
  | .offline => "Offline"
  | .offlineUnsynced => "OfflineUnsynced"
  | .syncing => "Syncing"
  | .ready => "Ready"
  | .conflict => "Conflict"
  | .offlineUnusable => "OfflineUnusable"

/-- The state of the whole client. -/
structure Status where
  syncer : SyncerState
  connection : ServerState
  notifier : NotifierState
  authenticated : Bool
  deriving DecidableEq, Repr

namespace Status

/-- The server can be used, and the user is signed in. -/
def isOnline (s : Status) : Bool :=
  s.connection.isReachable && s.connection.isUp && !s.connection.isBroken &&
    s.authenticated

/-- Conflicts come before work in progress; offline, a share that cannot be used yet comes before
changes waiting to be sent. -/
def summary (s : Status) : StatusWord :=
  if s.isOnline then
    if 0 < s.syncer.conflictingCount then .conflict
    else if s.syncer.syncing then .syncing
    else .ready
  else if !s.syncer.firstSyncDone then .offlineUnusable
  else if 0 < s.syncer.unsyncedCount then .offlineUnsynced
  else .offline

end Status

end SharedTree
