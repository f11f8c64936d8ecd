/-!
The settings of a client, with the values they have where a file leaves them out.
-/

namespace SharedTree

/-- Where directories are stored. -/
structure DirectorySettings where
  location : String := "treesync-data"
  deriving DecidableEq, Repr

/-- The sync server. -/
structure ServerSettings where
  /-- Host and path. -/
  host : String := "clients4.google.com/chrome-sync"
  port : Nat := 443
  useSsl : Bool := true
  deriving DecidableEq, Repr

/-- Signing in. -/
structure AuthSettings where
  /-- The name under which credentials are stored. -/
  serviceId : String := "chromiumsync"
  /-- Whether to start with the token of the last user. -/
  resumesLastUser : Bool := true
  deriving DecidableEq, Repr

/-- The syncer. -/
structure SyncerSettings where
  /-- How long a nudged cycle waits, in milliseconds. -/
  nudgeDelay : Nat := 200
  /-- How long a shutdown waits for the syncer, in milliseconds. -/
  stopTimeout : Nat := 60000
  deriving DecidableEq, Repr

/-- All settings of a client. -/
structure Settings where
  directory : DirectorySettings := {}
  server : ServerSettings := {}
  auth : AuthSettings := {}
  syncer : SyncerSettings := {}
  deriving DecidableEq, Repr

/-- The whole seconds of a time in milliseconds, and the milliseconds left over. -/
def secondsAndMillis (milliseconds : Nat) : Nat × Nat :=
  (milliseconds / 1000, milliseconds % 1000)

end SharedTree
