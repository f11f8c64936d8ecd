import SharedTree.Status
import SharedTree.Wire.Value

/-!
The state of a client and of its services as plain data. What the state of a service leaves out is
off, or zero.
-/

namespace SharedTree.Wire

def syncerState (v : Value) : SyncerState where
  syncing := v.flagAt "syncing"
  unsyncedCount := v.countAt "unsynced_count"
  conflictingCount := v.countAt "conflicting_count"
  firstSyncDone := v.flagAt "initial_sync_ended"
  syncerStuck := v.flagAt "syncer_stuck"
  updatesAvailable := v.countAt "updates_available"
  updatesReceived := v.countAt "updates_received"
  diskFull := v.flagAt "disk_full"
  consecutiveErrors := v.countAt "max_consecutive_errors"

def serverState (v : Value) : ServerState where
  isReachable := v.flagAt "server_reachable"
  isUp := v.flagAt "server_up"
  isBroken := v.flagAt "server_broken"

def notifierState (v : Value) : NotifierState where
  isEnabled := v.flagAt "notifications_enabled"
  received := v.countAt "notifications_received"
  sent := v.countAt "notifications_sent"

/-- The state of a client travels flat, its summary with it. -/
def ofStatus (s : Status) : Value :=
  .object [
    ("summary", .text s.summary.name),
    ("authenticated", .boolean s.authenticated),
    ("server_up", .boolean s.connection.isUp),
    ("server_reachable", .boolean s.connection.isReachable),
    ("server_broken", .boolean s.connection.isBroken),
    ("notifications_enabled", .boolean s.notifier.isEnabled),
    ("notifications_received", .integer s.notifier.received),
    ("notifications_sent", .integer s.notifier.sent),
    ("unsynced_count", .integer s.syncer.unsyncedCount),
    ("conflicting_count", .integer s.syncer.conflictingCount),
    ("syncing", .boolean s.syncer.syncing),
    ("initial_sync_ended", .boolean s.syncer.firstSyncDone),
    ("syncer_stuck", .boolean s.syncer.syncerStuck),
    ("updates_available", .integer s.syncer.updatesAvailable),
    ("updates_received", .integer s.syncer.updatesReceived),
    ("disk_full", .boolean s.syncer.diskFull),
    ("max_consecutive_errors", .integer s.syncer.consecutiveErrors)]

end SharedTree.Wire
