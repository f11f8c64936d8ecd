import SharedTree.Session

/-!
What the syncer reports, and what the session takes from it.
-/

namespace SharedTree

/-- A report of the syncer. -/
inductive SyncerReport where
  /-- A sync cycle has ended. -/
  | cycleEnded (hasMore : Bool) (commits : Nat) (isUsable : Bool)
  /-- Something changed during a cycle. -/
  | statusChanged (isUsable : Bool)
  deriving DecidableEq, Repr

/-- The session's view of a report. -/
def SyncerReport.account : SyncerReport → SyncerAccount
  | .cycleEnded hasMore commits isUsable =>
    { isUsable, cycleEnded := true, hasMore, commits }
  | .statusChanged isUsable => { isUsable }

end SharedTree
