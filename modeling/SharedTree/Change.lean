import SharedTree.Identity

/-!
Who writes to a directory, and the records that tell an observer what a transaction did to the
entries it can see.
-/

namespace SharedTree

/-- On whose behalf a write transaction is open. -/
inductive Writer where
  /-- The embedder, editing on the user's behalf. -/
  | embedder
  /-- The syncer, applying what the server sent. -/
  | syncer
  /-- A test, writing as the syncer would. -/
  | unittest
  deriving DecidableEq, Repr

def Writer.name : Writer → String
  | .embedder => "SyncApi"
  | .syncer => "Syncer"
  | .unittest => "Unittest"

def Writer.all : List Writer := [.embedder, .syncer, .unittest]

/-- What became of an entry. -/
inductive ChangeKind where
  | add
  | update
  | delete
  deriving DecidableEq, Repr

def ChangeKind.name : ChangeKind → String
  | .add => "Add"
  | .update => "Update"
  | .delete => "Delete"

def ChangeKind.all : List ChangeKind := [.add, .update, .delete]

/-- One entry's part in a list of changes. -/
structure Change where
  id : Handle
  kind : ChangeKind
  /-- Whether the entry has another parent or another place among its siblings. -/
  positionChanged : Bool
  deriving DecidableEq

namespace Change

/-- An entry came into sight. -/
def added (id : Handle) : Change := ⟨id, .add, true⟩

/-- What can be seen of an entry changed. -/
def updated (id : Handle) (positionChanged : Bool) : Change := ⟨id, .update, positionChanged⟩

/-- An entry went out of sight. -/
def deleted (id : Handle) : Change := ⟨id, .delete, false⟩

/-- A record as descriptions show it. -/
def describe (record : Change) : String :=
  "ChangeRecord \x7b id: " ++ record.id.describe ++ ", action: " ++ record.kind.name ++
    ", position_changed: " ++ toString record.positionChanged ++ " \x7d"

end Change

end SharedTree
