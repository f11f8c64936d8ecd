import SharedTree.Identity
import SharedTree.Ordinal.Basic
import SharedTree.TransportName

/-!
Entries as a directory stores them. An entry that was removed stays behind as a tombstone, so that
its handle and its id keep naming it.
-/

namespace SharedTree

/-- One entry of a directory. -/
structure Entry where
  handle : Handle
  id : EntryId
  /-- The id of the folder it lies in; the root lies in itself. -/
  parentId : EntryId
  /-- The place among its siblings. -/
  ordinal : Ordinal
  isFolder : Bool := true
  /-- It was removed. -/
  isDeleted : Bool := false
  /-- It was changed here and the server does not know yet. -/
  isUnsynced : Bool := false
  /-- Observers are told about it. -/
  isShown : Bool := true
  /-- Its name as the server knows it. -/
  transportName : String := TransportName.untitled
  url : String := ""
  favicon : List UInt8 := []
  /-- A number of the embedder's own, never synced. -/
  externalId : Int := 0
  /-- The name of a well-known entry. -/
  uniqueTag : Option String := none
  deriving DecidableEq

namespace Entry

/-- The root of a directory. -/
def root (handle : Handle) : Entry :=
  { handle, id := .root, parentId := .root, ordinal := .initial, isShown := false,
    transportName := "" }

/-- An entry as it is created: a folder that can be seen, without a title of its own. -/
def create (handle : Handle) (id parentId : EntryId) (ordinal : Ordinal) : Entry :=
  { handle, id, parentId, ordinal }

def isRoot (e : Entry) : Bool := e.id.isRoot

/-- Whether two states of an entry lie in different places. -/
def placeDiffers (a b : Entry) : Bool :=
  a.parentId ≠ b.parentId || a.ordinal ≠ b.ordinal

/-- Whether an observer can tell two states of an entry apart. -/
def visiblyDiffers (a b : Entry) : Bool :=
  a.transportName ≠ b.transportName || a.isFolder ≠ b.isFolder || a.url ≠ b.url ||
    a.favicon ≠ b.favicon || a.placeDiffers b

end Entry

end SharedTree
