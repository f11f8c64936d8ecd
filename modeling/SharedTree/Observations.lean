import SharedTree.Change
import SharedTree.TreeShape

/-!
The observations made while one transaction is compared with what was there before, at most one for
each entry, and the order in which they are told.

Deletions come first, entries that lie deeper before those above them. Additions and updates follow
in the order of the paths from the root, so that an entry comes after everything above it and
siblings come in their order. Paths are compared step by step, by position and then by handle; a
path comes before the paths that continue it.
-/

namespace SharedTree

/-- What is to be told about one entry. -/
inductive Observation where
  | add
  | delete
  | updateProperties
  | updatePosition
  deriving DecidableEq, Repr

/-- Observations by entry. -/
structure Observations where
  byEntry : Std.ExtTreeMap Handle Observation := ∅

namespace Observations

def empty : Observations := {}

/-- The entry came into being. -/
def noteAdded (observations : Observations) (id : Handle) : Observations :=
  ⟨observations.byEntry.insert id .add⟩

/-- The entry was removed. One that came into being in the same transaction was never seen, so that
nothing is left to tell. -/
def noteDeleted (observations : Observations) (id : Handle) : Observations :=
  if observations.byEntry[id]? = some .add then ⟨observations.byEntry.erase id⟩
  else ⟨observations.byEntry.insert id .delete⟩

/-- What an update makes of the observation already there. -/
def foldUpdate (pending : Option Observation) (positionChanged : Bool) : Observation :=
  match pending with
  | some .add => .add
  | some .delete => .delete
  | some .updatePosition => .updatePosition
  | some .updateProperties | none => if positionChanged then .updatePosition else .updateProperties

/-- What can be seen of the entry changed. -/
def noteUpdated (observations : Observations) (id : Handle) (positionChanged : Bool) :
    Observations :=
  ⟨observations.byEntry.insert id (foldUpdate observations.byEntry[id]? positionChanged)⟩

/-- The number of entries with something to tell. -/
def size (observations : Observations) : Nat := observations.byEntry.size

def isEmpty (observations : Observations) : Bool := observations.byEntry.isEmpty

/-- Nothing is left to tell. -/
def clear (_ : Observations) : Observations := empty

/-- Drops what an earlier transaction left behind; tells whether there was anything. -/
def dropStale (observations : Observations) : Bool × Observations :=
  if observations.isEmpty then (false, observations) else (true, observations.clear)

/-- The record of an observation. -/
def record (id : Handle) : Observation → Change
  | .add => .added id
  | .delete => .deleted id
  | .updateProperties => .updated id false
  | .updatePosition => .updated id true

/-- The order of steps: an absent position first, then by position, then by handle. -/
def compareSteps : TreeShape.Step → TreeShape.Step → Ordering
  | (a, h), (b, k) => (compare a b).then (compare h k)

/-- The order of paths. -/
def comparePaths : List TreeShape.Step → List TreeShape.Step → Ordering :=
  List.compareLex compareSteps

/-- The order of deletions: the longer path first, then the lesser handle. -/
def compareDepths (a b : Nat × Handle) : Ordering :=
  (compare b.1 a.1).then (compare a.2 b.2)

/-- Everything there is to tell, in the order in which it is told. -/
def inTreeOrder (observations : Observations) (tree : TreeShape) : List Change :=
  let pending := observations.byEntry.toList
  let deletes := (pending.filter (·.2 = .delete)).map fun p => ((tree.path p.1).length, p.1)
  let others := (pending.filter (·.2 ≠ .delete)).map fun p => (tree.path p.1, record p.1 p.2)
  (deletes.mergeSort fun a b => (compareDepths a b).isLE).map (fun d => Change.deleted d.2) ++
    (others.mergeSort fun a b => (comparePaths a.1 b.1).isLE).map (·.2)

end Observations

end SharedTree
