import SharedTree.Change
import SharedTree.Contents

/-!
Write transactions. A transaction works on the contents of a directory and remembers, for each entry
that it touches, what the entry was before the first touch. An entry that the transaction itself
created is remembered as a tombstone, so that whoever compares sees it come into being.
-/

namespace SharedTree

/-- What a finished transaction did: the entries that it touched as they were, and the contents as
they are. -/
structure ClosedTransaction where
  writer : Writer
  preimages : Std.ExtTreeMap Handle Entry
  contents : Contents

namespace ClosedTransaction

/-- The touched entries in the order of their handles, before and after. -/
def touched (t : ClosedTransaction) : List (Handle × Entry × Option Entry) :=
  t.preimages.toList.map fun p => (p.1, p.2, t.contents.byHandle p.1)

end ClosedTransaction

/-- A write transaction that is open. -/
structure Transaction where
  writer : Writer
  contents : Contents
  preimages : Std.ExtTreeMap Handle Entry := ∅

namespace Transaction

/-- Creates an entry; refused where the id is taken. -/
def insertFresh (t : Transaction) (id parentId : EntryId) (ordinal : Ordinal) :
    Option Handle × Transaction :=
  match t.contents.insertFresh id parentId ordinal with
  | none => (none, t)
  | some (h, contents) =>
    let created := Entry.create h id parentId ordinal
    (some h, { t with
      contents
      preimages := t.preimages.insert h { created with isDeleted := true } })

/-- Changes an entry, remembering it first; refused where the handle is unknown. -/
def modify (t : Transaction) (h : Handle) (change : Entry → Entry) : Bool × Transaction :=
  match t.contents.byHandle h with
  | none => (false, t)
  | some before =>
    (true, { t with
      contents := t.contents.modify h change
      preimages := t.preimages.insertIfNew h before })

/-- The entries touched so far, in the order of their handles. -/
def touched (t : Transaction) : List Handle := t.preimages.keys

/-- What the transaction did so far. -/
def closed (t : Transaction) : ClosedTransaction :=
  { writer := t.writer, preimages := t.preimages, contents := t.contents }

end Transaction

end SharedTree
