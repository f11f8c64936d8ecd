import SharedTree.Observations
import SharedTree.Transaction

/-!
What a finished transaction means for the outside. A transaction of the syncer is compared entry by
entry with what was there before, and the differences an observer can see are told in tree order. A
transaction of the embedder is not told to anyone; it matters only whether it left something for the
server.
-/

namespace SharedTree

namespace Observations

/-- Notes the difference between two states of an entry. The root, and entries that are hidden in
the later state, are of no concern. -/
def observe (observations : Observations) (before after : Entry) : Observations :=
  if after.isRoot || !after.isShown then observations
  else
    match before.isDeleted, after.isDeleted with
    | true, false => observations.noteAdded after.handle
    | false, true => observations.noteDeleted after.handle
    | false, false =>
      if before.visiblyDiffers after then
        observations.noteUpdated after.handle (before.placeDiffers after)
      else observations
    | true, true => observations

/-- Notes every difference that a transaction made. -/
def observeAll (observations : Observations) (t : ClosedTransaction) : Observations :=
  t.touched.foldl
    (fun noted (_, before, after?) => after?.elim noted (noted.observe before)) observations

/-- The changes that a transaction made, in tree order, with no observation left. What an earlier
transaction left behind is dropped first. -/
def drain (observations : Observations) (t : ClosedTransaction) : List Change × Observations :=
  let noted := observations.dropStale.2.observeAll t
  (noted.inTreeOrder t.contents.shape, noted.clear)

end Observations

/-- Whether a transaction left something that the server has to hear of: an entry that is to be
synced, other than one that came and went in the same transaction. -/
def ClosedTransaction.needsSync (t : ClosedTransaction) : Bool :=
  t.touched.any fun (_, before, after?) =>
    after?.any fun after =>
      !after.isRoot && after.isShown && after.isUnsynced && (!after.isDeleted || !before.isDeleted)

end SharedTree
