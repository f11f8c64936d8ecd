import SharedTree.Node.View
import SharedTree.Transaction

/-!
Changes made through nodes. A change that would leave the stored value as it is does nothing at all:
it neither marks the entry as unsynced nor counts as a touch. A structural change is refused, and
nothing happens, where the parent is not there, where the predecessor does not lie in it, or where a
folder would come to lie in itself.
-/

namespace SharedTree

/-- Why a structural change is refused. -/
inductive EditRefusal where
  /-- The node, or its new parent, is unknown or was removed. -/
  | notFound (handle : Handle)
  /-- The predecessor is no live child of the parent, or is the node that is to be placed. -/
  | predecessorNotChild (predecessor parent : Handle)
  /-- The new parent is the node itself, or lies below it. -/
  | wouldCreateCycle (node parent : Handle)
  /-- The directory did not take the new entry. -/
  | creationFailed (parent : Handle)
  deriving DecidableEq

def EditRefusal.name : EditRefusal → String
  | .notFound _ => "NotFound"
  | .predecessorNotChild _ _ => "PredecessorNotChild"
  | .wouldCreateCycle _ _ => "WouldCreateCycle"
  | .creationFailed _ => "CreationFailed"

/-- The text that reports a refusal. -/
def EditRefusal.message : EditRefusal → String
  | .notFound h => "entry " ++ h.text ++ " not found or deleted"
  | .predecessorNotChild predecessor parent =>
    "predecessor " ++ predecessor.text ++ " is not a child of " ++ parent.text
  | .wouldCreateCycle node parent =>
    "moving " ++ node.text ++ " under " ++ parent.text ++ " would create a cycle"
  | .creationFailed parent => "could not create entry under " ++ parent.text

namespace Contents

/-- The entry with a handle, if it is live. -/
def live (c : Contents) (h : Handle) : Except EditRefusal Entry :=
  match c.byHandle h with
  | some e => if e.isDeleted then .error (.notFound h) else .ok e
  | none => .error (.notFound h)

/-- Whether an entry is there, live, and lies in the folder with this id. -/
def isLiveChild (c : Contents) (h : Handle) (parentId : EntryId) : Bool :=
  match c.byHandle h with
  | some e => !e.isDeleted && !e.isRoot && e.parentId = parentId
  | none => false

/-- A predecessor, if one is given, has to be a live child of the parent, and not the node that is
to be placed. -/
def checkFollows (c : Contents) (parent : Entry) (predecessor placing : Option Handle) :
    Except EditRefusal Unit :=
  match predecessor with
  | none => .ok ()
  | some p =>
    if c.isLiveChild p parent.id && some p ≠ placing then .ok ()
    else .error (.predecessorNotChild p parent.handle)

end Contents

namespace Transaction

/-- Creates a folder with the id `fresh` under `parent`, right after `predecessor` or before all
others. The new entry is unsynced. -/
def createNode (t : Transaction) (fresh : EntryId) (parent : Handle)
    (predecessor : Option Handle) : Except EditRefusal EditableNode × Transaction :=
  let c := t.contents
  match c.live parent with
  | .error refusal => (.error refusal, t)
  | .ok parentEntry =>
    match c.checkFollows parentEntry predecessor none with
    | .error refusal => (.error refusal, t)
    | .ok () =>
      let ordinal := c.ordinalFollowing parentEntry.id predecessor none
      match t.insertFresh fresh parentEntry.id ordinal with
      | (none, t) => (.error (.creationFailed parent), t)
      | (some h, t) => (.ok ⟨h⟩, (t.modify h fun e => { e with isUnsynced := true }).2)

/-- Writes to an entry and marks it unsynced, unless the stored value is already as wanted. -/
def store (t : Transaction) (node : EditableNode) (unchanged : Entry → Bool)
    (change : Entry → Entry) : Transaction :=
  if t.contents.readD node.handle unchanged true then t
  else (t.modify node.handle fun e => { change e with isUnsynced := true }).2

/-- Writes to an entry without marking it, unless the stored value is already as wanted. -/
def storeLocally (t : Transaction) (node : EditableNode) (unchanged : Entry → Bool)
    (change : Entry → Entry) : Transaction :=
  if t.contents.readD node.handle unchanged true then t else (t.modify node.handle change).2

def setTitle (t : Transaction) (node : EditableNode) (title : String) : Transaction :=
  let name := TransportName.ofTitle title
  t.store node (·.transportName = name) fun e => { e with transportName := name }

def setUrl (t : Transaction) (node : EditableNode) (url : String) : Transaction :=
  t.store node (·.url = url) fun e => { e with url }

def setIsFolder (t : Transaction) (node : EditableNode) (isFolder : Bool) : Transaction :=
  t.store node (·.isFolder = isFolder) fun e => { e with isFolder }

def setFavicon (t : Transaction) (node : EditableNode) (favicon : List UInt8) : Transaction :=
  t.store node (·.favicon = favicon) fun e => { e with favicon }

/-- The embedder's own number is of no concern to the server. -/
def setExternalId (t : Transaction) (node : EditableNode) (externalId : Int) : Transaction :=
  t.storeLocally node (·.externalId = externalId) fun e => { e with externalId }

/-- Tags come from the server, so that setting one leaves nothing to be sent. -/
def setUniqueTag (t : Transaction) (node : EditableNode) (uniqueTag : Option String) :
    Transaction :=
  t.storeLocally node (·.uniqueTag = uniqueTag) fun e => { e with uniqueTag }

/-- Leaves a tombstone in place of the entry; what lies in it stays where it is. -/
def remove (t : Transaction) (node : EditableNode) : Transaction :=
  t.store node (·.isDeleted) fun e => { e with isDeleted := true }

/-- What a move would do: nothing, since the node is where it is wanted, or put it under another id
at another position. -/
inductive Placement where
  | stay
  | place (parentId : EntryId) (ordinal : Ordinal)

/-- Where a move would put a node, or why it is refused. -/
def placement (c : Contents) (node parent : Handle) (predecessor : Option Handle) :
    Except EditRefusal Placement := do
  let e ← c.live node
  let parentEntry ← c.live parent
  c.checkFollows parentEntry predecessor (some node)
  if e.parentId = parentEntry.id ∧ c.predecessor node = predecessor then return .stay
  if c.isAtOrAbove e.id parentEntry.id then throw (.wouldCreateCycle node parent)
  return .place parentEntry.id (c.ordinalFollowing parentEntry.id predecessor (some node))

/-- Moves a node under `parent`, right after `predecessor` or before all others. -/
def move (t : Transaction) (node : EditableNode) (parent : Handle)
    (predecessor : Option Handle) : Except EditRefusal Unit × Transaction :=
  match placement t.contents node.handle parent predecessor with
  | .error refusal => (.error refusal, t)
  | .ok .stay => (.ok (), t)
  | .ok (.place parentId ordinal) =>
    (.ok (), (t.modify node.handle fun e => { e with parentId, ordinal, isUnsynced := true }).2)

end Transaction

end SharedTree
