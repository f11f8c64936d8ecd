import SharedTree.Contents

/-!
Entries as callers see them. A node is bound to a live entry and from then on names it by its
handle, so that each look goes back to the directory; an entry removed meanwhile is still seen as it
was left. Stored names are turned back into titles.
-/

namespace SharedTree

/-- A node that can be looked at. -/
structure Node where
  handle : Handle
  deriving DecidableEq

/-- A node that can be changed; it is never the root. -/
structure EditableNode where
  handle : Handle
  deriving DecidableEq

namespace Contents

/-! ## Binding -/

/-- The handle of an entry that is there and live. -/
def liveHandle (found : Option Entry) : Option Handle :=
  match found with
  | some e => if e.isDeleted then none else some e.handle
  | none => none

/-- A node for the live entry with this handle. -/
def node? (c : Contents) (h : Handle) : Option Node := (liveHandle (c.byHandle h)).map .mk

/-- A node for the live entry with this tag; the empty tag names nothing. -/
def nodeByTag? (c : Contents) (tag : String) : Option Node :=
  if tag = "" then none else (liveHandle (c.byTag tag)).map .mk

/-- A node for the live entry with this id. -/
def nodeById? (c : Contents) (id : EntryId) : Option Node := (liveHandle (c.byId id)).map .mk

/-- A node for the root. -/
def rootNode (_ : Contents) : Node := ⟨rootHandle⟩

/-- The handle of an entry that is there, live and not the root. -/
def editableHandle (found : Option Entry) : Option Handle :=
  (liveHandle found).filter (· ≠ rootHandle)

/-- A node to change the live entry with this handle. -/
def editable? (c : Contents) (h : Handle) : Option EditableNode :=
  (editableHandle (c.byHandle h)).map .mk

/-- A node to change the live entry with this tag; the empty tag names nothing. -/
def editableByTag? (c : Contents) (tag : String) : Option EditableNode :=
  if tag = "" then none else (editableHandle (c.byTag tag)).map .mk

/-! ## Looking -/

/-- A value read off an entry, or what stands for it where there is no such entry. -/
def readD {α : Type} (c : Contents) (h : Handle) (read : Entry → α) (missing : α) : α :=
  (c.byHandle h).elim missing read

/-- The id that the server knows the node by, or may come to know it by. -/
def serverId (c : Contents) (h : Handle) : EntryId := c.readD h (·.id) .root

/-- The folder that the node lies in; none for the root. -/
def parentHandle (c : Contents) (h : Handle) : Option Handle := do
  let e ← c.byHandle h
  if e.isRoot then none else (c.byId e.parentId).map (·.handle)

def isFolder (c : Contents) (h : Handle) : Bool := c.readD h (·.isFolder) false

/-- The title as the user wrote it. -/
def title (c : Contents) (h : Handle) : String :=
  c.readD h (fun e => TransportName.toTitle e.transportName) ""

def url (c : Contents) (h : Handle) : String := c.readD h (·.url) ""

def favicon (c : Contents) (h : Handle) : List UInt8 := c.readD h (·.favicon) []

def externalId (c : Contents) (h : Handle) : Int := c.readD h (·.externalId) 0

/-- The live nodes in the folder, in order. -/
def childrenOf (c : Contents) (h : Handle) : List Handle :=
  c.readD h (fun e => c.childList e.id) []

def firstChildOf (c : Contents) (h : Handle) : Option Handle :=
  c.readD h (fun e => c.firstChild e.id) none

/-- Everything there is to see of a node. -/
structure NodeView where
  handle : Handle
  serverId : EntryId
  parent : Option Handle
  isFolder : Bool
  title : String
  url : String
  favicon : List UInt8
  externalId : Int
  children : List Handle
  firstChild : Option Handle
  predecessor : Option Handle
  successor : Option Handle

/-- A look at a node. -/
def view (c : Contents) (h : Handle) : NodeView where
  handle := h
  serverId := c.serverId h
  parent := c.parentHandle h
  isFolder := c.isFolder h
  title := c.title h
  url := c.url h
  favicon := c.favicon h
  externalId := c.externalId h
  children := c.childrenOf h
  firstChild := c.firstChildOf h
  predecessor := c.predecessor h
  successor := c.successor h

end Contents

end SharedTree
