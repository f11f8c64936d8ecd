import SharedTree.Text.Quoted
import SharedTree.Transaction

/-!
Directories: the contents of one user's share under its name, and whether somebody listens for
changes. All the directories that were ever opened are kept, so that one that was closed can still
be used by whoever holds it; only the open ones are found by name.
-/

namespace SharedTree

/-- One user's tree of entries. -/
structure Directory where
  name : String
  contents : Contents := .initial
  /-- A listener is told when write transactions close. -/
  hasListener : Bool := false

namespace Directory

/-- A directory as descriptions show it. -/
def describe (d : Directory) : String :=
  "Directory \x7b name: " ++ Quoted.quote d.name ++ ", .. \x7d"

def firstSyncDone (d : Directory) : Bool := d.contents.firstSyncDone

/-- The first download from the server has ended. -/
def markFirstSyncDone (d : Directory) : Directory :=
  { d with contents := { d.contents with firstSyncDone := true } }

/-- Opens a write transaction. -/
def write (d : Directory) (writer : Writer) : Transaction :=
  { writer, contents := d.contents }

end Directory

/-- The place of a directory among all that were ever opened. -/
structure DirectoryId where
  index : Nat
  deriving DecidableEq

/-- The directories of a client. -/
structure Registry where
  location : String
  directories : List Directory := []
  opened : Std.ExtTreeMap String DirectoryId := ∅

namespace Registry

/-- The directory with this id, open or closed. -/
def directory? (r : Registry) (id : DirectoryId) : Option Directory := r.directories[id.index]?

/-- Changes a directory. -/
def modify (r : Registry) (id : DirectoryId) (change : Directory → Directory) : Registry :=
  { r with directories := r.directories.modify id.index change }

/-- The directory open under a name. -/
def get? (r : Registry) (name : String) : Option DirectoryId := r.opened[name]?

def isOpen (r : Registry) (name : String) : Bool := r.opened.contains name

/-- Opens the directory under a name, unless it is open already. -/
def openAs (r : Registry) (name : String) : DirectoryId × Registry :=
  match r.get? name with
  | some id => (id, r)
  | none =>
    let id : DirectoryId := ⟨r.directories.length⟩
    (id, { r with
      directories := r.directories ++ [{ name }]
      opened := r.opened.insert name id })

/-- Closes the directory under a name; tells whether one was open. -/
def close (r : Registry) (name : String) : Bool × Registry :=
  (r.isOpen name, { r with opened := r.opened.erase name })

/-- Closes every directory. -/
def closeAll (r : Registry) : Registry := { r with opened := ∅ }

end Registry

end SharedTree
