/-!
Paths under which no file is found, and why. The folder that a path starts from holds no file, and
neither does any folder above it, so that a path can lead to folders only.
-/

namespace SharedTree

/-- Why nothing can be read under a path. -/
inductive PathFault where
  | missing
  | isFolder
  | nameTooLong
  | holdsNul
  deriving DecidableEq, Repr

namespace PathFault

def message : PathFault → String
  | .missing => "No such file or directory (os error 2)"
  | .isFolder => "Is a directory (os error 21)"
  | .nameTooLong => "File name too long (os error 36)"
  | .holdsNul => "file name contained an unexpected NUL byte"

/-- The length in bytes that no path exceeds. -/
def pathLimit : Nat := 4095

/-- The length in bytes that no name in a path exceeds. -/
def nameLimit : Nat := 255

/-- Where the names of a path lead. Names of the folder itself and of the one above it lead to a
folder; the first other name leads nowhere. -/
def alongNames : List String → PathFault
  | [] => .isFolder
  | name :: rest =>
    if ["", ".", ".."].contains name then alongNames rest
    else if nameLimit < name.utf8ByteSize then .nameTooLong
    else .missing

/-- What is wrong with a path. A path is looked at as a whole before any name in it. -/
def ofPath (path : String) : PathFault :=
  if path.toList.contains '\x00' then .holdsNul
  else if path = "" then .missing
  else if pathLimit < path.utf8ByteSize then .nameTooLong
  else alongNames (path.splitOn "/")

end PathFault

end SharedTree
