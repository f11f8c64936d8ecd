/-!
The names that entries carry to the server. The server keeps three names to itself, the empty one,
the dot and the double dot. A title that is one of them, or one of them followed by spaces, travels
with one space more, and loses it again on the way back.
-/

namespace SharedTree.TransportName

/-- The names that the server refuses to store. -/
def reserved : List (List Char) := [[], ['.'], ['.', '.']]

/-- A text without the spaces at its end. -/
def withoutTrailingSpaces (chars : List Char) : List Char :=
  (chars.reverse.dropWhile (· = ' ')).reverse

/-- Whether a text is a reserved name once the spaces at its end are dropped. -/
def isReserved (name : String) : Bool :=
  reserved.contains (withoutTrailingSpaces name.toList)

/-- The name under which a title is stored. -/
def ofTitle (title : String) : String :=
  if isReserved title then title.push ' ' else title

/-- The title that a stored name stands for. -/
def toTitle (name : String) : String :=
  if isReserved name && name.toList.getLast? == some ' ' then String.ofList name.toList.dropLast
  else name

/-- The stored name of an entry that has not been given a title yet. -/
def untitled : String := " "

end SharedTree.TransportName
