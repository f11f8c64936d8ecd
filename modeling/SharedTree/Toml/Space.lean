/-!
What stands between the values of a settings document: blanks, comments and line ends. Every reader
takes the characters that are left and gives back those that are left after it.
-/

namespace SharedTree.Toml

/-- A blank within a line. -/
def isBlank (c : Char) : Bool := c = ' ' || c = '\t'

/-- A character that may stand in a comment: no control character but the tabulator. -/
def isCommentChar (c : Char) : Bool :=
  c = '\t' || (' ' ≤ c && c ≤ '~') || '\x80' ≤ c

/-- Passes over blanks. -/
def skipBlanks (input : List Char) : List Char := input.dropWhile isBlank

/-- Passes over one line end. -/
def lineEnd? : List Char → Option (List Char)
  | '\n' :: rest => some rest
  | '\r' :: '\n' :: rest => some rest
  | _ => none

/-- Passes over a comment, if one begins here; its line end is left. -/
def skipComment : List Char → List Char
  | '#' :: rest => rest.dropWhile isCommentChar
  | input => input

/-- Passes over the rest of a line, in which nothing but a comment may stand. -/
def endOfLine? (input : List Char) : Option (List Char) :=
  match skipComment (skipBlanks input) with
  | [] => some []
  | rest => lineEnd? rest

/-- Passes over blanks, comments and line ends, of at most `fuel` lines. -/
def skipLines : (fuel : Nat) → List Char → Option (List Char)
  | 0, _ => none
  | fuel + 1, input =>
    match skipBlanks input with
    | '#' :: rest => do skipLines fuel (← lineEnd? (rest.dropWhile isCommentChar))
    | '\n' :: rest => skipLines fuel rest
    | '\r' :: rest => do skipLines fuel (← lineEnd? ('\r' :: rest))
    | rest => some rest

/-- Passes over whatever may stand between the items of an array. -/
def skipBetween (input : List Char) : Option (List Char) := skipLines (input.length + 1) input

/-- Passes over one given character. -/
def expect? (c : Char) : List Char → Option (List Char)
  | d :: rest => if d = c then some rest else none
  | [] => none

end SharedTree.Toml
