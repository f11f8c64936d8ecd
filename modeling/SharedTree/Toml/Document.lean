import SharedTree.Toml.Scalar
import SharedTree.Toml.Text
import SharedTree.Toml.Value

/-!
Settings documents: lines with a key and a value, under headers that name the table they belong to.
-/

namespace SharedTree.Toml

mutual

/-- Reads a value, with no more than `depth` others around what it holds. -/
def value? : (fuel depth : Nat) → List Char → Option (Value × List Char)
  | 0, _, _ => none
  | fuel + 1, depth, input =>
    match input with
    | '"' :: _ | '\'' :: _ => do
      let (chars, rest) ← text? input
      return (.text (String.ofList chars), rest)
    | '[' :: rest =>
      match depth with
      | 0 => none
      | depth + 1 => do
        let (items, rest) ← items? fuel depth rest
        return (.array items, rest)
    | '{' :: rest =>
      match depth with
      | 0 => none
      | depth + 1 =>
        match skipBlanks rest with
        | '}' :: rest => some (.table [], rest)
        | _ => do
          let (table, rest) ← pairs? fuel depth .empty rest
          return (.table (Item.toEntries table.entries), rest)
    | input => scalar? input

/-- Reads the items of an array up to its end; after the last one there may be a comma. -/
def items? : (fuel depth : Nat) → List Char → Option (List Value × List Char)
  | 0, _, _ => none
  | fuel + 1, depth, input => do
    match ← skipBetween input with
    | ']' :: rest => return ([], rest)
    | input =>
      let (item, rest) ← value? fuel depth input
      match ← skipBetween rest with
      | ',' :: rest =>
        let (items, rest) ← items? fuel depth rest
        return (item :: items, rest)
      | ']' :: rest => return ([item], rest)
      | _ => none

/-- Reads the pairs of a table in braces up to its end; there must be a pair after each comma. -/
def pairs? : (fuel depth : Nat) → Table → List Char → Option (Table × List Char)
  | 0, _, _, _ => none
  | fuel + 1, depth, table, input => do
    let ((path, key), rest) ← key? input
    let (value, rest) ← value? fuel depth (skipBlanks (← expect? '=' rest))
    let table ← table.insert path key value
    match skipBlanks rest with
    | ',' :: rest => pairs? fuel depth table rest
    | '}' :: rest => return (table, rest)
    | _ => none

end

/-- Enough fuel to read a value from these characters: each step is one value or one pair. -/
def valueFuel (input : List Char) : Nat := 2 * input.length + 2

/-- What a document has come to: its root, and the path of the table that lines now belong to. -/
structure Reading where
  root : Table := .empty
  path : List String := []

namespace Reading

/-- Puts a value into the table that lines now belong to. -/
def insert (reading : Reading) (path : List String) (key : String) (value : Value) :
    Option Reading := do
  let root ← reading.root.descend false (·.insert path key value) reading.path
  return { reading with root }

/-- Reads a line with a key and a value. -/
def pairLine? (reading : Reading) (input : List Char) : Option (Reading × List Char) := do
  let ((path, key), rest) ← key? input
  let rest := skipBlanks (← expect? '=' rest)
  let (value, rest) ← value? (valueFuel rest) (nestingLimit - 1) rest
  let rest ← endOfLine? rest
  return (← reading.insert path key value, rest)

/-- Reads a line with a header. -/
def headerLine? (reading : Reading) (input : List Char) : Option (Reading × List Char) :=
  match input with
  | '[' :: '[' :: rest => do
    let ((path, key), rest) ← key? rest
    let rest ← endOfLine? (← expect? ']' (← expect? ']' rest))
    return ({ root := ← reading.root.openElement path key, path := path ++ [key] }, rest)
  | '[' :: rest => do
    let ((path, key), rest) ← key? rest
    let rest ← endOfLine? (← expect? ']' rest)
    return ({ root := ← reading.root.openTable path key, path := path ++ [key] }, rest)
  | _ => none

/-- Reads line after line, at most `fuel` of them. -/
def lines? : (fuel : Nat) → Reading → List Char → Option Reading
  | 0, _, _ => none
  | fuel + 1, reading, input =>
    match skipBlanks input with
    | [] => some reading
    | '#' :: rest => do lines? fuel reading (← endOfLine? ('#' :: rest))
    | '\n' :: rest => lines? fuel reading rest
    | '\r' :: rest => do lines? fuel reading (← lineEnd? ('\r' :: rest))
    | '[' :: rest => do
      let (reading, rest) ← headerLine? reading ('[' :: rest)
      lines? fuel reading rest
    | input => do
      let (reading, rest) ← pairLine? reading input
      lines? fuel reading rest

end Reading

/-- A document without the mark of its byte order. -/
def withoutMark : List Char → List Char
  | '\ufeff' :: rest => rest
  | input => input

/-- The entries of a document, if the text is one. -/
def parse? (text : String) : Option (List (String × Value)) := do
  let input := withoutMark text.toList
  let reading ← Reading.lines? (input.length + 1) {} input
  return Item.toEntries reading.root.entries

end SharedTree.Toml
