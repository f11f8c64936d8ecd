import SharedTree.Text.Hex
import SharedTree.Toml.Space

/-!
Texts and keys of the settings format. A text in double quotes may hold escapes, one in single
quotes stands for itself; with three quotes on either side a text may go over several lines. Before
the closing three quotes there may be one or two more, which belong to the text.
-/

namespace SharedTree.Toml

/-- A character that stands for itself in double quotes. -/
def isBasicChar (c : Char) : Bool := isCommentChar c && c ≠ '"' && c ≠ '\\'

/-- A character that stands for itself in single quotes. -/
def isLiteralChar (c : Char) : Bool := isCommentChar c && c ≠ '\''

/-- The character with this code point, unless it is no character. -/
def charOfCode? (code : Nat) : Option Char :=
  if code.isValidChar then some (Char.ofNat code) else none

/-- The number that hexadecimal digits write. -/
def codeOf? (digits : List Char) : Option Nat :=
  digits.foldlM (fun code c => (Hex.digitValue? c).map (code * 16 + ·)) 0

/-- The character that hexadecimal digits write the code point of. -/
def escaped? (digits : List Char) : Option Char := (codeOf? digits).bind charOfCode?

/-- The character that a letter after a backslash stands for. -/
def escapeLetter? : Char → Option Char
  | 'b' => some '\x08'
  | 'f' => some '\x0c'
  | 'n' => some '\n'
  | 'r' => some '\r'
  | 't' => some '\t'
  | '"' => some '"'
  | '\\' => some '\\'
  | _ => none

/-- Reads on after a backslash: an escape, with what is left after it. -/
def escape? : List Char → Option (Char × List Char)
  | 'u' :: a :: b :: c :: d :: rest => do return (← escaped? [a, b, c, d], rest)
  | 'U' :: a :: b :: c :: d :: e :: f :: g :: h :: rest => do
    return (← escaped? [a, b, c, d, e, f, g, h], rest)
  | c :: rest => do return (← escapeLetter? c, rest)
  | [] => none

/-- Reads a text in double quotes from its first character on. -/
def basic? : (fuel : Nat) → List Char → Option (List Char × List Char)
  | 0, _ => none
  | _, [] => none
  | fuel + 1, c :: rest =>
    if c = '"' then some ([], rest)
    else do
      let (first, rest) ←
        if c = '\\' then escape? rest else if isBasicChar c then some (c, rest) else none
      let (chars, rest) ← basic? fuel rest
      return (first :: chars, rest)

/-- Reads a text in single quotes from its first character on. -/
def literal? : List Char → Option (List Char × List Char)
  | [] => none
  | c :: rest =>
    if c = '\'' then some ([], rest)
    else if isLiteralChar c then (literal? rest).map fun (chars, rest) => (c :: chars, rest)
    else none

/-- Passes over blanks and line ends. -/
def skipBlankLines : List Char → List Char
  | '\r' :: '\n' :: rest => skipBlankLines rest
  | c :: rest => if isBlank c || c = '\n' then skipBlankLines rest else c :: rest
  | [] => []

/-- Passes over the line end after a backslash, and all blanks and line ends that follow. -/
def continuation? (input : List Char) : Option (List Char) :=
  (lineEnd? (skipBlanks input)).map skipBlankLines

/-- Three quotes close a text of several lines, with one or two more of its own before them. -/
def closing? (quote : Char) (input : List Char) : Option (List Char × List Char) :=
  let run := (input.takeWhile (· = quote)).length
  if run < 3 then none
  else
    let own := min (run - 3) 2
    some (List.replicate own quote, input.drop (own + 3))

/-- Reads a text of several lines in double quotes. -/
def basicLines? : (fuel : Nat) → List Char → Option (List Char × List Char)
  | 0, _ => none
  | fuel + 1, input =>
    match closing? '"' input with
    | some done => some done
    | none => do
      let continued :=
        match input with
        | '\\' :: rest => continuation? rest
        | _ => none
      match continued, lineEnd? input, input with
      | some rest, _, _ => basicLines? fuel rest
      | none, some rest, _ =>
        let (chars, rest) ← basicLines? fuel rest
        return ('\n' :: chars, rest)
      | none, none, c :: rest =>
        let (first, rest) ←
          if c = '\\' then escape? rest
          else if isBasicChar c || c = '"' then some (c, rest) else none
        let (chars, rest) ← basicLines? fuel rest
        return (first :: chars, rest)
      | none, none, [] => none

/-- Reads a text of several lines in single quotes. -/
def literalLines? : (fuel : Nat) → List Char → Option (List Char × List Char)
  | 0, _ => none
  | fuel + 1, input =>
    match closing? '\'' input with
    | some done => some done
    | none => do
      match lineEnd? input, input with
      | some rest, _ =>
        let (chars, rest) ← literalLines? fuel rest
        return ('\n' :: chars, rest)
      | none, c :: rest =>
        if isCommentChar c then
          let (chars, rest) ← literalLines? fuel rest
          return (c :: chars, rest)
        else none
      | none, [] => none

/-- Reads a text on one line, from its opening quote on. -/
def shortText? : List Char → Option (List Char × List Char)
  | '"' :: rest => basic? (rest.length + 1) rest
  | '\'' :: rest => literal? rest
  | _ => none

/-- Reads a text, from its opening quote on. A line end right after three opening quotes is passed
over. -/
def text? (input : List Char) : Option (List Char × List Char) :=
  match input with
  | '"' :: '"' :: '"' :: rest =>
    basicLines? (rest.length + 1) ((lineEnd? rest).getD rest)
  | '\'' :: '\'' :: '\'' :: rest =>
    literalLines? (rest.length + 1) ((lineEnd? rest).getD rest)
  | input => shortText? input

/-- A character of a key without quotes. -/
def isBareKeyChar (c : Char) : Bool := c.isAlphanum || c = '-' || c = '_'

/-- Reads one part of a key. -/
def simpleKey? (input : List Char) : Option (String × List Char) :=
  match shortText? input with
  | some (chars, rest) => some (String.ofList chars, rest)
  | none =>
    let bare := input.takeWhile isBareKeyChar
    if bare.isEmpty then none else some (String.ofList bare, input.dropWhile isBareKeyChar)

/-- The nesting from which on a document is refused, for keys as for values. -/
def nestingLimit : Nat := 80

/-- Reads the parts of a key, at most `fuel` of them. -/
def keyParts? : (fuel : Nat) → List Char → Option (List String × List Char)
  | 0, _ => none
  | fuel + 1, input => do
    let (part, rest) ← simpleKey? (skipBlanks input)
    match skipBlanks rest with
    | '.' :: rest =>
      let (parts, rest) ← keyParts? fuel rest
      return (part :: parts, rest)
    | rest => return ([part], rest)

/-- Reads a dotted key: the path to its table, and its last part. -/
def key? (input : List Char) : Option ((List String × String) × List Char) := do
  let (parts, rest) ← keyParts? (nestingLimit - 1) input
  let last ← parts.getLast?
  return ((parts.dropLast, last), rest)

end SharedTree.Toml
