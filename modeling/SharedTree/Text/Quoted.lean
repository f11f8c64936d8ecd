import SharedTree.Text.Printable

/-!
Texts in double quotes, as messages and descriptions show them. A quote and a backslash get a
backslash in front; the null character, the tabulator and the two line ends have letters of their
own; any other character that is not shown as itself is written as its code point in braces.
-/

namespace SharedTree.Quoted

/-- A code point in braces. -/
def codePoint (c : Char) : List Char :=
  ['\\', 'u', '\x7b'] ++ Nat.toDigits 16 c.toNat ++ ['\x7d']

/-- How one character is written. -/
def escape (c : Char) : List Char :=
  match c with
  | '\x00' => ['\\', '0']
  | '\t' => ['\\', 't']
  | '\n' => ['\\', 'n']
  | '\r' => ['\\', 'r']
  | '"' => ['\\', '"']
  | '\\' => ['\\', '\\']
  | c => if Printable.isShown c then [c] else codePoint c

/-- A text in double quotes. -/
def quote (text : String) : String :=
  String.ofList ('"' :: text.toList.flatMap escape ++ ['"'])

/-- A text that may be missing. -/
def quoteOption : Option String → String
  | none => "None"
  | some text => "Some(" ++ quote text ++ ")"

end SharedTree.Quoted
