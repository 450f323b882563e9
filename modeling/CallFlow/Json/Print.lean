import CallFlow.Json.Tree

/-!
# Printing trees

A tree is written without blanks. Of the characters of a text only the quote, the backslash and the
controls are escaped, those with a letter of their own by that letter.
-/

namespace CallFlow.Json

/-- Four hexadecimal digits. -/
def hexDigits (n : Nat) : List Char :=
  [n / 4096 % 16, n / 256 % 16, n / 16 % 16, n % 16].map Nat.digitChar

namespace Piece

/-- A character inside a text. -/
def printChar (c : Char) : List Char :=
  if c = '"' then ['\\', '"']
  else if c = '\\' then ['\\', '\\']
  else if c = '\x08' then ['\\', 'b']
  else if c = '\x0c' then ['\\', 'f']
  else if c = '\n' then ['\\', 'n']
  else if c = '\r' then ['\\', 'r']
  else if c = '\t' then ['\\', 't']
  else if c.toNat < 0x20 then '\\' :: 'u' :: hexDigits c.toNat
  else [c]

/-- A piece inside a text. -/
def print : Piece → List Char
  | .char c => printChar c
  | .lead n => '\\' :: 'u' :: hexDigits (0xd800 + n)
  | .trail n => '\\' :: 'u' :: hexDigits (0xdc00 + n)

/-- A text between its quotes. -/
def printAll (ps : List Piece) : List Char :=
  '"' :: ps.flatMap print ++ ['"']

end Piece

namespace Number

/-- A number. One that is no integer is written as some number of its sort. -/
def print : Number → List Char
  | .integer n => n.repr.toList
  | .float => ['0', '.', '0']
  | .huge => ['1', 'e', '9', '9', '9']

end Number

namespace Tree

/-- The tree of a text. -/
def ofString (s : String) : Tree :=
  .text (Piece.ofString s)

/-- The tree of an integer. -/
def ofInt (n : Int) : Tree :=
  .number (.integer n)

/-- The tree of a value that may be absent. -/
def ofOption {α : Type} (tree : α → Tree) : Option α → Tree
  | some a => tree a
  | none => .null

/-- The tree of a list. -/
def ofList {α : Type} (tree : α → Tree) (as : List α) : Tree :=
  .array (as.map tree) none

/-- The tree of a record, its fields in order. -/
def ofFields (fields : List (String × Tree)) : Tree :=
  .object (fields.map fun f => (Piece.ofString f.1, f.2)) none

mutual

/-- The characters of a tree. A break has none. -/
def print : Tree → List Char
  | .null => ['n', 'u', 'l', 'l']
  | .bool true => ['t', 'r', 'u', 'e']
  | .bool false => ['f', 'a', 'l', 's', 'e']
  | .number n => n.print
  | .text ps => Piece.printAll ps
  | .array items _ => '[' :: printItems items ++ [']']
  | .object members _ => '\x7b' :: printMembers members ++ ['\x7d']
  | .broken _ => []

/-- The values of an array, divided by commas. -/
def printItems : List Tree → List Char
  | [] => []
  | [t] => t.print
  | t :: ts => t.print ++ ',' :: printItems ts

/-- The members of an object, divided by commas. -/
def printMembers : List (List Piece × Tree) → List Char
  | [] => []
  | [(k, t)] => Piece.printAll k ++ ':' :: t.print
  | (k, t) :: ms => Piece.printAll k ++ ':' :: t.print ++ ',' :: printMembers ms

end

/-- The text of a tree. -/
def toText (t : Tree) : String :=
  String.ofList t.print

end Tree

end CallFlow.Json
