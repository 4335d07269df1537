import Tabletop.Json.Basic

/-!
# Printing JSON

Two layouts of a tree: on one line without blanks, and over several lines with two blanks for each
level. Both escape in strings only what has to be escaped.
-/

namespace Tabletop

namespace Json

/-- One character inside a string. -/
def escapedChar (c : Char) : List Char :=
  match c with
  | '"' => ['\\', '"']
  | '\\' => ['\\', '\\']
  | '\x08' => ['\\', 'b']
  | '\x0c' => ['\\', 'f']
  | '\n' => ['\\', 'n']
  | '\r' => ['\\', 'r']
  | '\t' => ['\\', 't']
  | c =>
    if c.toNat < 0x20 then
      ['\\', 'u', '0', '0', Nat.digitChar (c.toNat / 16), Nat.digitChar (c.toNat % 16)]
    else [c]

/-- A string between quotes. -/
def printString (s : String) : List Char := '"' :: s.toList.flatMap escapedChar ++ ['"']

/-- A value that holds no others. -/
def printAtom : Json → List Char
  | boolean true => "true".toList
  | boolean false => "false".toList
  | integer i => (Numeral.ofInt i).text
  | real n => n.text
  | string s => printString s
  | _ => "null".toList

/-! ## On one line -/

mutual

/-- The compact form of a value. -/
def printCompact : Json → List Char
  | array items => '[' :: printCompactItems items ++ [']']
  | object members => '\x7b' :: printCompactMembers members ++ ['\x7d']
  | atom => atom.printAtom

/-- Values with commas between them. -/
def printCompactItems : List Json → List Char
  | [] => []
  | [j] => j.printCompact
  | j :: js => j.printCompact ++ ',' :: printCompactItems js

/-- Members with commas between them. -/
def printCompactMembers : List (String × Json) → List Char
  | [] => []
  | [(key, j)] => printString key ++ ':' :: j.printCompact
  | (key, j) :: ms => printString key ++ ':' :: j.printCompact ++ ',' :: printCompactMembers ms

end

/-- The text on one line. -/
def compact (j : Json) : String := String.ofList j.printCompact

/-! ## Over several lines -/

/-- A new line at a level. -/
def lineBreak (level : Nat) : List Char := '\n' :: List.replicate (2 * level) ' '

mutual

/-- The layout of a value that begins at a level. -/
def printPretty (level : Nat) : Json → List Char
  | array [] => ['[', ']']
  | array items => '[' :: printPrettyItems (level + 1) items ++ lineBreak level ++ [']']
  | object [] => ['\x7b', '\x7d']
  | object members =>
    '\x7b' :: printPrettyMembers (level + 1) members ++ lineBreak level ++ ['\x7d']
  | atom => atom.printAtom

/-- Values, each on a new line of the level. -/
def printPrettyItems (level : Nat) : List Json → List Char
  | [] => []
  | [j] => lineBreak level ++ j.printPretty level
  | j :: js => lineBreak level ++ j.printPretty level ++ ',' :: printPrettyItems level js

/-- Members, each on a new line of the level. -/
def printPrettyMembers (level : Nat) : List (String × Json) → List Char
  | [] => []
  | [(key, j)] => lineBreak level ++ printString key ++ ':' :: ' ' :: j.printPretty level
  | (key, j) :: ms =>
    lineBreak level ++ printString key ++ ':' :: ' ' :: j.printPretty level ++
      ',' :: printPrettyMembers level ms

end

/-- The text over several lines. -/
def pretty (j : Json) : String := String.ofList (j.printPretty 0)

end Json

end Tabletop
