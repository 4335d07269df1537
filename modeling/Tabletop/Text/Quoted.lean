import Tabletop.Text.Displayable

/-!
# Quoted text

A text as it is shown in a message: between double quotes, with the quote, the backslash, tabs,
line ends and the null character written as letters behind a backslash, and every other hidden
character by its code point in hexadecimal.
-/

namespace Tabletop

/-- One character inside quotes. -/
def quotedChar (c : Char) : List Char :=
  match c with
  | '"' => ['\\', '"']
  | '\\' => ['\\', '\\']
  | '\t' => ['\\', 't']
  | '\n' => ['\\', 'n']
  | '\r' => ['\\', 'r']
  | '\x00' => ['\\', '0']
  | c =>
    if isDisplayable c then [c]
    else ['\\', 'u', '\x7b'] ++ Nat.toDigits 16 c.toNat ++ ['\x7d']

/-- The text between quotes. -/
def quoted (s : String) : String :=
  String.ofList ('"' :: s.toList.flatMap quotedChar ++ ['"'])

end Tabletop
