import Tabletop.Json.Basic
import Tabletop.Number.Numeral

/-!
# Reading JSON

`Json.ofText?` reads a whole text as one JSON value between blanks, and answers nothing where the
text is not JSON. The readers for parts take what they need from the front of a list of characters
and hand on the rest. A value takes at least one character, so fuel of twice the length is always
enough for reading the value and the list around it.
-/

namespace Tabletop

namespace Json

/-- The blanks that may stand between tokens. -/
def isSpace (c : Char) : Bool := c = ' ' || c = '\n' || c = '\t' || c = '\r'

/-- Drops the blanks in front. -/
def skipSpace (cs : List Char) : List Char := cs.dropWhile isSpace

/-! ## Numbers -/

/-- A number written without point and exponent. -/
def ofDigits (negative : Bool) (ds : List Char) : Json :=
  match takeFitting 0 ds with
  | (n, []) =>
    if negative && n = 0 then real ⟨true, ds, [], 0⟩ else integer (if negative then -n else n)
  | _ => real ⟨negative, ds, [], 0⟩

/-- Takes an optional point with at least one digit after it. -/
def takeFraction? : List Char → Option (List Char × List Char)
  | '.' :: cs =>
    let (ds, rest) := Numeral.takeDigits cs
    if ds.isEmpty then none else some (ds, rest)
  | cs => some ([], cs)

/-- Takes a number without its sign. No zero may stand in front of another digit. -/
def takeMagnitude? (negative : Bool) (cs : List Char) : Option (Json × List Char) := do
  let (whole, cs) := Numeral.takeDigits cs
  if whole.isEmpty || (whole.head? == some '0' && whole.length != 1) then none
  else
    let (fraction, cs) ← takeFraction? cs
    let (exponent, rest) ← Numeral.takeExponent? cs
    if fraction.isEmpty && rest.length == cs.length then some (ofDigits negative whole, rest)
    else some (real ⟨negative, whole, fraction, exponent⟩, rest)

/-- Takes a number. -/
def takeNumber? : List Char → Option (Json × List Char)
  | '-' :: cs => takeMagnitude? true cs
  | cs => takeMagnitude? false cs

/-! ## Strings -/

/-- The code point that a letter behind a backslash stands for. -/
def escape? : Char → Option Nat
  | '"' => some 0x22
  | '\\' => some 0x5C
  | '/' => some 0x2F
  | 'b' => some 0x08
  | 'f' => some 0x0C
  | 'n' => some 0x0A
  | 'r' => some 0x0D
  | 't' => some 0x09
  | _ => none

/-- Takes a string behind its opening quote, as code points in which an escape may be one half of a
surrogate pair. Control characters have to be escaped. -/
def takeUnits? : List Char → Option (List Nat × List Char)
  | [] => none
  | '"' :: rest => some ([], rest)
  | '\\' :: 'u' :: a :: b :: c :: d :: cs => do
    let unit :=
      4096 * (← hexDigit? a) + 256 * (← hexDigit? b) + 16 * (← hexDigit? c) + (← hexDigit? d)
    let (units, rest) ← takeUnits? cs
    some (unit :: units, rest)
  | '\\' :: c :: cs => do
    let unit ← escape? c
    let (units, rest) ← takeUnits? cs
    some (unit :: units, rest)
  | c :: cs =>
    if c.toNat < 0x20 then none
    else do
      let (units, rest) ← takeUnits? cs
      some (c.toNat :: units, rest)

/-- Whether a code point is the first half of a surrogate pair. -/
def isHighSurrogate (u : Nat) : Bool := 0xD800 ≤ u && u < 0xDC00

/-- Whether a code point is the second half of a surrogate pair. -/
def isLowSurrogate (u : Nat) : Bool := 0xDC00 ≤ u && u < 0xE000

/-- The characters of a string, where each two halves of a pair make one. A half that stands alone
makes none. -/
def joinUnits? : List Nat → Option (List Char)
  | [] => some []
  | [u] => if isHighSurrogate u || isLowSurrogate u then none else some [Char.ofNat u]
  | u :: v :: us =>
    if isHighSurrogate u then
      if isLowSurrogate v then
        (joinUnits? us).map (Char.ofNat (0x10000 + 0x400 * (u - 0xD800) + (v - 0xDC00)) :: ·)
      else none
    else if isLowSurrogate u then none
    else (joinUnits? (v :: us)).map (Char.ofNat u :: ·)

/-- Takes a string behind its opening quote. The string is missing if it cannot be represented. -/
def takeString? (cs : List Char) : Option (Option String × List Char) := do
  let (units, rest) ← takeUnits? cs
  some ((joinUnits? units).map String.ofList, rest)

/-! ## Values -/

/-- A container at a depth, counted from one for the outermost. -/
def container (depth : Nat) (j : Json) : Json := if depth ≤ maxDepth then j else flawed

/-- An object of members of which every key has to be representable. -/
def ofMembers (members : List (Option String × Json)) : Json :=
  match members.mapM fun (key?, value) ↦ key?.map (·, value) with
  | some members => object members
  | none => flawed

mutual

/-- Takes a value inside containers of the given depth. -/
def takeValue? : Nat → Nat → List Char → Option (Json × List Char)
  | 0, _, _ => none
  | fuel + 1, depth, cs =>
    match skipSpace cs with
    | 'n' :: 'u' :: 'l' :: 'l' :: rest => some (null, rest)
    | 't' :: 'r' :: 'u' :: 'e' :: rest => some (boolean true, rest)
    | 'f' :: 'a' :: 'l' :: 's' :: 'e' :: rest => some (boolean false, rest)
    | '"' :: cs => do
      let (s?, rest) ← takeString? cs
      some ((s?.map string).getD flawed, rest)
    | '[' :: cs =>
      match skipSpace cs with
      | ']' :: rest => some (container (depth + 1) (array []), rest)
      | cs => do
        let (items, rest) ← takeItems? fuel (depth + 1) cs
        some (container (depth + 1) (array items), rest)
    | '\x7b' :: cs =>
      match skipSpace cs with
      | '\x7d' :: rest => some (container (depth + 1) (object []), rest)
      | cs => do
        let (members, rest) ← takeMembers? fuel (depth + 1) cs
        some (container (depth + 1) (ofMembers members), rest)
    | cs => takeNumber? cs

/-- Takes the items of an array and its closing bracket. -/
def takeItems? : Nat → Nat → List Char → Option (List Json × List Char)
  | 0, _, _ => none
  | fuel + 1, depth, cs => do
    let (item, cs) ← takeValue? fuel depth cs
    match skipSpace cs with
    | ',' :: cs => do
      let (items, rest) ← takeItems? fuel depth cs
      some (item :: items, rest)
    | ']' :: rest => some ([item], rest)
    | _ => none

/-- Takes the members of an object and its closing brace. -/
def takeMembers? : Nat → Nat → List Char → Option (List (Option String × Json) × List Char)
  | 0, _, _ => none
  | fuel + 1, depth, cs =>
    match skipSpace cs with
    | '"' :: cs => do
      let (key?, cs) ← takeString? cs
      match skipSpace cs with
      | ':' :: cs => do
        let (value, cs) ← takeValue? fuel depth cs
        match skipSpace cs with
        | ',' :: cs => do
          let (members, rest) ← takeMembers? fuel depth cs
          some ((key?, value) :: members, rest)
        | '\x7d' :: rest => some ([(key?, value)], rest)
        | _ => none
      | _ => none
    | _ => none

end

/-- Reads a whole text. -/
def ofText? (s : String) : Option Json := do
  let cs := s.toList
  let (j, rest) ← takeValue? (2 * cs.length + 1) 0 cs
  if (skipSpace rest).isEmpty then some j else none

end Json

end Tabletop
