/-!
# Texts as octets

A character takes one to four octets. The first one says how many there are, and bounds the second
so that no character has two forms and none lies outside of the range of characters; all others
give six bits each. Octets that are no text still have a text to show: each run of them that could
not become a character, taken as long as it might have, is shown as `Octets.replacement`.
-/

namespace Tabletop

namespace Octets

/-- The character that is shown for octets that are no character. -/
def replacement : Char := '\uFFFD'

/-- A character of which some octets have been read, but not all. -/
structure Opening where
  /-- Its bits so far. -/
  bits : Nat
  /-- How many octets are missing behind the next one. -/
  behind : Nat
  /-- The least that the next octet can be. -/
  least : Nat
  /-- The most that the next octet can be. -/
  most : Nat
deriving DecidableEq, Repr

/-- The character that a first octet opens. -/
def Opening.ofFirst? (o : Nat) : Option Opening :=
  if o < 0xC2 then none
  else if o < 0xE0 then some ⟨o - 0xC0, 0, 0x80, 0xBF⟩
  else if o = 0xE0 then some ⟨0, 1, 0xA0, 0xBF⟩
  else if o = 0xED then some ⟨0xD, 1, 0x80, 0x9F⟩
  else if o < 0xF0 then some ⟨o - 0xE0, 1, 0x80, 0xBF⟩
  else if o = 0xF0 then some ⟨0, 2, 0x90, 0xBF⟩
  else if o < 0xF4 then some ⟨o - 0xF0, 2, 0x80, 0xBF⟩
  else if o = 0xF4 then some ⟨4, 2, 0x80, 0x8F⟩
  else none

/-- Reads an octet where a character starts: what is shown, and what is open after it. -/
def start (o : Nat) : List Char × Option Opening :=
  if o < 0x80 then ([Char.ofNat o], none)
  else match Opening.ofFirst? o with
    | some c => ([], some c)
    | none => ([replacement], none)

/-- Reads an octet of an open character, or gives that character up. -/
def Opening.next (c : Opening) (o : Nat) : List Char × Option Opening :=
  if c.least ≤ o ∧ o ≤ c.most then
    let bits := 64 * c.bits + (o - 0x80)
    match c.behind with
    | 0 => ([Char.ofNat bits], none)
    | n + 1 => ([], some ⟨bits, n, 0x80, 0xBF⟩)
  else
    let (shown, c) := start o
    (replacement :: shown, c)

/-- What is shown for octets behind an open character. -/
def shownFrom : Option Opening → List UInt8 → List Char
  | none, [] => []
  | some _, [] => [replacement]
  | c?, o :: os =>
    let (shown, c?) := match c? with
      | none => start o.toNat
      | some c => c.next o.toNat
    shown ++ shownFrom c? os

/-- The text that is shown for octets. -/
def text (os : List UInt8) : String := String.ofList (shownFrom none os)

end Octets

end Tabletop
