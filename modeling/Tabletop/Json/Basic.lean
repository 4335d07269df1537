import Tabletop.Number.Scaled

/-!
# JSON trees

What a JSON text says. Objects keep their members in order, repeated keys included, and numbers are
kept as they are written, so that an integer literal is told apart from other numerals.

## Flaws

A text can be well-formed and still say something that cannot be represented: a numeral that is too
large, a string with half a surrogate pair, or a container nested deeper than `maxDepth`. What is
not kept of such a part is `flawed`. It does no harm where a reader skips it, and is an error where
a reader uses it.
-/

namespace Tabletop

/-- A JSON tree. -/
inductive Json where
  /-- The literal `null`. -/
  | null
  /-- A truth value. -/
  | boolean (b : Bool)
  /-- A number written without point and exponent, with digits that fit into sixty-four bits.
  Negative zero is a `real`. -/
  | integer (i : Int)
  /-- Any other number. -/
  | real (n : Numeral)
  /-- A string. -/
  | string (s : String)
  /-- An array. -/
  | array (items : List Json)
  /-- An object. -/
  | object (members : List (String × Json))
  /-- A part that cannot be represented. -/
  | flawed
deriving Inhabited, Repr

namespace Json

/-- How deep containers may be nested. -/
def maxDepth : Nat := 127

/-- The number that a tree stands for, if it is one and not too large. -/
def number? : Json → Option Number
  | integer i => (Numeral.ofInt i).scaled?
  | real n => n.scaled?
  | _ => none

mutual

/-- Whether no part of a tree is flawed. -/
def isSound : Json → Bool
  | integer i => (integer i).number?.isSome
  | real n => (real n).number?.isSome
  | array items => areSound items
  | object members => areSoundMembers members
  | flawed => false
  | _ => true

/-- Whether no part of a list of trees is flawed. -/
def areSound : List Json → Bool
  | [] => true
  | j :: js => j.isSound && areSound js

/-- Whether no part of a list of members is flawed. -/
def areSoundMembers : List (String × Json) → Bool
  | [] => true
  | (_, j) :: ms => j.isSound && areSoundMembers ms

end

end Json

end Tabletop
