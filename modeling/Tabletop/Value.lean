import Tabletop.Number.Layout
import Tabletop.Vocabulary

/-!
# Values

What an attribute of an entity holds at a moment. Its shape (number, text or truth value) decides
which kinds of attribute accept it; a percentage is stored as a number.
-/

namespace Tabletop

/-- A concrete value. -/
inductive Value where
  /-- A truth value. -/
  | boolean (b : Bool)
  /-- A number. -/
  | number (x : Number)
  /-- A text. -/
  | text (s : String)
deriving DecidableEq, Repr

/-- The shape of a value, named in messages. -/
inductive Shape where
  /-- Of numbers. -/
  | number
  /-- Of texts. -/
  | text
  /-- Of truth values. -/
  | boolean
deriving DecidableEq, Repr

/-- The name of a shape. -/
def Shape.word : Shape → String
  | number => "number"
  | text => "text"
  | boolean => "boolean"

namespace Value

/-- The shape of a value. -/
def shape : Value → Shape
  | boolean _ => .boolean
  | number _ => .number
  | text _ => .text

/-- The number a value holds, if it holds one. -/
def number? : Value → Option Number
  | number x => some x
  | _ => none

/-- Whether the value is no number or a finite one. -/
def isFinite : Value → Bool
  | number x => x.isFinite
  | _ => true

/-- Equality as rules see it. Numbers are compared as doubles: zero equals negative zero and what
is not a number equals nothing. Values of different shapes are never equal. -/
def same : Value → Value → Bool
  | boolean a, boolean b => a == b
  | number a, number b => a == b
  | text a, text b => a == b
  | _, _ => false

instance : BEq Value := ⟨same⟩

/-- The text of a value for people. -/
def display : Value → String
  | boolean b => if b then "true" else "false"
  | number x => x.display
  | text s => s

/-- The text of a value where texts are told apart from numbers: between quotes, as they stand. -/
def described : Value → String
  | text s => "\"" ++ s ++ "\""
  | v => v.display

end Value

/-- Whether attributes of the kind may hold the value. -/
def Kind.accepts (k : Kind) : Value → Bool
  | .number _ => k.isNumeric
  | .text _ => k = .text
  | .boolean _ => k = .boolean

end Tabletop
