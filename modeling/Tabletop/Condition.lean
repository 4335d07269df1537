import Tabletop.Entity
import Tabletop.RuleError

/-!
# Comparing values

Equality is defined between any two values; an order only between numbers. A condition compares
the value an entity holds at the moment with a declared one.
-/

namespace Tabletop

/-- Whether the live value `l` stands to the declared value `r` as the comparator says. -/
def Comparator.compare (c : Comparator) (l r : Value) : Except RuleError Bool :=
  match c with
  | eq => .ok (l.same r)
  | ne => .ok (!l.same r)
  | gt => order fun a b ↦ b < a
  | ge => order fun a b ↦ b ≤ a
  | lt => order fun a b ↦ a < b
  | le => order fun a b ↦ a ≤ b
where
  /-- Compares two numbers, and refuses everything else. -/
  order (holds : Number → Number → Bool) : Except RuleError Bool :=
    match l, r with
    | .number a, .number b => .ok (holds a b)
    | _, _ => .error (.typeMismatch (.comparison c l.shape r.shape))

/-- A comparison of an attribute with a declared value. -/
structure Condition where
  /-- The attribute read. -/
  attr : String
  /-- Whose attribute it is. -/
  owner : Owner
  /-- How it is compared. -/
  comparator : Comparator
  /-- What it is compared with. -/
  value : Value
deriving DecidableEq, Repr

/-- Whether a condition holds of the entity that it reads. -/
def Condition.holds (c : Condition) (e : Entity) : Except RuleError Bool := do
  let current ← need (.unknownAttribute c.attr (.entity e.name)) (e.value? c.attr)
  c.comparator.compare current c.value

end Tabletop
