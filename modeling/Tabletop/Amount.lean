import Tabletop.Entity
import Tabletop.RuleError

/-!
# Amounts

What an effect adds, multiplies by or assigns: either a value as it stands, or a number drawn from
an attribute of the user or of the target at the moment the effect is carried out.
-/

namespace Tabletop

/-- A change by a fixed number, kept as sign and magnitude. -/
structure FlatChange where
  /-- Whether it raises or lowers. -/
  sign : Sign
  /-- By how much. -/
  magnitude : Number
deriving DecidableEq, Repr

/-- The number a flat change adds. -/
def FlatChange.signed (f : FlatChange) : Number :=
  match f.sign with
  | .plus => f.magnitude
  | .minus => -f.magnitude

/-- A number drawn from an attribute. -/
structure Draw where
  /-- The attribute it is drawn from. -/
  source : String
  /-- Whose attribute it is. -/
  owner : Owner
  /-- How the attribute is joined with the operand. -/
  combine : Combine
  /-- The operand. -/
  operand : Number
  /-- A fixed change on top. -/
  flat : Option FlatChange
deriving DecidableEq, Repr

/-- The number drawn from a current one: the flat change is computed first, and the combined term
is added to it. -/
def Draw.total (d : Draw) (current : Number) : Number :=
  let flat := (d.flat.map FlatChange.signed).getD 0
  let combined := match d.combine with
    | .add => current + d.operand
    | .multiply => current * d.operand
  flat + combined

/-- The amount of an effect. -/
inductive Amount where
  /-- A value as it stands. -/
  | literal (value : Value)
  /-- A number drawn from an attribute. -/
  | drawn (draw : Draw)
deriving DecidableEq, Repr

/-- The number drawn for a user and, if there is one, a target. It has to be finite. -/
def Draw.resolve (d : Draw) (user : Entity) (target? : Option Entity) :
    Except RuleError Number := do
  let entity ← match d.owner with
    | .user => pure user
    | .target => need (.missingTarget (.amount d.source)) target?
  let value ← need (.unknownAttribute d.source (.entity entity.name)) (entity.value? d.source)
  let current ← need (.typeMismatch (.amountSource d.source entity.name value.shape)) value.number?
  let total := d.total current
  require (.typeMismatch (.amountRange entity.name d.source)) total.isFinite
  return total

/-- The value of an amount for a user and, if there is one, a target. -/
def Amount.resolve (a : Amount) (user : Entity) (target? : Option Entity) :
    Except RuleError Value :=
  match a with
  | literal value => .ok value
  | drawn d => (d.resolve user target?).map Value.number

end Tabletop
