import Tabletop.Amount
import Tabletop.Condition

/-!
# Actions

An action is a named list of effects, carried out in order. Each effect changes one attribute of
the entities in its scope by an amount, and may depend on a condition.
-/

namespace Tabletop

/-- A change of one attribute. -/
structure Effect where
  /-- The attribute changed. -/
  attr : String
  /-- Whom it touches. -/
  scope : Scope
  /-- How the value is changed. -/
  modifier : Modifier
  /-- By what. -/
  amount : Amount
  /-- Under which condition, if any. -/
  condition : Option Condition
deriving DecidableEq, Repr

/-- A named list of effects. Later effects see what earlier ones did. -/
structure Action where
  /-- The name. -/
  name : String
  /-- The effects. -/
  effects : List Effect
deriving DecidableEq, Repr

/-- Changes a value in a slot of the given kind by an amount. Assignment asks only whether the kind
accepts the amount; arithmetic asks for two numbers and a finite result. -/
def Modifier.apply (m : Modifier) (kind : Kind) (current amount : Value) : Except Refusal Value :=
  match m with
  | assign => if kind.accepts amount then .ok amount else .error (.assign amount.shape)
  | add => calculate (· + ·)
  | multiply => calculate (· * ·)
where
  /-- Calculates with two numbers. -/
  calculate (op : Number → Number → Number) : Except Refusal Value :=
    match current, amount with
    | .number l, .number r =>
      let result := op l r
      if result.isFinite then .ok (.number result) else .error (.range m l r)
    | _, _ => .error (.operands m current.shape amount.shape)

end Tabletop
