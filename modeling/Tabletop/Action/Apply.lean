import Tabletop.Action.Basic
import Tabletop.Action.Cast

/-!
# Carrying out an action

Nothing that is passed in changes. The effects of an action run in order on working copies, and
the copies are returned for the caller to keep; an error throws them away, so a failed action
leaves no entity half changed.

## Scopes

An effect on the user touches the user's copy alone, but its condition and its amount still see the
first target. An effect on a single target touches the first mention, an effect on every target
touches each mention in turn. Before an effect changes anything, every entity it touches must have
the attribute.
-/

namespace Tabletop

/-- One change that was made. -/
structure Change where
  /-- The entity changed. -/
  entity : String
  /-- The attribute changed. -/
  attr : String
  /-- The value before. -/
  before : Value
  /-- The value after. -/
  after : Value
deriving DecidableEq, Repr

/-- How far an action has come, and in the end what it did. -/
structure Outcome where
  /-- The working copies. -/
  cast : Cast
  /-- The changes in order. -/
  changes : List Change
  /-- How many times an effect was skipped because its condition did not hold. -/
  skipped : Nat
deriving DecidableEq, Repr

/-- Whether an entity may use an action. -/
def Entity.ensureCanUse (e : Entity) (a : Action) : Except RuleError Unit :=
  require (.actionNotOwned e.name a.name) (e.hasAction a.name)

namespace Action

/-- The error of an action that needs a target and has none. -/
def missingTarget (a : Action) : RuleError := .missingTarget (.action a.name)

/-- The places of the copies that a scope touches, one for each mention. -/
def touched (a : Action) (c : Cast) : Scope → Except RuleError (List Nat)
  | .user => .ok [Cast.userPlace]
  | .single => do
    let first ← need a.missingTarget c.targets.head?
    return [first]
  | .every => if c.targets.isEmpty then .error a.missingTarget else .ok c.targets

/-- The copy at a place. Places come from the cast itself, so it is always there. -/
def member (a : Action) (c : Cast) (place : Nat) : Except RuleError Entity :=
  need a.missingTarget c.members[place]?

/-- The slot that an effect on an entity changes. -/
def slot (e : Effect) (entity : Entity) : Except RuleError Slot :=
  need (.unknownAttribute e.attr (.entity entity.name)) (entity.slot? e.attr)

/-- Whether the condition of an effect holds, if it has one. -/
def permits (a : Action) (c : Cast) (target? : Option Nat) :
    Option Condition → Except RuleError Bool
  | none => .ok true
  | some condition => do
    let place ← match condition.owner with
      | .user => pure Cast.userPlace
      | .target => need a.missingTarget target?
    condition.holds (← a.member c place)

/-- Changes the copy at a place as an effect says, whatever its condition. -/
def change (a : Action) (e : Effect) (target? : Option Nat) (o : Outcome) (place : Nat) :
    Except RuleError Outcome := do
  let user ← a.member o.cast Cast.userPlace
  let target ← target?.mapM (a.member o.cast)
  let amount ← e.amount.resolve user target
  let entity ← a.member o.cast place
  let slot ← slot e entity
  let after ← (e.modifier.apply slot.kind slot.value amount).mapError fun refusal ↦
    .typeMismatch (.effect refusal a.name entity.name e.attr)
  return ⟨o.cast.set place (entity.put e.attr after),
    o.changes ++ [⟨entity.name, e.attr, slot.value, after⟩], o.skipped⟩

/-- Carries out an effect on the copy at one place, or skips it. -/
def touch (a : Action) (e : Effect) (o : Outcome) (place : Nat) : Except RuleError Outcome := do
  let target? := match e.scope with
    | .user => o.cast.targets.head?
    | .single | .every => some place
  if ← a.permits o.cast target? e.condition then a.change e target? o place
  else return { o with skipped := o.skipped + 1 }

/-- Carries out one effect. -/
def step (a : Action) (o : Outcome) (e : Effect) : Except RuleError Outcome := do
  let places ← a.touched o.cast e.scope
  places.forM fun place ↦ do
    let entity ← a.member o.cast place
    discard (slot e entity)
  places.foldlM (a.touch e) o

/-- Carries out an action for a user on its targets. -/
def apply (a : Action) (user : Entity) (targets : List Entity) : Except RuleError Outcome :=
  a.effects.foldlM a.step ⟨Cast.ofTargets user targets, [], 0⟩

end Action

end Tabletop
