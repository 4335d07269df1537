import Tabletop.Document.Basic
import Tabletop.RuleSet.Edit
import Tabletop.Vocabulary.Read

/-!
# Building a rule set from a document

The words of a row are read, and the row is then defined as if by hand: attributes first, then
actions, entities and events, since each may only mention what stands before it. The first fault
ends the building.
-/

namespace Tabletop

namespace Document

/-! ## Reading rows -/

/-- Reads a flat change. -/
def FlatRow.read (r : FlatRow) : Except RuleError FlatChange := do
  return ⟨← Sign.read r.sign, r.magnitude⟩

/-- Reads an amount drawn from an attribute. -/
def DrawRow.read (r : DrawRow) : Except RuleError Draw := do
  return ⟨r.source, ← Owner.read r.owner, ← Combine.read r.combine, r.operand,
    ← r.flat.mapM FlatRow.read⟩

/-- Reads an amount. -/
def AmountRow.read : AmountRow → Except RuleError Amount
  | .literal value => .ok (.literal value)
  | .drawn r => r.read.map .drawn

/-- Reads a condition. -/
def ConditionRow.read (r : ConditionRow) : Except RuleError Condition := do
  return ⟨r.attr, ← Owner.readCondition r.owner, ← Comparator.read r.comparator, r.value⟩

/-- Reads an effect. -/
def EffectRow.read (r : EffectRow) : Except RuleError Effect := do
  return ⟨r.attr, ← Scope.read r.scope, ← Modifier.read r.modifier, ← r.amount.read,
    ← r.condition.mapM ConditionRow.read⟩

/-- Reads the effects of an action. -/
def ActionRow.readEffects (r : ActionRow) : Except RuleError (List Effect) :=
  r.effects.mapM EffectRow.read

/-- Reads a slot. -/
def SlotRow.read (r : SlotRow) : Except RuleError Slot := do
  return ⟨r.attr, ← Kind.read r.kind, r.value⟩

/-- Reads the slots of an entity. -/
def EntityRow.readSlots (r : EntityRow) : Except RuleError (List Slot) := r.slots.mapM SlotRow.read

/-- Reads an end condition. -/
def EndingRow.read : EndingRow → Except RuleError EndCondition
  | .turnCount word count => do return .turnCount (← Comparator.read word) count
  | .participant name attr word value => do
    return .participant name attr (← Comparator.read word) value

/-! ## Defining rows -/

/-- Defines the attribute of a row. -/
def AttributeRow.define (r : AttributeRow) : Edit Unit := do
  discard (RuleSet.defineAttribute r.name (← Kind.read r.kind))

/-- Defines the action of a row. -/
def ActionRow.define (r : ActionRow) : Edit Unit := do
  discard (RuleSet.defineAction r.name (← r.readEffects))

/-- Defines the entity of a row. -/
def EntityRow.define (r : EntityRow) : Edit Unit := do
  discard (RuleSet.defineEntity r.name (← r.readSlots) r.actions)

/-- Defines the event of a row. -/
def EventRow.define (r : EventRow) : Edit Unit := do
  discard (RuleSet.defineEvent r.name r.participants r.script (← r.ending.read))

/-- Defines every row. -/
def define (d : Document) : Edit Unit := do
  d.attributes.forM AttributeRow.define
  d.actions.forM ActionRow.define
  d.entities.forM EntityRow.define
  d.events.forM EventRow.define

/-- The rule set that a document describes. -/
def build (d : Document) : Except RuleError RuleSet :=
  match (RuleSet.empty d.name).perform d.define with
  | (.ok (), w) => .ok w
  | (.error e, _) => .error e

end Document

/-- Replaces a rule set by the one that a document describes. -/
def RuleSet.load (d : Document) : Edit Unit := do
  set (← d.build)

end Tabletop
