import Mathlib
import Tabletop.Document.OfRuleSet

/-!
# The numbers of documents and rule sets

Every number of a document stands somewhere in its rows, and the rows of a rule set hold the same
numbers in the same places. Here are the numbers of a document, and the change of all numbers, in
documents and in rule sets. The document of a changed rule set is the changed document.
-/

namespace Tabletop

/-! ## Documents -/

/-- The numbers of a value. -/
def Value.numbers : Value → List Number
  | .number x => [x]
  | _ => []

/-- A value with its number changed. -/
def Value.mapNumbers (f : Number → Number) : Value → Value
  | .number x => .number (f x)
  | v => v

namespace Document

/-- The numbers of a flat change. -/
def FlatRow.numbers (r : FlatRow) : List Number := [r.magnitude]

/-- A flat change with its number changed. -/
def FlatRow.mapNumbers (f : Number → Number) (r : FlatRow) : FlatRow :=
  { r with magnitude := f r.magnitude }

/-- The numbers of an amount drawn from an attribute. -/
def DrawRow.numbers (r : DrawRow) : List Number :=
  r.operand :: r.flat.toList.flatMap FlatRow.numbers

/-- An amount drawn from an attribute with its numbers changed. -/
def DrawRow.mapNumbers (f : Number → Number) (r : DrawRow) : DrawRow :=
  { r with operand := f r.operand, flat := r.flat.map (·.mapNumbers f) }

/-- The numbers of an amount. -/
def AmountRow.numbers : AmountRow → List Number
  | .drawn r => r.numbers
  | .literal value => value.numbers

/-- An amount with its numbers changed. -/
def AmountRow.mapNumbers (f : Number → Number) : AmountRow → AmountRow
  | .drawn r => .drawn (r.mapNumbers f)
  | .literal value => .literal (value.mapNumbers f)

/-- The numbers of a condition. -/
def ConditionRow.numbers (r : ConditionRow) : List Number := r.value.numbers

/-- A condition with its numbers changed. -/
def ConditionRow.mapNumbers (f : Number → Number) (r : ConditionRow) : ConditionRow :=
  { r with value := r.value.mapNumbers f }

/-- The numbers of an effect. -/
def EffectRow.numbers (r : EffectRow) : List Number :=
  r.amount.numbers ++ r.condition.toList.flatMap ConditionRow.numbers

/-- An effect with its numbers changed. -/
def EffectRow.mapNumbers (f : Number → Number) (r : EffectRow) : EffectRow :=
  { r with amount := r.amount.mapNumbers f, condition := r.condition.map (·.mapNumbers f) }

/-- The numbers of an action. -/
def ActionRow.numbers (r : ActionRow) : List Number := r.effects.flatMap EffectRow.numbers

/-- An action with its numbers changed. -/
def ActionRow.mapNumbers (f : Number → Number) (r : ActionRow) : ActionRow :=
  { r with effects := r.effects.map (·.mapNumbers f) }

/-- The numbers of a slot. -/
def SlotRow.numbers (r : SlotRow) : List Number := r.value.numbers

/-- A slot with its numbers changed. -/
def SlotRow.mapNumbers (f : Number → Number) (r : SlotRow) : SlotRow :=
  { r with value := r.value.mapNumbers f }

/-- The numbers of an entity. -/
def EntityRow.numbers (r : EntityRow) : List Number := r.slots.flatMap SlotRow.numbers

/-- An entity with its numbers changed. -/
def EntityRow.mapNumbers (f : Number → Number) (r : EntityRow) : EntityRow :=
  { r with slots := r.slots.map (·.mapNumbers f) }

/-- The numbers of an end condition. A count of turns is none of them. -/
def EndingRow.numbers : EndingRow → List Number
  | .participant _ _ _ value => value.numbers
  | .turnCount _ _ => []

/-- An end condition with its numbers changed. -/
def EndingRow.mapNumbers (f : Number → Number) : EndingRow → EndingRow
  | .participant name attr comparator value =>
    .participant name attr comparator (value.mapNumbers f)
  | .turnCount comparator count => .turnCount comparator count

/-- The numbers of an event. -/
def EventRow.numbers (r : EventRow) : List Number := r.ending.numbers

/-- An event with its numbers changed. -/
def EventRow.mapNumbers (f : Number → Number) (r : EventRow) : EventRow :=
  { r with ending := r.ending.mapNumbers f }

/-- The numbers of a document. -/
def numbers (d : Document) : List Number :=
  d.actions.flatMap ActionRow.numbers ++ d.entities.flatMap EntityRow.numbers ++
    d.events.flatMap EventRow.numbers

/-- A document with its numbers changed. -/
def mapNumbers (f : Number → Number) (d : Document) : Document :=
  { d with
    actions := d.actions.map (·.mapNumbers f)
    entities := d.entities.map (·.mapNumbers f)
    events := d.events.map (·.mapNumbers f) }

end Document

/-! ## Rule sets -/

section RuleSets

variable (f : Number → Number)

/-- A flat change with its number changed. -/
def FlatChange.mapNumbers (c : FlatChange) : FlatChange := { c with magnitude := f c.magnitude }

/-- An amount drawn from an attribute with its numbers changed. -/
def Draw.mapNumbers (d : Draw) : Draw :=
  { d with operand := f d.operand, flat := d.flat.map (·.mapNumbers f) }

/-- An amount with its numbers changed. -/
def Amount.mapNumbers : Amount → Amount
  | .literal value => .literal (value.mapNumbers f)
  | .drawn d => .drawn (d.mapNumbers f)

/-- A condition with its numbers changed. -/
def Condition.mapNumbers (c : Condition) : Condition := { c with value := c.value.mapNumbers f }

/-- An effect with its numbers changed. -/
def Effect.mapNumbers (e : Effect) : Effect :=
  { e with amount := e.amount.mapNumbers f, condition := e.condition.map (·.mapNumbers f) }

/-- An action with its numbers changed. -/
def Action.mapNumbers (a : Action) : Action := { a with effects := a.effects.map (·.mapNumbers f) }

/-- A slot with its numbers changed. -/
def Slot.mapNumbers (s : Slot) : Slot := { s with value := s.value.mapNumbers f }

/-- An entity with its numbers changed. -/
def Entity.mapNumbers (e : Entity) : Entity := { e with slots := e.slots.map (·.mapNumbers f) }

/-- An end condition with its numbers changed. -/
def EndCondition.mapNumbers : EndCondition → EndCondition
  | .turnCount comparator count => .turnCount comparator count
  | .participant name attr comparator value =>
    .participant name attr comparator (value.mapNumbers f)

/-- An event with its numbers changed. Its progress stays as it is. -/
def Event.mapNumbers (e : Event) : Event := { e with ending := e.ending.mapNumbers f }

/-- A rule set with its numbers changed. -/
def RuleSet.mapNumbers (w : RuleSet) : RuleSet :=
  { w with
    actions := w.actions.map (·.mapNumbers f)
    entities := w.entities.map (·.mapNumbers f)
    events := w.events.map (·.mapNumbers f) }

end RuleSets

/-! ## Writing down after a change -/

namespace Document

variable {f : Number → Number}

theorem FlatRow.ofFlat_mapNumbers (c : FlatChange) :
    ofFlat (c.mapNumbers f) = (ofFlat c).mapNumbers f := rfl

theorem DrawRow.ofDraw_mapNumbers (d : Draw) :
    ofDraw (d.mapNumbers f) = (ofDraw d).mapNumbers f := by
  simp only [ofDraw, Draw.mapNumbers, mapNumbers, Option.map_map, Function.comp_def,
    FlatRow.ofFlat_mapNumbers]

theorem AmountRow.ofAmount_mapNumbers (a : Amount) :
    ofAmount (a.mapNumbers f) = (ofAmount a).mapNumbers f := by
  cases a with
  | literal value => rfl
  | drawn d => exact congrArg AmountRow.drawn (DrawRow.ofDraw_mapNumbers d)

theorem ConditionRow.ofCondition_mapNumbers (c : Condition) :
    ofCondition (c.mapNumbers f) = (ofCondition c).mapNumbers f := rfl

theorem EffectRow.ofEffect_mapNumbers (e : Effect) :
    ofEffect (e.mapNumbers f) = (ofEffect e).mapNumbers f := by
  simp only [ofEffect, Effect.mapNumbers, mapNumbers, Option.map_map, Function.comp_def,
    AmountRow.ofAmount_mapNumbers, ConditionRow.ofCondition_mapNumbers]

theorem ActionRow.ofAction_mapNumbers (a : Action) :
    ofAction (a.mapNumbers f) = (ofAction a).mapNumbers f := by
  simp only [ofAction, Action.mapNumbers, mapNumbers, List.map_map, Function.comp_def,
    EffectRow.ofEffect_mapNumbers]

theorem SlotRow.ofSlot_mapNumbers (s : Slot) :
    ofSlot (s.mapNumbers f) = (ofSlot s).mapNumbers f := rfl

theorem EntityRow.ofEntity_mapNumbers (e : Entity) :
    ofEntity (e.mapNumbers f) = (ofEntity e).mapNumbers f := by
  simp only [ofEntity, Entity.mapNumbers, mapNumbers, List.map_map, Function.comp_def,
    SlotRow.ofSlot_mapNumbers]

theorem EndingRow.ofEnding_mapNumbers (e : EndCondition) :
    ofEnding (e.mapNumbers f) = (ofEnding e).mapNumbers f := by cases e <;> rfl

theorem EventRow.ofEvent_mapNumbers (e : Event) :
    ofEvent (e.mapNumbers f) = (ofEvent e).mapNumbers f := by
  simp only [ofEvent, Event.mapNumbers, mapNumbers, EndingRow.ofEnding_mapNumbers]

end Document

open Document in
/-- **The document of a changed rule set is the changed document.** -/
theorem RuleSet.document_mapNumbers (w : RuleSet) (f : Number → Number) :
    (w.mapNumbers f).document = w.document.mapNumbers f := by
  simp only [document, mapNumbers, Document.mapNumbers, Table.map, List.map_map, Function.comp_def,
    ActionRow.ofAction_mapNumbers, EntityRow.ofEntity_mapNumbers, EventRow.ofEvent_mapNumbers]

end Tabletop
