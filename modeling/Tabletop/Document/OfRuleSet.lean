import Tabletop.Document.Basic
import Tabletop.RuleSet.Basic

/-!
# Writing a rule set down

The document of a rule set: every row in its order, every closed word spelled out, and no trace of
the progress of events.
-/

namespace Tabletop

namespace Document

/-- The row of an attribute. -/
def AttributeRow.ofAttribute (a : AttributeDef) : AttributeRow := ⟨a.name, a.kind.word⟩

/-- The row of a flat change. -/
def FlatRow.ofFlat (f : FlatChange) : FlatRow := ⟨f.sign.word, f.magnitude⟩

/-- The row of an amount drawn from an attribute. -/
def DrawRow.ofDraw (d : Draw) : DrawRow :=
  ⟨d.source, d.owner.word, d.combine.word, d.operand, d.flat.map FlatRow.ofFlat⟩

/-- The row of an amount. -/
def AmountRow.ofAmount : Amount → AmountRow
  | .literal value => .literal value
  | .drawn d => .drawn (.ofDraw d)

/-- The row of a condition. -/
def ConditionRow.ofCondition (c : Condition) : ConditionRow :=
  ⟨c.attr, c.owner.word, c.comparator.word, c.value⟩

/-- The row of an effect. -/
def EffectRow.ofEffect (e : Effect) : EffectRow :=
  ⟨e.attr, e.scope.word, e.modifier.word, .ofAmount e.amount, e.condition.map .ofCondition⟩

/-- The row of an action. -/
def ActionRow.ofAction (a : Action) : ActionRow := ⟨a.name, a.effects.map .ofEffect⟩

/-- The row of a slot. -/
def SlotRow.ofSlot (s : Slot) : SlotRow := ⟨s.attr, s.kind.word, s.value⟩

/-- The row of an entity. -/
def EntityRow.ofEntity (e : Entity) : EntityRow := ⟨e.name, e.slots.map .ofSlot, e.actions⟩

/-- The row of an end condition. -/
def EndingRow.ofEnding : EndCondition → EndingRow
  | .turnCount comparator count => .turnCount comparator.word count
  | .participant name attr comparator value => .participant name attr comparator.word value

/-- The row of an event. -/
def EventRow.ofEvent (e : Event) : EventRow :=
  ⟨e.name, e.participants, e.script, .ofEnding e.ending⟩

end Document

open Document in
/-- The document of a rule set. -/
def RuleSet.document (w : RuleSet) : Document where
  name := w.name
  attributes := w.attributes.rows.map .ofAttribute
  actions := w.actions.rows.map .ofAction
  entities := w.entities.rows.map .ofEntity
  events := w.events.rows.map .ofEvent

end Tabletop
