import Tabletop.Event

/-!
# Documents

The written shape of a rule set. Kinds, scopes, comparators and the like are words here, as they
stand in a text; nothing says yet that they mean anything, or that the names fit together. An event
is written without its progress.

Two documents are compared number by number as doubles, so negative zero counts as zero.
-/

namespace Tabletop

namespace Document

/-- An attribute. -/
structure AttributeRow where
  /-- Its name. -/
  name : String
  /-- The word for its kind. -/
  kind : String
deriving BEq, Repr

/-- A flat change. -/
structure FlatRow where
  /-- The word for its sign. -/
  sign : String
  /-- By how much. -/
  magnitude : Number
deriving BEq, Repr

/-- An amount drawn from an attribute. -/
structure DrawRow where
  /-- The attribute it is drawn from. -/
  source : String
  /-- The word for its owner. -/
  owner : String
  /-- The word for the way to combine. -/
  combine : String
  /-- The operand. -/
  operand : Number
  /-- A fixed change on top. -/
  flat : Option FlatRow
deriving BEq, Repr

/-- The amount of an effect. -/
inductive AmountRow where
  /-- Drawn from an attribute. -/
  | drawn (row : DrawRow)
  /-- A value as it stands. -/
  | literal (value : Value)
deriving BEq, Repr

/-- A condition. -/
structure ConditionRow where
  /-- The attribute read. -/
  attr : String
  /-- The word for its owner. -/
  owner : String
  /-- The word for the comparator. -/
  comparator : String
  /-- What it is compared with. -/
  value : Value
deriving BEq, Repr

/-- An effect. -/
structure EffectRow where
  /-- The attribute changed. -/
  attr : String
  /-- The word for the scope. -/
  scope : String
  /-- The word for the modifier. -/
  modifier : String
  /-- By what. -/
  amount : AmountRow
  /-- Under which condition, if any. -/
  condition : Option ConditionRow
deriving BEq, Repr

/-- An action. -/
structure ActionRow where
  /-- Its name. -/
  name : String
  /-- Its effects. -/
  effects : List EffectRow
deriving BEq, Repr

/-- One value of an entity. -/
structure SlotRow where
  /-- The attribute. -/
  attr : String
  /-- The word for the kind. -/
  kind : String
  /-- The value. -/
  value : Value
deriving BEq, Repr

/-- An entity. -/
structure EntityRow where
  /-- Its name. -/
  name : String
  /-- Its values. -/
  slots : List SlotRow
  /-- The names of its actions. -/
  actions : List String
deriving BEq, Repr

/-- An end condition. -/
inductive EndingRow where
  /-- On an attribute of a participant. -/
  | participant (name attr comparator : String) (value : Value)
  /-- On the number of turns. -/
  | turnCount (comparator : String) (count : UInt32)
deriving BEq, Repr

/-- An event. -/
structure EventRow where
  /-- Its name. -/
  name : String
  /-- Who takes part. -/
  participants : List String
  /-- Its turns. -/
  script : List Turn
  /-- When it ends. -/
  ending : EndingRow
deriving BEq, Repr

end Document

open Document in
/-- A rule set as it is written. -/
structure Document where
  /-- Its name. -/
  name : String
  /-- Its attributes. -/
  attributes : List AttributeRow
  /-- Its actions. -/
  actions : List ActionRow
  /-- Its entities. -/
  entities : List EntityRow
  /-- Its events. -/
  events : List EventRow
deriving BEq, Repr

end Tabletop
