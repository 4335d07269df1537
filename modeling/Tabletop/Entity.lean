import Tabletop.Rows
import Tabletop.Value

/-!
# Attributes and entities

An attribute is defined once for a rule set, by a name and a kind. An entity holds values under
attribute names, each in a slot that records the kind the attribute had when the value was put
there, and the names of the actions it may use.
-/

namespace Tabletop

/-- The definition of an attribute. -/
structure AttributeDef where
  /-- Its name. -/
  name : String
  /-- What it holds. -/
  kind : Kind
deriving DecidableEq, Repr

/-- The value of one attribute of an entity. -/
structure Slot where
  /-- The name of the attribute. -/
  attr : String
  /-- The recorded kind. -/
  kind : Kind
  /-- The value held. -/
  value : Value
deriving DecidableEq, Repr

/-- A participant: a name, values of attributes, and the actions it may use. -/
structure Entity where
  /-- The name. -/
  name : String
  /-- The slots, in the order they were given. -/
  slots : List Slot
  /-- The names of the actions, each once. -/
  actions : List String
deriving DecidableEq, Repr

namespace Entity

/-- An entity from its parts. Actions form a set: a repeated name keeps its first place. -/
def ofParts (name : String) (slots : List Slot) (actions : List String) : Entity :=
  ⟨name, slots, actions.eraseDups⟩

/-- The slot of an attribute: the first one of that name. -/
def slot? (e : Entity) (attr : String) : Option Slot := e.slots.find? (·.attr == attr)

/-- The value of an attribute. -/
def value? (e : Entity) (attr : String) : Option Value := (e.slot? attr).map Slot.value

/-- Whether the entity may use an action. -/
def hasAction (e : Entity) (action : String) : Bool := e.actions.contains action

/-- The entity with another value in the first slot of an attribute. Without such a slot nothing
changes. -/
def put (e : Entity) (attr : String) (value : Value) : Entity :=
  { e with slots := changeFirst (·.attr == attr) (fun s ↦ { s with value }) e.slots }

/-- The entity with another kind recorded for an attribute. The value stays as it is. -/
def relabel (e : Entity) (attr : String) (kind : Kind) : Entity :=
  { e with slots := changeFirst (·.attr == attr) (fun s ↦ { s with kind }) e.slots }

end Entity

end Tabletop
