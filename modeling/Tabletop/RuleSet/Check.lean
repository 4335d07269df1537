import Tabletop.RuleSet.Basic

/-!
# Checking definitions

What a definition must satisfy before it enters a rule set. Every check names the first fault it
finds, in the order in which the parts of the definition are written.
-/

namespace Tabletop

/-- A declared number has to be finite. -/
def Value.ensureFinite : Value → Except RuleError Unit
  | .number x => require (.typeMismatch (.infinite x)) x.isFinite
  | _ => .ok ()

/-- An order can only be asked for against a number. -/
def Comparator.ensureOrderable (c : Comparator) (v : Value) : Except RuleError Unit :=
  require (.typeMismatch (.ordering v.shape)) (!c.isOrdering || v.shape == .number)

namespace RuleSet

/-! ## Names -/

/-- The definition of an attribute. -/
def defined (w : RuleSet) (attr : String) : Except RuleError AttributeDef :=
  need (.unknownAttribute attr .ruleSet) (w.attributes.get? attr)

/-- Makes sure that an action exists. -/
def ensureAction (w : RuleSet) (name : String) : Except RuleError Unit :=
  require (.unknownAction name) (w.actions.contains name)

/-- Makes sure that an entity exists. -/
def ensureEntity (w : RuleSet) (name : String) : Except RuleError Unit :=
  require (.unknownEntity name) (w.entities.contains name)

/-! ## Actions -/

/-- Checks a condition: its attribute is defined, and its comparison makes sense. -/
def checkCondition (w : RuleSet) (c : Condition) : Except RuleError Unit := do
  discard (w.defined c.attr)
  c.comparator.ensureOrderable c.value

/-- Checks an amount against the attribute it is to change. -/
def checkAmount (w : RuleSet) (modifier : Modifier) (target : AttributeDef) :
    Amount → Except RuleError Unit
  | .literal v => do
    v.ensureFinite
    if modifier = .assign then
      require (.typeMismatch (.assignment v.shape target.kind target.name)) (target.kind.accepts v)
    else require (.typeMismatch (.operatorOnValue modifier v.shape)) (v.shape == .number)
  | .drawn d => do
    let source ← w.defined d.source
    require (.typeMismatch (.amountKinds target.name source.name))
      (source.kind.isNumeric && target.kind.isNumeric)

/-- Checks an effect: its attribute, its modifier, its amount, its condition. -/
def checkEffect (w : RuleSet) (e : Effect) : Except RuleError Unit := do
  let target ← w.defined e.attr
  require (.typeMismatch (.operatorOnAttribute e.modifier target.kind target.name))
    (e.modifier == .assign || target.kind.isNumeric)
  w.checkAmount e.modifier target e.amount
  e.condition.forM w.checkCondition

/-- Checks the effects of an action, of which there has to be at least one. -/
def checkEffects (w : RuleSet) (action : String) (effects : List Effect) :
    Except RuleError Unit := do
  require (.emptyAction action) (!effects.isEmpty)
  effects.forM w.checkEffect

/-! ## Entities -/

/-- Checks one more slot after those already checked, and gives it the kind of its attribute. -/
def checkSlot (w : RuleSet) (before : List Slot) (s : Slot) : Except RuleError (List Slot) := do
  let a ← w.defined s.attr
  require (.typeMismatch (.slot s.value.shape a.name a.kind)) (a.kind.accepts s.value)
  require (.duplicateName w.attributes.kind s.attr) (!before.any (·.attr == s.attr))
  s.value.ensureFinite
  return before ++ [{ s with kind := a.kind }]

/-- Checks the slots of an entity. Each records the kind its attribute is defined with, whatever
kind it came with. -/
def checkSlots (w : RuleSet) (slots : List Slot) : Except RuleError (List Slot) :=
  slots.foldlM w.checkSlot []

/-! ## Events -/

/-- Checks the names in a turn. -/
def checkTurn (w : RuleSet) : Turn → Except RuleError Unit
  | .act user action targets => do
    w.ensureEntity user
    w.ensureAction action
    targets.forM w.ensureEntity
  | .say speaker _ => w.ensureEntity speaker

/-- Checks an end condition. One on an attribute needs a participant of the event. -/
def checkEnding (w : RuleSet) (participants : List String) : EndCondition → Except RuleError Unit
  | .turnCount _ _ => .ok ()
  | .participant name attr comparator value => do
    require (.unknownEntity name) (participants.contains name)
    w.ensureEntity name
    discard (w.defined attr)
    comparator.ensureOrderable value

/-- Checks an event: its participants, its turns, its end condition. -/
def checkEvent (w : RuleSet) (participants : List String) (script : List Turn)
    (ending : EndCondition) : Except RuleError Unit := do
  participants.forM w.ensureEntity
  script.forM w.checkTurn
  w.checkEnding participants ending

end RuleSet

end Tabletop
