import Tabletop.RuleSet.Check

/-!
# Editing a rule set

Defining, changing and removing rows. A definition is checked before anything is written, so an
operation that fails leaves the rule set as it was. Removing a row touches nothing that refers to
it: what still does so fails when it is next used.
-/

namespace Tabletop

namespace RuleSet

/-- Gives the rule set another name. -/
def rename (name : String) : Edit Unit := modify fun w ↦ { w with name }

/-! ## Defining -/

/-- Defines an attribute. -/
def defineAttribute (name : String) (kind : Kind) : Edit AttributeDef := do
  let w ← get
  let row : AttributeDef := ⟨name, kind⟩
  let attributes ← w.attributes.insert row
  set { w with attributes }
  return row

/-- Defines an action. -/
def defineAction (name : String) (effects : List Effect) : Edit Action := do
  let w ← get
  w.actions.ensureVacant name
  w.checkEffects name effects
  let row : Action := ⟨name, effects⟩
  let actions ← w.actions.insert row
  set { w with actions }
  return row

/-- Defines an entity. -/
def defineEntity (name : String) (slots : List Slot) (actions : List String) : Edit Entity := do
  let w ← get
  w.entities.ensureVacant name
  let slots ← w.checkSlots slots
  actions.forM (w.ensureAction ·)
  let row := Entity.ofParts name slots actions
  let entities ← w.entities.insert row
  set { w with entities }
  return row

/-- Defines an event. -/
def defineEvent (name : String) (participants : List String) (script : List Turn)
    (ending : EndCondition) : Edit Event := do
  let w ← get
  w.events.ensureVacant name
  w.checkEvent participants script ending
  let row := Event.ofScript name participants script ending
  let events ← w.events.insert row
  set { w with events }
  return row

/-! ## Changing -/

/-- Changes the name or the kind of an attribute. Entities keep their values, whether or not they
fit the new kind, and the old name; only the kind they record follows the definition. -/
def modifyAttribute (name : String) (newName? : Option String) (newKind? : Option Kind) :
    Edit AttributeDef := do
  let w ← get
  let old ← w.attributes.get name
  w.attributes.ensureRenamable name newName?
  let row : AttributeDef := ⟨newName?.getD old.name, newKind?.getD old.kind⟩
  let attributes := w.attributes.adjust name fun _ ↦ row
  let entities := match newKind? with
    | some kind => w.entities.map (·.relabel name kind)
    | none => w.entities
  set { w with attributes, entities }
  return row

/-- Changes the name or the effects of an action. New effects are checked under the new name. -/
def modifyAction (name : String) (newName? : Option String) (newEffects? : Option (List Effect)) :
    Edit Action := do
  let w ← get
  let old ← w.actions.get name
  w.actions.ensureRenamable name newName?
  newEffects?.forM (w.checkEffects (newName?.getD name) ·)
  let row : Action := ⟨newName?.getD old.name, newEffects?.getD old.effects⟩
  set { w with actions := w.actions.adjust name fun _ ↦ row }
  return row

/-- Changes the name, the values or the actions of an entity. -/
def modifyEntity (name : String) (newName? : Option String) (newSlots? : Option (List Slot))
    (newActions? : Option (List String)) : Edit Entity := do
  let w ← get
  let old ← w.entities.get name
  w.entities.ensureRenamable name newName?
  let slots? ← newSlots?.mapM (w.checkSlots ·)
  newActions?.forM fun actions ↦ actions.forM (w.ensureAction ·)
  let row : Entity :=
    ⟨newName?.getD old.name, slots?.getD old.slots,
      (newActions?.map List.eraseDups).getD old.actions⟩
  set { w with entities := w.entities.adjust name fun _ ↦ row }
  return row

/-! ## Removing -/

/-- Removes an attribute. -/
def removeAttribute (name : String) : Edit AttributeDef := do
  let w ← get
  let (row, attributes) ← w.attributes.remove name
  set { w with attributes }
  return row

/-- Removes an action. -/
def removeAction (name : String) : Edit Action := do
  let w ← get
  let (row, actions) ← w.actions.remove name
  set { w with actions }
  return row

/-- Removes an entity. -/
def removeEntity (name : String) : Edit Entity := do
  let w ← get
  let (row, entities) ← w.entities.remove name
  set { w with entities }
  return row

/-- Removes an event. -/
def removeEvent (name : String) : Edit Event := do
  let w ← get
  let (row, events) ← w.events.remove name
  set { w with events }
  return row

/-- Removes a row of any table. -/
def remove (kind : RowKind) (name : String) : Edit Unit :=
  match kind with
  | .attr => discard (removeAttribute name)
  | .action => discard (removeAction name)
  | .entity => discard (removeEntity name)
  | .event => discard (removeEvent name)

end RuleSet

end Tabletop
