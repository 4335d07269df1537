import Tabletop.Proofs.RuleSet.Edit

/-!
# Making a row and putting it somewhere

An operation that defines a row does two things that have little to do with each other. The row is
made by checks, which look at tables that are complete; and it is put at the end of its own table,
which is only asked whether the name is vacant. Here the two are taken apart, errors included
(`perform_defineAction` and its like), so that what is made can be compared with what is made by
another operation, or from another document, and the place it goes to can be compared by itself.
-/

namespace Tabletop

/-! ## Tables -/

namespace Table

variable {α : Type} [Named α] {t t' : Table α} {name : String} {make : Except RuleError α} {row : α}

/-- Puts a row that is made by checks at the end, under a vacant name. -/
def define (t : Table α) (name : String) (make : Except RuleError α) :
    Except RuleError (α × Table α) := do
  t.ensureVacant name
  let row ← make
  return (row, ← t.insert row)

/-- A row that is there already is only asked for a vacant name, and asking twice is asking once. -/
theorem define_of_ok (row : α) (h : Named.name row = name) :
    t.define name (.ok row) = (t.insert row).map fun t' ↦ (row, t') := by
  subst h
  change (t.ensureVacant (Named.name row) >>= fun _ ↦
    t.insert row >>= fun t' ↦ pure (row, t')) = _
  rw [insert]
  rcases t.ensureVacant (Named.name row) with e | _ <;> rfl

theorem define_eq_ok_iff (hmake : ∀ row, make = .ok row → Named.name row = name) :
    t.define name make = .ok (row, t') ↔
      make = .ok row ∧ Named.name row ∉ t.names ∧ t' = t.push row := by
  rw [define, check_bind_eq_ok_iff, ensureVacant_eq_ok_iff, bind_eq_ok_iff]
  simp only [bind_eq_ok_iff, insert_eq_ok_iff, pure_eq_ok_iff, Prod.mk.injEq]
  constructor
  · rintro ⟨hnew, _, hrow, _, ⟨-, rfl⟩, rfl, rfl⟩
    exact ⟨hrow, hmake _ hrow ▸ hnew, rfl⟩
  · rintro ⟨hrow, hnew, rfl⟩
    exact ⟨hmake row hrow ▸ hnew, row, hrow, _, ⟨hnew, rfl⟩, rfl, rfl⟩

end Table

/-! ## Operations -/

namespace RuleSet

variable {α : Type} {w w' : RuleSet} {name : String}

/-- What an operation answers and leaves behind that makes a row and writes its table, and writes
nothing if that fails. -/
def written (w : RuleSet) (write : Table α → RuleSet) :
    Except RuleError (α × Table α) → Except RuleError α × RuleSet
  | .ok (row, t) => (.ok row, write t)
  | .error e => (.error e, w)

theorem perform_written (w : RuleSet) (write : Table α → RuleSet)
    (x : Except RuleError (α × Table α)) :
    w.perform (do
      let made ← liftM x
      set (write made.2)
      return made.1) = w.written write x := by
  rcases x with _ | ⟨_, _⟩ <;> rfl

theorem written_eq_ok_iff {write : Table α → RuleSet} {x : Except RuleError (α × Table α)}
    {row : α} : w.written write x = (.ok row, w') ↔ ∃ t, x = .ok (row, t) ∧ w' = write t := by
  rcases x with e | ⟨a, t⟩
  · simp [written]
  · simp [written, eq_comm (a := w')]

/-! ### Attributes -/

theorem perform_defineAttribute (w : RuleSet) (name : String) (kind : Kind) :
    w.perform (defineAttribute name kind) = w.written (fun attributes ↦ { w with attributes })
      (w.attributes.define name (.ok ⟨name, kind⟩)) := by
  have hdefine : w.attributes.define name (.ok ⟨name, kind⟩) =
      (w.attributes.insert ⟨name, kind⟩).map fun t ↦ (⟨name, kind⟩, t) :=
    Table.define_of_ok _ rfl
  rw [hdefine, defineAttribute, perform_get_bind]
  dsimp only
  rcases w.attributes.insert ⟨name, kind⟩ with e | t <;> rfl

/-! ### Actions -/

/-- The action of effects that are checked. -/
def makeAction (w : RuleSet) (name : String) (effects : List Effect) :
    Except RuleError Action := do
  w.checkEffects name effects
  return ⟨name, effects⟩

theorem name_of_makeAction {effects : List Effect} {row : Action}
    (h : w.makeAction name effects = .ok row) : row.name = name := by
  obtain ⟨-, h⟩ := check_bind_eq_ok_iff.mp h
  exact pure_eq_ok_iff.mp h ▸ rfl

theorem perform_defineAction (w : RuleSet) (name : String) (effects : List Effect) :
    w.perform (defineAction name effects) = w.written (fun actions ↦ { w with actions })
      (w.actions.define name (w.makeAction name effects)) := by
  rw [← perform_written, defineAction, perform_get_bind, Table.define, makeAction]
  simp only [← lift_bind_lift]
  rfl

/-! ### Entities -/

/-- The entity of slots and actions that are checked. -/
def makeEntity (w : RuleSet) (name : String) (slots : List Slot) (actions : List String) :
    Except RuleError Entity := do
  let slots ← w.checkSlots slots
  actions.forM w.ensureAction
  return .ofParts name slots actions

theorem name_of_makeEntity {slots : List Slot} {actions : List String} {row : Entity}
    (h : w.makeEntity name slots actions = .ok row) : row.name = name := by
  obtain ⟨_, -, h⟩ := bind_eq_ok_iff.mp h
  obtain ⟨-, h⟩ := check_bind_eq_ok_iff.mp h
  exact pure_eq_ok_iff.mp h ▸ rfl

theorem perform_defineEntity (w : RuleSet) (name : String) (slots : List Slot)
    (actions : List String) :
    w.perform (defineEntity name slots actions) = w.written (fun entities ↦ { w with entities })
      (w.entities.define name (w.makeEntity name slots actions)) := by
  rw [← perform_written, defineEntity, perform_get_bind, Table.define, makeEntity]
  simp only [forM_lift, ← lift_bind_lift]
  rfl

/-! ### Events -/

/-- The event of a script that is checked, not started yet. -/
def makeEvent (w : RuleSet) (name : String) (participants : List String) (script : List Turn)
    (ending : EndCondition) : Except RuleError Event := do
  w.checkEvent participants script ending
  return .ofScript name participants script ending

theorem name_of_makeEvent {participants : List String} {script : List Turn}
    {ending : EndCondition} {row : Event}
    (h : w.makeEvent name participants script ending = .ok row) : row.name = name := by
  obtain ⟨-, h⟩ := check_bind_eq_ok_iff.mp h
  exact pure_eq_ok_iff.mp h ▸ rfl

theorem perform_defineEvent (w : RuleSet) (name : String) (participants : List String)
    (script : List Turn) (ending : EndCondition) :
    w.perform (defineEvent name participants script ending) =
      w.written (fun events ↦ { w with events })
        (w.events.define name (w.makeEvent name participants script ending)) := by
  rw [← perform_written, defineEvent, perform_get_bind, Table.define, makeEvent]
  simp only [← lift_bind_lift]
  rfl

end RuleSet

end Tabletop
