import Tabletop.Proofs.RuleSet.Check
import Tabletop.Proofs.RuleSet.Perform
import Tabletop.RuleSet.Edit

/-!
# When edits succeed

For each operation that edits a rule set: what it asks for, and what it leaves behind when it gets
that. What follows takes operations apart with these equivalences and does not open them.
-/

namespace Tabletop

namespace RuleSet

variable {w w' : RuleSet} {name : String}

/-! ## Defining -/

theorem perform_defineAttribute_eq_ok_iff {kind : Kind} {row : AttributeDef} :
    w.perform (defineAttribute name kind) = (.ok row, w') ↔
      name ∉ w.attributes.names ∧ row = ⟨name, kind⟩ ∧
        w' = { w with attributes := w.attributes.push ⟨name, kind⟩ } := by
  rw [defineAttribute, perform_get_bind, perform_lift_bind_eq_ok_iff]
  simp only [Table.insert_eq_ok_iff, perform_set_pure_eq_ok_iff, and_assoc, exists_and_left,
    exists_eq_left]
  rfl

theorem perform_defineAction_eq_ok_iff {effects : List Effect} {row : Action} :
    w.perform (defineAction name effects) = (.ok row, w') ↔
      name ∉ w.actions.names ∧ w.checkEffects name effects = .ok () ∧ row = ⟨name, effects⟩ ∧
        w' = { w with actions := w.actions.push ⟨name, effects⟩ } := by
  rw [defineAction, perform_get_bind, perform_check_bind_eq_ok_iff, perform_check_bind_eq_ok_iff,
    perform_lift_bind_eq_ok_iff]
  simp only [Table.ensureVacant_eq_ok_iff, Table.insert_eq_ok_iff, perform_set_pure_eq_ok_iff,
    and_assoc, exists_and_left, exists_eq_left]
  constructor
  · rintro ⟨hnew, hcheck, -, rfl, rfl⟩
    exact ⟨hnew, hcheck, rfl, rfl⟩
  · rintro ⟨hnew, hcheck, rfl, rfl⟩
    exact ⟨hnew, hcheck, hnew, rfl, rfl⟩

theorem perform_defineEntity_eq_ok_iff {slots : List Slot} {actions : List String}
    {row : Entity} :
    w.perform (defineEntity name slots actions) = (.ok row, w') ↔
      ∃ slots', name ∉ w.entities.names ∧ w.checkSlots slots = .ok slots' ∧
        (∀ action ∈ actions, action ∈ w.actions.names) ∧
        row = .ofParts name slots' actions ∧
        w' = { w with entities := w.entities.push (.ofParts name slots' actions) } := by
  rw [defineEntity, perform_get_bind, perform_check_bind_eq_ok_iff, perform_lift_bind_eq_ok_iff]
  simp only [forM_lift, perform_lift_bind_eq_ok_iff, Table.ensureVacant_eq_ok_iff, forM_eq_ok_iff,
    ensureAction_eq_ok_iff, Table.insert_eq_ok_iff, perform_set_pure_eq_ok_iff, and_assoc,
    exists_and_left, exists_eq_left, exists_const]
  constructor
  · rintro ⟨hnew, slots', hslots, hactions, -, rfl, rfl⟩
    exact ⟨hnew, slots', hslots, hactions, rfl, rfl⟩
  · rintro ⟨hnew, slots', hslots, hactions, rfl, rfl⟩
    exact ⟨hnew, slots', hslots, hactions, hnew, rfl, rfl⟩

theorem perform_defineEvent_eq_ok_iff {participants : List String} {script : List Turn}
    {ending : EndCondition} {row : Event} :
    w.perform (defineEvent name participants script ending) = (.ok row, w') ↔
      name ∉ w.events.names ∧ w.checkEvent participants script ending = .ok () ∧
        row = .ofScript name participants script ending ∧
        w' = { w with events := w.events.push (.ofScript name participants script ending) } := by
  rw [defineEvent, perform_get_bind, perform_check_bind_eq_ok_iff, perform_check_bind_eq_ok_iff,
    perform_lift_bind_eq_ok_iff]
  simp only [Table.ensureVacant_eq_ok_iff, Table.insert_eq_ok_iff, perform_set_pure_eq_ok_iff,
    and_assoc, exists_and_left, exists_eq_left]
  constructor
  · rintro ⟨hnew, hcheck, -, rfl, rfl⟩
    exact ⟨hnew, hcheck, rfl, rfl⟩
  · rintro ⟨hnew, hcheck, rfl, rfl⟩
    exact ⟨hnew, hcheck, hnew, rfl, rfl⟩

/-! ## Changing -/

theorem perform_modifyAttribute_eq_ok_iff {newName? : Option String} {newKind? : Option Kind}
    {row : AttributeDef} :
    w.perform (modifyAttribute name newName? newKind?) = (.ok row, w') ↔
      ∃ old, w.attributes.get? name = some old ∧
        (∀ n ∈ newName?, n ≠ name → n ∉ w.attributes.names) ∧
        row = ⟨newName?.getD old.name, newKind?.getD old.kind⟩ ∧
        w' = { w with
          attributes := w.attributes.adjust name fun _ ↦ row
          entities := match newKind? with
            | some kind => w.entities.map (·.relabel name kind)
            | none => w.entities } := by
  rw [modifyAttribute, perform_get_bind, perform_lift_bind_eq_ok_iff]
  simp only [perform_check_bind_eq_ok_iff, Table.get_eq_ok_iff, Table.ensureRenamable_eq_ok_iff,
    perform_set_pure_eq_ok_iff]
  refine exists_congr fun old ↦ and_congr_right fun _ ↦ and_congr_right fun _ ↦ ?_
  exact and_congr_right fun h ↦ by subst h; exact Iff.rfl

/-- A row keeps its name if the new one, if any, is the one it has. -/
theorem getD_eq {newName? : Option String} {oldName : String} (hold : oldName = name)
    (hnew : ∀ n ∈ newName?, n = name) : newName?.getD oldName = name := by
  cases newName? with
  | none => exact hold
  | some n => exact hnew n rfl

/-- An attribute that keeps its name gets another kind at most. -/
theorem eq_retype_of_keeps_name {newName? : Option String} {newKind? : Option Kind}
    {old : AttributeDef} (hold : w.attributes.get? name = some old)
    (hnewName : ∀ n ∈ newName?, n = name) :
    { w with
      attributes := w.attributes.adjust name fun _ ↦
        ⟨newName?.getD old.name, newKind?.getD old.kind⟩
      entities := match newKind? with
        | some kind => w.entities.map (·.relabel name kind)
        | none => w.entities } = (newKind?.map (w.retype name)).getD w := by
  have hname : newName?.getD old.name = name := getD_eq (Table.get?_eq_some hold).2 hnewName
  rw [hname]
  cases newKind? with
  | none =>
    have hrow : (⟨name, old.kind⟩ : AttributeDef) = old :=
      congrArg (AttributeDef.mk · old.kind) (Table.get?_eq_some hold).2.symm
    rw [Option.getD_none, hrow, Table.adjust_of_get? hold]
    rfl
  | some kind => rfl

theorem perform_modifyAction_eq_ok_iff {newName? : Option String}
    {newEffects? : Option (List Effect)} {row : Action} :
    w.perform (modifyAction name newName? newEffects?) = (.ok row, w') ↔
      ∃ old, w.actions.get? name = some old ∧
        (∀ n ∈ newName?, n ≠ name → n ∉ w.actions.names) ∧
        (∀ effects ∈ newEffects?, w.checkEffects (newName?.getD name) effects = .ok ()) ∧
        row = ⟨newName?.getD old.name, newEffects?.getD old.effects⟩ ∧
        w' = { w with actions := w.actions.adjust name fun _ ↦ row } := by
  rw [modifyAction, perform_get_bind, perform_lift_bind_eq_ok_iff]
  simp only [option_forM_lift, perform_check_bind_eq_ok_iff, Table.get_eq_ok_iff,
    Table.ensureRenamable_eq_ok_iff, option_forM_eq_ok_iff, perform_set_pure_eq_ok_iff]
  refine exists_congr fun old ↦ and_congr_right fun _ ↦ and_congr_right fun _ ↦
    and_congr_right fun _ ↦ ?_
  exact and_congr_right fun h ↦ by subst h; exact Iff.rfl

theorem perform_modifyEntity_eq_ok_iff {newName? : Option String}
    {newSlots? : Option (List Slot)} {newActions? : Option (List String)} {row : Entity} :
    w.perform (modifyEntity name newName? newSlots? newActions?) = (.ok row, w') ↔
      ∃ old slots?, w.entities.get? name = some old ∧
        (∀ n ∈ newName?, n ≠ name → n ∉ w.entities.names) ∧
        Option.Rel (fun slots slots' ↦ w.checkSlots slots = .ok slots') newSlots? slots? ∧
        (∀ actions ∈ newActions?, ∀ action ∈ actions, action ∈ w.actions.names) ∧
        row = ⟨newName?.getD old.name, slots?.getD old.slots,
          (newActions?.map List.eraseDups).getD old.actions⟩ ∧
        w' = { w with entities := w.entities.adjust name fun _ ↦ row } := by
  rw [modifyEntity, perform_get_bind, perform_lift_bind_eq_ok_iff]
  simp only [forM_lift, option_mapM_lift, option_forM_lift, perform_lift_bind_eq_ok_iff,
    Table.get_eq_ok_iff, Table.ensureRenamable_eq_ok_iff, option_mapM_eq_ok_iff,
    option_forM_eq_ok_iff, forM_eq_ok_iff, ensureAction_eq_ok_iff, perform_set_pure_eq_ok_iff,
    exists_const, exists_and_left]
  refine exists_congr fun old ↦ ?_
  refine and_congr_right fun _ ↦ and_congr_right fun _ ↦ exists_congr fun slots? ↦
    and_congr_right fun _ ↦ and_congr_right fun _ ↦ ?_
  exact and_congr_right fun h ↦ by subst h; exact Iff.rfl

/-! ## Removing -/

/-- All removals are alike: they ask for the row, and leave its table without it. -/
theorem perform_remove_eq_ok_iff {α : Type} [Named α] {t : Table α} {row : α}
    (write : Table α → RuleSet) :
    w.perform (do
        let removed ← liftM (t.remove name)
        set (write removed.2)
        return removed.1) = (.ok row, w') ↔
      t.get? name = some row ∧ w' = write (t.without name) := by
  rw [perform_lift_bind_eq_ok_iff]
  simp only [Prod.exists, Table.remove_eq_ok_iff, perform_set_pure_eq_ok_iff]
  constructor
  · rintro ⟨a, t', ⟨ha, rfl⟩, rfl, rfl⟩
    exact ⟨ha, rfl⟩
  · rintro ⟨ha, rfl⟩
    exact ⟨row, _, ⟨ha, rfl⟩, rfl, rfl⟩

theorem perform_removeAttribute_eq_ok_iff {row : AttributeDef} :
    w.perform (removeAttribute name) = (.ok row, w') ↔
      w.attributes.get? name = some row ∧
        w' = { w with attributes := w.attributes.without name } := by
  rw [removeAttribute, perform_get_bind]
  exact perform_remove_eq_ok_iff fun attributes ↦ { w with attributes }

theorem perform_removeAction_eq_ok_iff {row : Action} :
    w.perform (removeAction name) = (.ok row, w') ↔
      w.actions.get? name = some row ∧ w' = { w with actions := w.actions.without name } := by
  rw [removeAction, perform_get_bind]
  exact perform_remove_eq_ok_iff fun actions ↦ { w with actions }

theorem perform_removeEntity_eq_ok_iff {row : Entity} :
    w.perform (removeEntity name) = (.ok row, w') ↔
      w.entities.get? name = some row ∧ w' = { w with entities := w.entities.without name } := by
  rw [removeEntity, perform_get_bind]
  exact perform_remove_eq_ok_iff fun entities ↦ { w with entities }

theorem perform_removeEvent_eq_ok_iff {row : Event} :
    w.perform (removeEvent name) = (.ok row, w') ↔
      w.events.get? name = some row ∧ w' = { w with events := w.events.without name } := by
  rw [removeEvent, perform_get_bind]
  exact perform_remove_eq_ok_iff fun events ↦ { w with events }

end RuleSet

end Tabletop
