import Tabletop.Proofs.Document.Build
import Tabletop.Proofs.RuleSet.Atomic
import Tabletop.Proofs.RuleSet.Play

/-!
# What one operation can do

An operation leaves a rule set as it was, or it changes it in the one way that it is for, and then
it was given all that it asks for (`step_after`). Whatever holds of all rule sets that operations
lead to is proved along these steps, without opening operations again.

What is to be known of every entity, or of every event, wherever it comes from, needs fewer cases
still. Entities come from slots that were checked, and are changed by effects and by new kinds
(`Step.forall_entities`); events come from checks, and after that only their progress changes
(`Step.forall_events`).
-/

namespace Tabletop

namespace RuleSet

variable {w : RuleSet}

/-! ## Events that are played -/

/-- The run of an event that has its row in a rule set, while it is the one that is played. -/
def runRow (w : RuleSet) (e : Event) : Except RuleError Unit × Event × RuleSet :=
  { w with running := some e.name }.runEvent { e with status := .running }

/-- What the run of an event leaves behind when the event is back in its row. -/
def played (w : RuleSet) (e : Event) : RuleSet :=
  { (w.runRow e).2.2 with
    events := (w.runRow e).2.2.events.put ((w.runRow e).2.1.finish (w.runRow e).1)
    running := none }

/-- A run puts some entities in their places, and its event with other progress. -/
theorem played_frame (w : RuleSet) (e : Event) :
    ∃ ms e', w.played e =
        { w with
          entities := w.entities.putAll ms
          events := w.events.put e'
          running := none } ∧
      e'.reset = e.reset := by
  obtain ⟨ms, hframe⟩ := playOn_frame { w with running := some e.name }
    { e with status := .running } (e.script.drop e.turnIndex)
  change (w.runRow e).2.2 = _ at hframe
  refine ⟨ms, (w.runRow e).2.1.finish (w.runRow e).1, ?_, runEvent_reset _ _⟩
  rw [played, hframe]

/-- What survives every use survives a run. -/
theorem runRow_induct {P : RuleSet → Prop} {e : Event}
    (huse : ∀ user action targets, Preserves P (useAction user action targets))
    (hw : P { w with running := some e.name }) : P (w.runRow e).2.2 :=
  playOn_induct (fun w turn ↦ preserves_playTurn huse turn w) hw _

/-! ## Steps -/

/-- What an operation may make of a rule set. -/
inductive Step (w : RuleSet) : Op → RuleSet → Prop where
  /-- Nothing is changed. -/
  | kept {op : Op} : Step w op w
  /-- The rule set gets another name. -/
  | rename {name : String} : Step w (.rename name) { w with name }
  /-- A vacant name gets an attribute. -/
  | defineAttribute {name : String} {kind : Kind} :
    name ∉ w.attributes.names →
    Step w (.defineAttribute name kind)
      { w with attributes := w.attributes.push ⟨name, kind⟩ }
  /-- A vacant name gets an action with effects that pass. -/
  | defineAction {name : String} {effects : List Effect} :
    name ∉ w.actions.names → w.checkEffects name effects = .ok () →
    Step w (.defineAction name effects) { w with actions := w.actions.push ⟨name, effects⟩ }
  /-- A vacant name gets an entity with slots that pass and actions that are there. -/
  | defineEntity {name : String} {slots slots' : List Slot} {actions : List String} :
    name ∉ w.entities.names → w.checkSlots slots = .ok slots' →
    (∀ action ∈ actions, action ∈ w.actions.names) →
    Step w (.defineEntity name slots actions)
      { w with entities := w.entities.push (.ofParts name slots' actions) }
  /-- A vacant name gets an event that passes. -/
  | defineEvent {name : String} {participants : List String} {script : List Turn}
      {ending : EndCondition} :
    name ∉ w.events.names → w.checkEvent participants script ending = .ok () →
    Step w (.defineEvent name participants script ending)
      { w with events := w.events.push (.ofScript name participants script ending) }
  /-- An attribute gets another name, if that is vacant, or another kind, and then the slots of
  entities get it with it. -/
  | modifyAttribute {name : String} {newName? : Option String} {newKind? : Option Kind}
      {old : AttributeDef} :
    w.attributes.get? name = some old → (∀ n ∈ newName?, n ≠ name → n ∉ w.attributes.names) →
    Step w (.modifyAttribute name newName? newKind?)
      { w with
        attributes := w.attributes.adjust name fun _ ↦
          ⟨newName?.getD old.name, newKind?.getD old.kind⟩
        entities := match newKind? with
          | some kind => w.entities.map (·.relabel name kind)
          | none => w.entities }
  /-- An action gets another name, if that is vacant, or other effects that pass. -/
  | modifyAction {name : String} {newName? : Option String} {newEffects? : Option (List Effect)}
      {old : Action} :
    w.actions.get? name = some old → (∀ n ∈ newName?, n ≠ name → n ∉ w.actions.names) →
    (∀ effects ∈ newEffects?, w.checkEffects (newName?.getD name) effects = .ok ()) →
    Step w (.modifyAction name newName? newEffects?)
      { w with actions := w.actions.adjust name fun _ ↦
          ⟨newName?.getD old.name, newEffects?.getD old.effects⟩ }
  /-- An entity gets another name, if that is vacant, other slots that pass, or other actions that
  are there. -/
  | modifyEntity {name : String} {newName? : Option String} {newSlots? slots? : Option (List Slot)}
      {newActions? : Option (List String)} {old : Entity} :
    w.entities.get? name = some old → (∀ n ∈ newName?, n ≠ name → n ∉ w.entities.names) →
    Option.Rel (fun slots slots' ↦ w.checkSlots slots = .ok slots') newSlots? slots? →
    (∀ actions ∈ newActions?, ∀ action ∈ actions, action ∈ w.actions.names) →
    Step w (.modifyEntity name newName? newSlots? newActions?)
      { w with entities := w.entities.adjust name fun _ ↦
          ⟨newName?.getD old.name, slots?.getD old.slots,
            (newActions?.map List.eraseDups).getD old.actions⟩ }
  /-- An attribute is taken out. -/
  | removeAttribute {name : String} :
    Step w (.removeAttribute name) { w with attributes := w.attributes.without name }
  /-- An action is taken out. -/
  | removeAction {name : String} :
    Step w (.removeAction name) { w with actions := w.actions.without name }
  /-- An entity is taken out. -/
  | removeEntity {name : String} :
    Step w (.removeEntity name) { w with entities := w.entities.without name }
  /-- An event is taken out. -/
  | removeEvent {name : String} :
    Step w (.removeEvent name) { w with events := w.events.without name }
  /-- The working copies of a use are put back. -/
  | useAction {user action : String} {targets : List String} {o : Outcome} :
    w.rehearse user action targets = .ok o →
    Step w (.useAction user action targets)
      { w with entities := w.entities.putAll o.cast.members }
  /-- An event that is not finished is played while no other one is. -/
  | startEvent {name : String} {e : Event} :
    w.events.get? name = some e → w.running = none → e.status ≠ .finished →
    Step w (.startEvent name) (w.played e)
  /-- An event is brought back to where it has not started. -/
  | resetEvent {name : String} :
    Step w (.resetEvent name) { w with events := w.events.adjust name Event.reset }
  /-- What a document describes takes the place of the rule set. -/
  | load {d : Document} {w' : RuleSet} : d.build = .ok w' → Step w (.load d) w'

/-- **Every operation makes a step**, be it a success or a failure. -/
theorem step_after (w : RuleSet) (op : Op) : w.Step op (w.after op) := by
  cases op with
  | rename name => exact .rename
  | defineAttribute name kind =>
    refine (keeps_defineAttribute name kind).after .kept fun _ _ hok ↦ ?_
    obtain ⟨hnew, -, rfl⟩ := perform_defineAttribute_eq_ok_iff.mp hok
    exact .defineAttribute hnew
  | defineAction name effects =>
    refine (keeps_defineAction name effects).after .kept fun _ _ hok ↦ ?_
    obtain ⟨hnew, hcheck, -, rfl⟩ := perform_defineAction_eq_ok_iff.mp hok
    exact .defineAction hnew hcheck
  | defineEntity name slots actions =>
    refine (keeps_defineEntity name slots actions).after .kept fun _ _ hok ↦ ?_
    obtain ⟨slots', hnew, hslots, hactions, -, rfl⟩ := perform_defineEntity_eq_ok_iff.mp hok
    exact .defineEntity hnew hslots hactions
  | defineEvent name participants script ending =>
    refine (keeps_defineEvent name participants script ending).after .kept fun _ _ hok ↦ ?_
    obtain ⟨hnew, hcheck, -, rfl⟩ := perform_defineEvent_eq_ok_iff.mp hok
    exact .defineEvent hnew hcheck
  | modifyAttribute name newName? newKind? =>
    refine (keeps_modifyAttribute name newName? newKind?).after .kept fun _ _ hok ↦ ?_
    obtain ⟨old, hold, hnew, rfl, rfl⟩ := perform_modifyAttribute_eq_ok_iff.mp hok
    exact .modifyAttribute hold hnew
  | modifyAction name newName? newEffects? =>
    refine (keeps_modifyAction name newName? newEffects?).after .kept fun _ _ hok ↦ ?_
    obtain ⟨old, hold, hnew, hcheck, rfl, rfl⟩ := perform_modifyAction_eq_ok_iff.mp hok
    exact .modifyAction hold hnew hcheck
  | modifyEntity name newName? newSlots? newActions? =>
    refine (keeps_modifyEntity name newName? newSlots? newActions?).after .kept fun _ _ hok ↦ ?_
    obtain ⟨old, slots?, hold, hnew, hslots, hactions, rfl, rfl⟩ :=
      perform_modifyEntity_eq_ok_iff.mp hok
    exact .modifyEntity hold hnew hslots hactions
  | removeAttribute name =>
    refine (keeps_removeAttribute name).after .kept fun _ _ hok ↦ ?_
    obtain ⟨-, rfl⟩ := perform_removeAttribute_eq_ok_iff.mp hok
    exact .removeAttribute
  | removeAction name =>
    refine (keeps_removeAction name).after .kept fun _ _ hok ↦ ?_
    obtain ⟨-, rfl⟩ := perform_removeAction_eq_ok_iff.mp hok
    exact .removeAction
  | removeEntity name =>
    refine (keeps_removeEntity name).after .kept fun _ _ hok ↦ ?_
    obtain ⟨-, rfl⟩ := perform_removeEntity_eq_ok_iff.mp hok
    exact .removeEntity
  | removeEvent name =>
    refine (keeps_removeEvent name).after .kept fun _ _ hok ↦ ?_
    obtain ⟨-, rfl⟩ := perform_removeEvent_eq_ok_iff.mp hok
    exact .removeEvent
  | useAction user action targets =>
    change w.Step _ (w.perform (RuleSet.useAction user action targets)).2
    rw [perform_useAction]
    cases ho : w.rehearse user action targets with
    | error err => exact .kept
    | ok o => exact .useAction ho
  | startEvent name =>
    change w.Step _ (w.perform (RuleSet.startEvent name)).2
    rw [perform_startEvent]
    split
    · exact .kept
    · exact .kept
    · rename_i e hget hidle
      split
      · exact .kept
      · exact .startEvent hget hidle ‹_›
  | resetEvent name =>
    refine (keeps_resetEvent name).after .kept fun _ _ hok ↦ ?_
    obtain ⟨-, rfl⟩ := perform_resetEvent_eq_ok_iff.mp hok
    exact .resetEvent
  | load d =>
    exact (keeps_load d).after .kept fun _ _ hok ↦ .load (perform_load_eq_ok_iff.mp hok)

/-! ## What every step keeps of entities and events -/

/-- What every effect preserves survives a run. -/
theorem forall_mem_played {P : Entity → Prop} (h : ∀ m ∈ w.entities.rows, P m)
    (heffects : ∀ a ∈ w.actions.rows, ∀ f ∈ a.effects, f.Preserves P) (e : Event) :
    ∀ m ∈ (w.played e).entities.rows, P m := by
  -- uses leave the actions as they are, so the effects are the same in every turn
  have huse : ∀ user action targets,
      Preserves (fun v ↦ v.actions = w.actions ∧ ∀ m ∈ v.entities.rows, P m)
        (useAction user action targets) := by
    rintro user action targets v ⟨hactions, hv⟩
    rw [perform_useAction]
    cases ho : v.rehearse user action targets with
    | error err => exact ⟨hactions, hv⟩
    | ok o =>
      exact ⟨hactions, Table.forall_mem_putAll hv (forall_mem_rehearse hv (hactions ▸ heffects) ho)⟩
  exact (runRow_induct (e := e) huse ⟨rfl, h⟩).2

/-- **One step for entities.** What is known of checked slots and of actions that are told apart,
and survives effects and new kinds, holds of every entity that an operation leaves behind. -/
theorem Step.forall_entities {w' : RuleSet} {op : Op} {S : List Slot → Prop}
    {A : List String → Prop} (hstep : w.Step op w')
    (h : ∀ e ∈ w.entities.rows, S e.slots ∧ A e.actions)
    (hslots : ∀ v : RuleSet, ∀ slots slots', v.checkSlots slots = .ok slots' → S slots')
    (hactions : ∀ actions : List String, A actions.eraseDups)
    (heffects : ∀ a ∈ w.actions.rows, ∀ f ∈ a.effects, f.Preserves fun m ↦ S m.slots)
    (hrelabel : ∀ name newName? kind old, op = .modifyAttribute name newName? (some kind) →
      w.attributes.get? name = some old → (∀ n ∈ newName?, n ≠ name → n ∉ w.attributes.names) →
      ∀ e ∈ w.entities.rows, S (e.relabel name kind).slots) :
    ∀ e ∈ w'.entities.rows, S e.slots ∧ A e.actions := by
  -- effects leave the actions of entities alone
  have hboth : ∀ a ∈ w.actions.rows, ∀ f ∈ a.effects,
      f.Preserves fun m ↦ S m.slots ∧ A m.actions :=
    fun a ha f hf user target amount m s after hm hamount hs hafter ↦
      ⟨heffects a ha f hf user target amount m s after hm.1 hamount hs hafter, hm.2⟩
  cases hstep with
  | defineEntity _ hcheck _ =>
    exact Table.forall_mem_push h ⟨hslots w _ _ hcheck, hactions _⟩
  | @modifyAttribute name newName? newKind? old hold hnew =>
    cases newKind? with
    | none => exact h
    | some kind =>
      exact List.forall_mem_map.mpr fun e he ↦
        ⟨hrelabel name newName? kind old rfl hold hnew e he, (h e he).2⟩
  | @modifyEntity _ _ newSlots? slots? newActions? old hold _ hcheck _ =>
    obtain ⟨hS, hA⟩ := h old (Table.get?_eq_some hold).1
    refine Table.forall_mem_adjust h fun _ _ ↦ ⟨?_, ?_⟩
    · cases hcheck with
      | none => exact hS
      | some hcheck => exact hslots w _ _ hcheck
    · cases newActions? with
      | none => exact hA
      | some actions => exact hactions actions
  | removeEntity => exact Table.forall_mem_without h
  | useAction ho => exact Table.forall_mem_putAll h (forall_mem_rehearse h hboth ho)
  | @startEvent _ e _ _ _ => exact forall_mem_played h hboth e
  | load hbuild =>
    intro e he
    have hfits := (Document.atRest_of_build hbuild).sound.fits e he
    refine ⟨hslots _ _ _ (checkSlots_of_fits hfits.nodup_slots hfits.slots), ?_⟩
    rw [← eraseDups_of_nodup hfits.nodup_actions]
    exact hactions e.actions
  | _ => exact h

/-- **One step for events.** What is known of checked events, whatever their progress, holds of
every event that an operation leaves behind. -/
theorem Step.forall_events {w' : RuleSet} {op : Op} {P : Event → Prop} (hstep : w.Step op w')
    (h : ∀ e ∈ w.events.rows, P e)
    (hreset : ∀ e e' : Event, e.reset = e'.reset → P e' → P e)
    (hcheck : ∀ (v : RuleSet) (e : Event),
      v.checkEvent e.participants e.script e.ending = .ok () → P e) :
    ∀ e ∈ w'.events.rows, P e := by
  cases hstep with
  | defineEvent _ hevent => exact Table.forall_mem_push h (hcheck w _ hevent)
  | removeEvent => exact Table.forall_mem_without h
  | @startEvent _ e hget _ _ =>
    obtain ⟨ms, e', hframe, hprogress⟩ := w.played_frame e
    rw [hframe]
    exact Table.forall_mem_put h (hreset e' e hprogress (h e (Table.get?_eq_some hget).1))
  | resetEvent =>
    exact Table.forall_mem_adjust h fun e he ↦ hreset _ e rfl (h e (Table.get?_eq_some he).1)
  | load hbuild =>
    have hsound := (Document.atRest_of_build hbuild).sound
    exact fun e he ↦ hcheck _ e (hsound.scripts e he)
  | _ => exact h

end RuleSet

end Tabletop
