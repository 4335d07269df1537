import Tabletop.Proofs.RuleSet.Operation
import Tabletop.Proofs.RuleSet.UseAction
import Tabletop.RuleSet.Edit

/-!
# All or nothing

An operation that fails leaves the rule set as it was. Every operation but two checks all it needs
before its only write, so there is nothing to undo. The two others write more often. A use of an
action writes one working copy after the other, and would stop half way at a copy without a row;
there is no such copy. A run of an event keeps what was played before the turn that failed, on
purpose, and is not covered here.
-/

namespace Tabletop

namespace RuleSet

variable {w : RuleSet}

/-! ## Defining -/

theorem keeps_defineAttribute (name : String) (kind : Kind) : w.Keeps (defineAttribute name kind) :=
  .get_bind <| .lift_bind fun _ _ ↦ .set_pure

theorem keeps_defineAction (name : String) (effects : List Effect) :
    w.Keeps (defineAction name effects) :=
  .get_bind <| .lift_bind fun _ _ ↦ .lift_bind fun _ _ ↦ .lift_bind fun _ _ ↦ .set_pure

theorem keeps_defineEntity (name : String) (slots : List Slot) (actions : List String) :
    w.Keeps (defineEntity name slots actions) := by
  refine .get_bind <| .lift_bind fun _ _ ↦ .lift_bind fun _ _ ↦ ?_
  rw [forM_lift]
  exact .lift_bind fun _ _ ↦ .lift_bind fun _ _ ↦ .set_pure

theorem keeps_defineEvent (name : String) (participants : List String) (script : List Turn)
    (ending : EndCondition) : w.Keeps (defineEvent name participants script ending) :=
  .get_bind <| .lift_bind fun _ _ ↦ .lift_bind fun _ _ ↦ .lift_bind fun _ _ ↦ .set_pure

/-! ## Changing -/

theorem keeps_modifyAttribute (name : String) (newName? : Option String)
    (newKind? : Option Kind) : w.Keeps (modifyAttribute name newName? newKind?) :=
  .get_bind <| .lift_bind fun _ _ ↦ .lift_bind fun _ _ ↦ .set_pure

theorem keeps_modifyAction (name : String) (newName? : Option String)
    (newEffects? : Option (List Effect)) : w.Keeps (modifyAction name newName? newEffects?) := by
  refine .get_bind <| .lift_bind fun _ _ ↦ .lift_bind fun _ _ ↦ ?_
  rw [option_forM_lift]
  exact .lift_bind fun _ _ ↦ .set_pure

theorem keeps_modifyEntity (name : String) (newName? : Option String)
    (newSlots? : Option (List Slot)) (newActions? : Option (List String)) :
    w.Keeps (modifyEntity name newName? newSlots? newActions?) := by
  refine .get_bind <| .lift_bind fun _ _ ↦ .lift_bind fun _ _ ↦ ?_
  simp only [forM_lift]
  rw [option_mapM_lift, option_forM_lift]
  exact .lift_bind fun _ _ ↦ .lift_bind fun _ _ ↦ .set_pure

/-! ## Removing -/

theorem keeps_removeAttribute (name : String) : w.Keeps (removeAttribute name) :=
  .get_bind <| .lift_bind fun _ _ ↦ .set_pure

theorem keeps_removeAction (name : String) : w.Keeps (removeAction name) :=
  .get_bind <| .lift_bind fun _ _ ↦ .set_pure

theorem keeps_removeEntity (name : String) : w.Keeps (removeEntity name) :=
  .get_bind <| .lift_bind fun _ _ ↦ .set_pure

theorem keeps_removeEvent (name : String) : w.Keeps (removeEvent name) :=
  .get_bind <| .lift_bind fun _ _ ↦ .set_pure

/-! ## Playing and loading -/

theorem keeps_useAction (user action : String) (targets : List String) :
    w.Keeps (useAction user action targets) := by
  intro e w' h
  exact (perform_useAction_eq_error_iff.mp h).2

theorem keeps_resetEvent (name : String) : w.Keeps (resetEvent name) :=
  .get_bind <| .lift_bind fun _ _ ↦ .of_ok (perform_set _ _)

theorem keeps_load (d : Document) : w.Keeps (load d) :=
  .lift_bind fun _ _ ↦ .of_ok (perform_set _ _)

theorem keeps_edit {op : Op} (h : ¬op.RunsEvent) : w.Keeps op.edit := by
  cases op with
  | rename name => exact .of_ok (perform_modify w _)
  | defineAttribute name kind => exact keeps_defineAttribute name kind
  | defineAction name effects => exact keeps_defineAction name effects
  | defineEntity name slots actions => exact keeps_defineEntity name slots actions
  | defineEvent name participants script ending =>
    exact keeps_defineEvent name participants script ending
  | modifyAttribute name newName? newKind? => exact keeps_modifyAttribute name newName? newKind?
  | modifyAction name newName? newEffects? => exact keeps_modifyAction name newName? newEffects?
  | modifyEntity name newName? newSlots? newActions? =>
    exact keeps_modifyEntity name newName? newSlots? newActions?
  | removeAttribute name => exact keeps_removeAttribute name
  | removeAction name => exact keeps_removeAction name
  | removeEntity name => exact keeps_removeEntity name
  | removeEvent name => exact keeps_removeEvent name
  | useAction user action targets => exact keeps_useAction user action targets
  | startEvent name => exact absurd trivial h
  | resetEvent name => exact keeps_resetEvent name
  | load d => exact keeps_load d

/-- **All or nothing.** An operation that fails, a run of an event apart, leaves the rule set as it
was. And once the effects of an action have been carried out on the working copies, all the copies
are written back: no write fails after others were made. -/
theorem all_or_nothing (w : RuleSet) :
    (∀ op : Op, ¬op.RunsEvent → ∀ e w', w.perform op.edit = (.error e, w') → w' = w) ∧
      ∀ user action targets u a ts o,
        w.knownEntity user = .ok u → w.knownAction action = .ok a →
        u.ensureCanUse a = .ok () → targets.mapM (w.knownEntity ·) = .ok ts →
        a.apply u ts = .ok o →
        w.perform (o.cast.members.forM commit) =
            (.ok (), { w with entities := w.entities.putAll o.cast.members }) ∧
          w.perform (useAction user action targets) =
            (.ok o, { w with entities := w.entities.putAll o.cast.members }) := by
  refine ⟨fun op hop ↦ keeps_edit hop, fun user action targets u a ts o hu ha hcan hts ho ↦ ?_⟩
  -- what is assumed are the steps of the rehearsal, one by one
  have hr : w.rehearse user action targets = .ok o := by
    refine bind_eq_ok_iff.mpr ⟨u, hu, bind_eq_ok_iff.mpr ⟨a, ha, ?_⟩⟩
    exact check_bind_eq_ok_iff.mpr ⟨hcan, bind_eq_ok_iff.mpr ⟨ts, hts, ho⟩⟩
  refine ⟨perform_forM_commit (name_mem_names_of_rehearse hr), ?_⟩
  rw [perform_useAction, hr]

/-! ## A failure half way -/

/-- Two entities. `tease` changes the mood of its target first, and then fails since its user has no
title; `greet` does the first half only. -/
def banter : RuleSet where
  name := "banter"
  attributes := ⟨.attr, [⟨"mood", .text⟩, ⟨"title", .text⟩]⟩
  actions := ⟨.action,
    [⟨"tease", [⟨"mood", .single, .assign, .literal (.text "cross"), none⟩,
      ⟨"title", .user, .assign, .literal (.text "jester"), none⟩]⟩,
      ⟨"greet", [⟨"mood", .single, .assign, .literal (.text "glad"), none⟩]⟩]⟩
  entities := ⟨.entity,
    [⟨"Ann", [], ["tease", "greet"]⟩, ⟨"Bob", [⟨"mood", .text, .text "calm"⟩], []⟩]⟩
  events := .empty .event
  running := none

theorem all_or_nothing_banter :
    (banter.perform (Op.useAction "Ann" "tease" ["Bob"]).edit =
        (.error (.unknownAttribute "title" (.entity "Ann")),
          banter.after (.useAction "Ann" "tease" ["Bob"])) ∧
      banter.after (.useAction "Ann" "tease" ["Bob"]) = banter) ∧
    ∃ o, banter.perform (useAction "Ann" "greet" ["Bob"]) =
      (.ok o, { banter with entities := banter.entities.putAll o.cast.members }) := by
  have hfail : banter.perform (Op.useAction "Ann" "tease" ["Bob"]).edit =
      (.error (.unknownAttribute "title" (.entity "Ann")),
        banter.after (.useAction "Ann" "tease" ["Bob"])) := by
    rfl
  have hkept : banter.after (.useAction "Ann" "tease" ["Bob"]) = banter :=
    (all_or_nothing banter).1 (.useAction "Ann" "tease" ["Bob"]) id _ _ hfail
  exact ⟨⟨hfail, hkept⟩, _,
    ((all_or_nothing banter).2 "Ann" "greet" ["Bob"] _ _ _ _ rfl rfl rfl rfl rfl).2⟩

end RuleSet

end Tabletop
