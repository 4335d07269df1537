import Tabletop.Proofs.Document.Build
import Tabletop.Proofs.RuleSet.Atomic

/-!
# Rule sets that can be loaded again

An operation is non-breaking if it leaves whole what rows refer to: it may define rows, change them
under their names, use actions and run events, but it neither renames nor removes what can be
referred to, and changes the kind of an attribute only between the two kinds that hold numbers. A
rule set that was made by such operations is loaded from its own document, and comes back as it was,
with events that have not started.
-/

namespace Tabletop

/-- Whether an operation, performed on a rule set, leaves whole what rows refer to. -/
def Op.NonBreaking (w : RuleSet) : Op → Prop
  | modifyAttribute name newName? newKind? =>
    (∀ n ∈ newName?, n = name) ∧
      ∀ old, w.attributes.get? name = some old → ∀ kind ∈ newKind?, old.kind.Alike kind
  | modifyAction name newName? _ | modifyEntity name newName? _ _ => ∀ n ∈ newName?, n = name
  | removeAttribute _ | removeAction _ | removeEntity _ => False
  | _ => True

namespace RuleSet

/-- The rule sets that non-breaking operations lead to, from empty ones. -/
inductive Grown : RuleSet → Prop where
  /-- A new rule set. -/
  | empty (name : String) : Grown (.empty name)
  /-- One more operation, whether it succeeds or fails. -/
  | after {w : RuleSet} (op : Op) : Grown w → op.NonBreaking w → Grown (w.after op)

variable {w : RuleSet}

/-- **One step.** A non-breaking operation keeps a rule set at rest, even if it fails. -/
theorem AtRest.after (h : w.AtRest) {op : Op} (hop : op.NonBreaking w) : (w.after op).AtRest := by
  cases op with
  | rename name => exact ⟨h.sound.with_name name, h.idle⟩
  | defineAttribute name kind =>
    exact (keeps_defineAttribute name kind).after h fun _ _ ↦ h.defineAttribute
  | defineAction name effects =>
    exact (keeps_defineAction name effects).after h fun _ _ ↦ h.defineAction
  | defineEntity name slots actions =>
    exact (keeps_defineEntity name slots actions).after h fun _ _ ↦ h.defineEntity
  | defineEvent name participants script ending =>
    exact (keeps_defineEvent name participants script ending).after h fun _ _ ↦ h.defineEvent
  | modifyAttribute name newName? newKind? =>
    exact (keeps_modifyAttribute name newName? newKind?).after h fun _ _ ↦
      h.modifyAttribute hop.1 hop.2
  | modifyAction name newName? newEffects? =>
    exact (keeps_modifyAction name newName? newEffects?).after h fun _ _ ↦ h.modifyAction hop
  | modifyEntity name newName? newSlots? newActions? =>
    exact (keeps_modifyEntity name newName? newSlots? newActions?).after h fun _ _ ↦
      h.modifyEntity hop
  | removeAttribute name | removeAction name | removeEntity name => exact hop.elim
  | removeEvent name => exact (keeps_removeEvent name).after h fun _ _ ↦ h.removeEvent
  | useAction user action targets => exact h.useAction user action targets
  | startEvent name => exact h.startEvent name
  | resetEvent name => exact (keeps_resetEvent name).after h fun _ _ ↦ h.resetEvent
  | load d =>
    exact (keeps_load d).after h fun _ _ hok ↦
      Document.atRest_of_build (perform_load_eq_ok_iff.mp hok)

/-- **Every run.** Non-breaking operations lead to sound rule sets, and leave no event running. -/
theorem Grown.atRest (h : w.Grown) : w.AtRest := by
  induction h with
  | empty name => exact .empty name
  | after op _ hop ih => exact ih.after hop

/-- **What only grew can be loaded again.** The document of a rule set that was made by non-breaking
operations loads, and what it gives back is the rule set itself, with events that have not
started. -/
theorem load_document (h : w.Grown) :
    w.perform (load w.document) = (.ok (), { w with events := w.events.map Event.reset }) := by
  have hbuild := h.atRest.sound.build_document
  rw [← h.atRest.idle] at hbuild
  rw [load, hbuild]
  rfl

/-- A village that has been played in. Ann has cheered herself, her purse is counted in shares by
now, and there was a feast. -/
def village : RuleSet :=
  [.defineAttribute "purse" .number, .defineAttribute "mood" .text,
    .defineAction "cheer" [⟨"mood", .single, .assign, .literal (.text "glad"), none⟩],
    .defineEntity "Ann" [⟨"purse", .number, .number (.ofInt 3)⟩, ⟨"mood", .text, .text "calm"⟩]
      ["cheer"],
    .modifyAttribute "purse" none (some .percent), .useAction "Ann" "cheer" ["Ann"],
    .defineEvent "feast" ["Ann"] [.act "Ann" "cheer" ["Ann"], .say "Ann" "Hear, hear!"]
      (.turnCount .ge 1),
    .startEvent "feast", .removeEvent "fair"].foldl after (.empty "village")

theorem load_document_village :
    (village.Grown ∧ village.events.rows.map Event.turnIndex = [1]) ∧
      village.perform (load village.document) =
        (.ok (), { village with events := village.events.map Event.reset }) := by
  -- one step asks something of the rule set: that the purse held numbers
  have hkind : ∀ w : RuleSet, w.attributes.get? "purse" = some ⟨"purse", .number⟩ →
      (Op.modifyAttribute "purse" none (some .percent)).NonBreaking w := by
    refine fun w hw ↦ ⟨fun _ hn ↦ absurd hn (Option.not_mem_none _), fun old hold kind hkind ↦ ?_⟩
    obtain rfl : ⟨"purse", .number⟩ = old := Option.some.inj (hw.symm.trans hold)
    obtain rfl : .percent = kind := Option.some.inj hkind
    exact .inr ⟨rfl, rfl⟩
  have hgrown : village.Grown :=
    .after _ (.after _ (.after _ (.after _ (.after _ (.after _ (.after _ (.after _ (.after _
      (.empty "village") trivial) trivial) trivial) trivial) (hkind _ (by decide +kernel)))
      trivial) trivial) trivial) trivial
  exact ⟨⟨hgrown, by decide +kernel⟩, load_document hgrown⟩

end RuleSet

end Tabletop
