import Tabletop.Proofs.Action.Direct
import Tabletop.Proofs.RuleSet.UseAction

/-!
# Using an action directly

`RuleSet.useDirectly` is what a use of an action is meant to be: the same checks first, and then the
direct run on the table of entities. A use does exactly that (`perform_useAction_of_direct`). The
names need not be unique for it, since a name stands for the first row of that name on both sides.
-/

namespace Tabletop

namespace RuleSet

/-- Has an entity use an action, on the table of entities itself. -/
def useDirectly (w : RuleSet) (user action : String) (targets : List String) :
    Except RuleError DirectRun := do
  let e ← w.knownEntity user
  let a ← w.knownAction action
  e.ensureCanUse a
  targets.forM fun name ↦ discard (w.knownEntity name)
  DirectRun.run a user targets w.entities

/-- The entities of a list of names, and the check that there are such. -/
theorem agree_knownEntities (w : RuleSet) (names : List String) :
    Agree (fun es _ ↦ (∀ e ∈ es, w.entities.get? e.name = some e) ∧ es.map Entity.name = names)
      (names.mapM (w.knownEntity ·)) (names.forM fun name ↦ discard (w.knownEntity name)) := by
  induction names with
  | nil => exact .ok ⟨fun e he ↦ absurd he List.not_mem_nil, rfl⟩
  | cons name names ih =>
    rw [List.mapM_cons]
    change Agree _ _ (discard (w.knownEntity name) >>= fun _ ↦ names.forM _)
    cases hfound : w.knownEntity name with
    | error e => exact .error e
    | ok e =>
      have hget : w.entities.get? name = some e := knownEntity_eq_ok_iff.mp hfound
      obtain rfl : e.name = name := (Table.get?_eq_some hget).2
      change Agree _ (names.mapM (w.knownEntity ·) >>= fun es ↦ .ok (e :: es))
        (names.forM fun name ↦ discard (w.knownEntity name))
      -- both sides go on with the names that follow, which the induction compares
      generalize names.mapM (w.knownEntity ·) = x,
        (names.forM fun name ↦ discard (w.knownEntity name)) = y at ih ⊢
      cases ih with
      | error err => exact .error err
      | ok h =>
        obtain ⟨hes, hnames⟩ := h
        exact .ok ⟨List.forall_mem_cons.mpr ⟨hget, hes⟩, congrArg _ hnames⟩

/-- The working copies that a use ends with, put in their places, are the entities that the direct
use ends with. -/
theorem agree_rehearse (w : RuleSet) (user action : String) (targets : List String) :
    Agree (fun o r ↦ r = ⟨w.entities.putAll o.cast.members, o.changes, o.skipped⟩)
      (w.rehearse user action targets) (w.useDirectly user action targets) := by
  rw [rehearse, useDirectly]
  cases huser : w.knownEntity user with
  | error err => exact .error err
  | ok e =>
    have hget : w.entities.get? user = some e := knownEntity_eq_ok_iff.mp huser
    obtain rfl : e.name = user := (Table.get?_eq_some hget).2
    change Agree _ (w.knownAction action >>= fun a ↦ _) (w.knownAction action >>= fun a ↦ _)
    -- the look-up of the action and the right to use it are the same check on both sides
    refine .bind_same fun a ↦ ?_
    refine .bind_same fun _ ↦ ?_
    refine (agree_knownEntities w targets).bind fun es _ hes ↦ ?_
    obtain ⟨hes, rfl⟩ := hes
    refine (a.agree_apply hget hes).mono fun o r h ↦ ?_
    cases r
    rw [DirectRun.mk.injEq]
    exact ⟨h.entities, h.changes, h.skipped⟩

/-- **Uses refine direct uses.** Both fail with the same error, or they leave the same entities and
report the same changes and the same number of skipped effects. -/
theorem perform_useAction_of_direct (w : RuleSet) (user action : String) (targets : List String) :
    match w.useDirectly user action targets with
    | .error e => w.perform (useAction user action targets) = (.error e, w)
    | .ok r => ∃ c, w.perform (useAction user action targets) =
        (.ok ⟨c, r.changes, r.skipped⟩, { w with entities := r.entities }) := by
  rw [perform_useAction]
  have h := w.agree_rehearse user action targets
  generalize w.rehearse user action targets = x, w.useDirectly user action targets = y at h ⊢
  cases h with
  | error e => rfl
  | @ok o r hr =>
    subst hr
    exact ⟨o.cast, rfl⟩

end RuleSet

end Tabletop
