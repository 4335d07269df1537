import Tabletop.Proofs.Action.Failure
import Tabletop.Proofs.Action.Cast
import Tabletop.Proofs.RuleSet.Perform
import Tabletop.RuleSet.Play

/-!
# Using an action, in two halves

`RuleSet.useAction` first reads: it looks up the names and carries the action out on working copies.
Then it writes the copies back one by one. `rehearse` is the first half. The second half cannot
fail: every working copy bears the name of a row, because it was copied from one and no effect
renames an entity. So a use is its rehearsal, followed by putting all copies in their places
(`perform_useAction`).
-/

namespace Tabletop

namespace RuleSet

variable {w : RuleSet} {user action : String} {targets : List String} {o : Outcome}

/-- The reading half of a use: what the action does to working copies. -/
def rehearse (w : RuleSet) (user action : String) (targets : List String) :
    Except RuleError Outcome := do
  let user ← w.knownEntity user
  let action ← w.knownAction action
  user.ensureCanUse action
  let targets ← targets.mapM (w.knownEntity ·)
  action.apply user targets

theorem knownEntity_eq_ok_iff {name : String} {e : Entity} :
    w.knownEntity name = .ok e ↔ w.entities.get? name = some e := need_eq_ok_iff

theorem knownAction_eq_ok_iff {name : String} {a : Action} :
    w.knownAction name = .ok a ↔ w.actions.get? name = some a := need_eq_ok_iff

theorem rehearse_eq_ok_iff :
    w.rehearse user action targets = .ok o ↔
      ∃ u a ts, w.entities.get? user = some u ∧ w.actions.get? action = some a ∧
        u.hasAction a.name = true ∧
        List.Forall₂ (fun name t ↦ w.entities.get? name = some t) targets ts ∧
        a.apply u ts = .ok o := by
  simp only [rehearse, bind_eq_ok_iff, Entity.ensureCanUse, require_eq_ok_iff, mapM_eq_ok_iff,
    knownEntity_eq_ok_iff, knownAction_eq_ok_iff, exists_const, exists_and_left]

/-! ## The copies stay copies of rows -/

theorem name_mem_of_forall₂ {ts : List Entity}
    (h : List.Forall₂ (fun name t ↦ w.entities.get? name = some t) targets ts) :
    ∀ t ∈ ts, t ∈ w.entities.rows := by
  induction h with
  | nil => exact fun t ht ↦ absurd ht List.not_mem_nil
  | cons h _ ih => exact List.forall_mem_cons.mpr ⟨(Table.get?_eq_some h).1, ih⟩

/-- What holds of every entity and is preserved by every effect holds of every working copy. -/
theorem forall_mem_rehearse {P : Entity → Prop} (hw : ∀ e ∈ w.entities.rows, P e)
    (heffects : ∀ a ∈ w.actions.rows, ∀ f ∈ a.effects, f.Preserves P)
    (h : w.rehearse user action targets = .ok o) : ∀ m ∈ o.cast.members, P m := by
  obtain ⟨u, a, ts, hu, ha, -, hts, happly⟩ := rehearse_eq_ok_iff.mp h
  refine Action.forall_mem_apply (hw u (Table.get?_eq_some hu).1) (fun t ht ↦ hw t ?_)
    (heffects a (Table.get?_eq_some ha).1) happly
  exact name_mem_of_forall₂ hts t ht

theorem name_mem_names_of_rehearse (h : w.rehearse user action targets = .ok o) :
    ∀ m ∈ o.cast.members, m.name ∈ w.entities.names :=
  forall_mem_rehearse (P := fun m ↦ m.name ∈ w.entities.names)
    (fun _ he ↦ List.mem_map_of_mem he) (fun _ _ f _ ↦ f.preserves_name (· ∈ w.entities.names)) h

/-- A use fails because of a name, or as its action does at an entity of which `P` is known. -/
theorem rehearse_eq_error {P : Entity → Prop} {err : RuleError} (hw : ∀ e ∈ w.entities.rows, P e)
    (heffects : ∀ a ∈ w.actions.rows, ∀ f ∈ a.effects, f.Preserves P)
    (h : w.rehearse user action targets = .error err) :
    (∃ name, err = .unknownEntity name) ∨ err = .unknownAction action ∨
      (∃ a, err = .actionNotOwned user a) ∨
      ∃ a, w.actions.get? action = some a ∧ a.Fails P err := by
  rw [rehearse] at h
  obtain h | ⟨u, hu, h⟩ := bind_eq_error_iff.mp h
  · exact .inl ⟨user, (need_eq_error_iff.mp h).2⟩
  have hu := Table.get?_eq_some (knownEntity_eq_ok_iff.mp hu)
  obtain h | ⟨a, ha, h⟩ := bind_eq_error_iff.mp h
  · exact .inr (.inl (need_eq_error_iff.mp h).2)
  have ha := knownAction_eq_ok_iff.mp ha
  obtain h | ⟨_, -, h⟩ := bind_eq_error_iff.mp h
  · obtain ⟨-, rfl⟩ := require_eq_error_iff.mp h
    exact .inr (.inr (.inl ⟨a.name, by rw [show u.name = user from hu.2]⟩))
  obtain h | ⟨ts, hts, h⟩ := bind_eq_error_iff.mp h
  · obtain ⟨name, -, h⟩ := exists_error_of_mapM h
    exact .inl ⟨name, (need_eq_error_iff.mp h).2⟩
  have hts : List.Forall₂ (fun name t ↦ w.entities.get? name = some t) targets ts :=
    (mapM_eq_ok_iff.mp hts).imp fun _ _ ↦ knownEntity_eq_ok_iff.mp
  refine .inr (.inr (.inr ⟨a, ha, Action.fails_of_apply (hw u hu.1) (fun t ht ↦ hw t ?_)
    (heffects a (Table.get?_eq_some ha).1) h⟩))
  exact name_mem_of_forall₂ hts t ht

/-! ## Writing back -/

theorem perform_commit {e : Entity} (h : e.name ∈ w.entities.names) :
    w.perform (commit e) = (.ok (), { w with entities := w.entities.put e }) := by
  have hreplace : w.entities.replace e = .ok (w.entities.put e) :=
    Table.replace_eq_ok_iff.mpr ⟨h, rfl⟩
  rw [commit, perform_get_bind, hreplace]
  rfl

/-- The copies are written back to the last one. -/
theorem perform_forM_commit {ms : List Entity} (h : ∀ m ∈ ms, m.name ∈ w.entities.names) :
    w.perform (ms.forM commit) = (.ok (), { w with entities := w.entities.putAll ms }) := by
  induction ms generalizing w with
  | nil => rfl
  | cons m ms ih =>
    obtain ⟨hm, hms⟩ := List.forall_mem_cons.mp h
    have hnames : ∀ m' ∈ ms, m'.name ∈ (w.entities.put m).names := by
      rw [Table.names_put]
      exact hms
    change w.perform (commit m >>= fun _ ↦ ms.forM commit) = _
    rw [perform_bind_of_ok (perform_commit hm)]
    exact ih hnames

/-- **A use is its rehearsal, and the copies put in their places.** -/
theorem perform_useAction (w : RuleSet) (user action : String) (targets : List String) :
    w.perform (useAction user action targets) =
      match w.rehearse user action targets with
      | .ok o => (.ok o, { w with entities := w.entities.putAll o.cast.members })
      | .error e => (.error e, w) := by
  -- all that is only read comes first, so it can be taken together
  have hsplit : w.perform (useAction user action targets) =
      w.perform (liftM (w.rehearse user action targets) >>= fun o ↦ do
        o.cast.members.forM commit
        return o) := by
    simp only [useAction, perform_get_bind, rehearse, mapM_lift, lift_bind_lift]
  rw [hsplit]
  cases h : w.rehearse user action targets with
  | error e => rfl
  | ok o =>
    rw [perform_bind_of_ok (perform_lift w _),
      perform_bind_of_ok (perform_forM_commit (name_mem_names_of_rehearse h)), perform_pure]

/-- A use fails in its first half, and then nothing is written. -/
theorem perform_useAction_eq_error_iff {w' : RuleSet} {err : RuleError} :
    w.perform (useAction user action targets) = (.error err, w') ↔
      w.rehearse user action targets = .error err ∧ w' = w := by
  rw [perform_useAction]
  cases w.rehearse user action targets with
  | error err' => simp [eq_comm (a := w)]
  | ok o => simp

end RuleSet

end Tabletop
