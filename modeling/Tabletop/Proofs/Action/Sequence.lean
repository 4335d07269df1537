import Tabletop.Proofs.Action.Apply
import Tabletop.Proofs.Action.Cast

/-!
# Effects one after the other

An action with more effects is the action with the first of them, followed by the action with the
rest on the copies that were left (`apply_append`). Two things have to be seen for that. An effect
looks at the copies and at nothing else: what was changed and skipped before is only added to
(`agree_step`). And the second action puts together its own cast, from the copies of the user and of
the targets; that is the cast with which the first one ended (`ofTargets_copies`), however often a
name was mentioned.
-/

namespace Tabletop

variable {α β ε : Type}

/-- Checks that agree up to a function are one check, with the function applied. -/
theorem Agree.eq_map {g : α → β} {x : Except ε α} {y : Except ε β}
    (h : Agree (fun a b ↦ b = g a) x y) : y = x.map g := by
  cases h with
  | error e => rfl
  | ok h => exact congrArg Except.ok h

/-! ## Copies -/

namespace Cast

/-- The copies of the user and of targets. -/
def copies? (c : Cast) (targets : List Entity) : Option (Entity × List Entity) := do
  let user ← c.members[userPlace]?
  let copies ← targets.mapM fun target ↦ c.members.find? (·.name == target.name)
  return (user, copies)

variable {c : Cast} {user : Entity} {targets : List Entity}

/-- Who is named in a cast has a copy there. -/
theorem exists_copy {target : Entity} (h : target.name ∈ c.names) :
    ∃ copy, c.members.find? (·.name == target.name) = some copy ∧ copy ∈ c.members ∧
      copy.name = target.name := by
  obtain ⟨m, hm, hname⟩ := List.mem_map.mp h
  have hfound : (c.members.find? (·.name == target.name)).isSome :=
    List.find?_isSome.mpr ⟨m, hm, beq_of_eq hname⟩
  obtain ⟨copy, hcopy⟩ := Option.isSome_iff_exists.mp hfound
  exact ⟨copy, hcopy, List.mem_of_find?_eq_some hcopy, by simpa using List.find?_some hcopy⟩

theorem exists_copies (h : ∀ target ∈ targets, target.name ∈ c.names) :
    ∃ copies, (targets.mapM fun target ↦ c.members.find? (·.name == target.name)) = some copies ∧
      (∀ copy ∈ copies, copy ∈ c.members) ∧ copies.map Entity.name = targets.map Entity.name := by
  induction targets with
  | nil => exact ⟨[], rfl, List.forall_mem_nil _, rfl⟩
  | cons target targets ih =>
    obtain ⟨htarget, htargets⟩ := List.forall_mem_cons.mp h
    obtain ⟨copy, hfind, hmem, hname⟩ := exists_copy htarget
    obtain ⟨copies, hfinds, hmems, hnames⟩ := ih htargets
    refine ⟨copy :: copies, ?_, List.forall_mem_cons.mpr ⟨hmem, hmems⟩, ?_⟩
    · rw [List.mapM_cons, hfind, hfinds]
      rfl
    · rw [List.map_cons, List.map_cons, hname, hnames]

/-- **Putting a cast together again.** The copies of the user and of the targets, wherever they have
got to, make the cast that they were taken from. -/
theorem ofTargets_copies (hnames : c.names = (ofTargets user targets).names)
    (htargets : c.targets = (ofTargets user targets).targets) :
    ∃ user' targets', c.copies? targets = some (user', targets') ∧
      ofTargets user' targets' = c := by
  have hseats : c.Seats user.name (targets.map Entity.name) :=
    (seats_ofTargets user targets).congr hnames htargets
  obtain ⟨user', huser', hname⟩ := exists_member hseats.user
  have hknown : ∀ target ∈ targets, target.name ∈ c.names := fun target htarget ↦ by
    rw [hnames, names_ofTargets, List.mem_eraseDups]
    exact List.mem_cons_of_mem _ (List.mem_map_of_mem htarget)
  obtain ⟨targets', htargets', hmem, hsame⟩ := exists_copies hknown
  refine ⟨user', targets', ?_, ?_⟩
  · rw [copies?, huser', htargets']
    rfl
  · refine hseats.eq (hname ▸ hsame ▸ seats_ofTargets user' targets') ?_ ?_
    · rw [hnames, names_ofTargets, names_ofTargets, hname, hsame]
    · exact forall_mem_ofTargets (P := (· ∈ c.members)) (List.mem_of_getElem? huser') hmem

end Cast

/-! ## What was done before -/

/-- What was done in all, if something was done after something else: the copies are those of the
later outcome, and changes and skipped effects are those of both. -/
def Outcome.andThen (earlier later : Outcome) : Outcome :=
  ⟨later.cast, earlier.changes ++ later.changes, earlier.skipped + later.skipped⟩

namespace Action

variable {a : Action} {f : Effect} {o p : Outcome} {place : Nat} {target? : Option Nat}

theorem agree_change :
    Agree (fun o o' ↦ o' = p.andThen o) (a.change f target? o place)
      (a.change f target? (p.andThen o) place) := by
  refine .bind_same fun user ↦ ?_
  refine .bind_same fun target ↦ ?_
  refine .bind_same fun amount ↦ ?_
  refine .bind_same fun entity ↦ ?_
  refine .bind_same fun slot ↦ ?_
  refine .bind_same fun after ↦ ?_
  refine .ok ?_
  rw [Outcome.andThen, Outcome.andThen, List.append_assoc]

theorem agree_touch :
    Agree (fun o o' ↦ o' = p.andThen o) (a.touch f o place) (a.touch f (p.andThen o) place) := by
  refine .bind_same fun holds ↦ ?_
  cases holds with
  | true => exact agree_change
  | false => exact .ok rfl

/-- **What was done before is only added to.** -/
theorem agree_step :
    Agree (fun o o' ↦ o' = p.andThen o) (a.step o f) (a.step (p.andThen o) f) := by
  refine .bind_same fun places ↦ ?_
  refine .bind_same fun _ ↦ ?_
  refine Agree.foldlM (R := Eq) (List.forall₂_same.mpr fun _ _ ↦ rfl) rfl ?_
  rintro place _ o _ rfl rfl
  exact agree_touch

theorem foldlM_step_andThen (a : Action) (effects : List Effect) (p o : Outcome) :
    effects.foldlM a.step (p.andThen o) = (effects.foldlM a.step o).map p.andThen := by
  refine Agree.eq_map (Agree.foldlM (R := Eq) (List.forall₂_same.mpr fun _ _ ↦ rfl) rfl ?_)
  rintro f _ o _ rfl rfl
  exact agree_step

/-! ## The cast -/

variable {user : Entity} {targets : List Entity}

/-- The copies keep their names and their places. -/
theorem cast_of_apply (h : a.apply user targets = .ok o) :
    o.cast.names = (Cast.ofTargets user targets).names ∧
      o.cast.targets = (Cast.ofTargets user targets).targets := by
  refine apply_induct (P := fun o ↦ o.cast.names = (Cast.ofTargets user targets).names ∧
    o.cast.targets = (Cast.ofTargets user targets).targets) ⟨rfl, rfl⟩ ?_ h
  rintro f - place o o' ⟨hnames, htargets⟩ ht
  obtain rfl | ⟨_, _, _, m, _, _, -, hm, -, -, rfl⟩ := touch_cases ht
  · exact ⟨hnames, htargets⟩
  · exact ⟨(Cast.names_set_of_name_eq hm Entity.put_name).trans hnames, htargets⟩

/-- **Effects one after the other.** An action with the effects of two lists fails with the error of
the first list if those fail. Otherwise it does what the second list does to the copies that the
first one has left: it fails with the error of those, or leaves their copies, and reports what both
have changed and skipped. -/
theorem apply_append (name : String) (first second : List Effect) (user : Entity)
    (targets : List Entity) :
    match apply ⟨name, first⟩ user targets with
    | .error e => apply ⟨name, first ++ second⟩ user targets = .error e
    | .ok o => ∃ user' targets', o.cast.copies? targets = some (user', targets') ∧
        apply ⟨name, first ++ second⟩ user targets =
          (apply ⟨name, second⟩ user' targets').map o.andThen := by
  -- a step looks at the name of its action only
  have hsplit : apply ⟨name, first ++ second⟩ user targets =
      apply ⟨name, first⟩ user targets >>= fun o ↦ second.foldlM (step ⟨name, second⟩) o :=
    List.foldlM_append
  rw [hsplit]
  cases h : apply ⟨name, first⟩ user targets with
  | error e => rfl
  | ok o =>
    obtain ⟨hnames, htargets⟩ := cast_of_apply h
    obtain ⟨user', targets', hcopies, hcast⟩ := Cast.ofTargets_copies hnames htargets
    refine ⟨user', targets', hcopies, ?_⟩
    have hstart : o = o.andThen ⟨Cast.ofTargets user' targets', [], 0⟩ := by
      rw [Outcome.andThen, hcast, List.append_nil, Nat.add_zero]
    calc second.foldlM (step ⟨name, second⟩) o
        = second.foldlM (step ⟨name, second⟩)
            (o.andThen ⟨Cast.ofTargets user' targets', [], 0⟩) := by rw [← hstart]
      _ = (apply ⟨name, second⟩ user' targets').map o.andThen := foldlM_step_andThen _ _ _ _

end Action

end Tabletop
