import Tabletop.Proofs.Checks
import Tabletop.RuleSet.Basic

/-!
# Performing operations

How `RuleSet.perform` runs the steps an operation is made of, and when an operation leaves the rule
set alone if it fails.

## Failing without a trace

`Keeps w edit` says that `edit`, performed on `w`, leaves `w` behind if it fails. It is a statement
about one rule set, since an operation reads the rule set first and what it does after that depends
on what it has read. A step that only reads may stand in front (`Keeps.bind`), and a last step that
cannot fail may do anything (`Keeps.of_ok`).
-/

namespace Tabletop

namespace RuleSet

variable {α β γ : Type} {w w' : RuleSet}

/-! ## Steps -/

@[simp] theorem perform_pure (w : RuleSet) (a : α) : w.perform (pure a) = (.ok a, w) := rfl

@[simp] theorem perform_get (w : RuleSet) : w.perform get = (.ok w, w) := rfl

@[simp] theorem perform_set (w w' : RuleSet) : w.perform (set w') = (.ok ⟨⟩, w') := rfl

@[simp] theorem perform_modify (w : RuleSet) (f : RuleSet → RuleSet) :
    w.perform (modify f) = (.ok ⟨⟩, f w) := rfl

/-- A check reads and writes nothing. -/
@[simp] theorem perform_lift (w : RuleSet) (x : Except RuleError α) :
    w.perform (liftM x : Edit α) = (x, w) := rfl

theorem perform_bind (w : RuleSet) (x : Edit α) (f : α → Edit β) :
    w.perform (x >>= f) = match w.perform x with
      | (.ok a, w₁) => w₁.perform (f a)
      | (.error e, w₁) => (.error e, w₁) := by
  simp only [perform, ExceptT.run, StateT.run, bind, ExceptT.bind, ExceptT.mk, StateT.bind, Id.run]
  rcases x w with ⟨_ | _, _⟩ <;> rfl

theorem perform_bind_of_ok {x : Edit α} {a : α} {w₁ : RuleSet} (h : w.perform x = (.ok a, w₁))
    (f : α → Edit β) : w.perform (x >>= f) = w₁.perform (f a) := by
  rw [perform_bind, h]

@[simp] theorem perform_get_bind (w : RuleSet) (f : RuleSet → Edit β) :
    w.perform (get >>= f) = w.perform (f w) := perform_bind_of_ok (perform_get w) f

@[simp] theorem perform_set_bind (w w' : RuleSet) (f : Unit → Edit β) :
    w.perform (set w' >>= f) = w'.perform (f ()) := perform_bind_of_ok (perform_set w w') f

theorem perform_bind_eq_ok_iff {x : Edit α} {f : α → Edit β} {b : β} :
    w.perform (x >>= f) = (.ok b, w') ↔
      ∃ a w₁, w.perform x = (.ok a, w₁) ∧ w₁.perform (f a) = (.ok b, w') := by
  rw [perform_bind]
  rcases w.perform x with ⟨e | a, w₁⟩ <;> simp

/-- An operation that starts with a check succeeds if the check does and the rest does. -/
theorem perform_lift_bind_eq_ok_iff {x : Except RuleError α} {f : α → Edit β} {b : β} :
    w.perform (liftM x >>= f) = (.ok b, w') ↔
      ∃ a, x = .ok a ∧ w.perform (f a) = (.ok b, w') := by
  rw [perform_bind_eq_ok_iff]
  constructor
  · rintro ⟨a, w₁, hx, hf⟩
    obtain ⟨rfl, rfl⟩ := Prod.mk.inj hx
    exact ⟨a, rfl, hf⟩
  · rintro ⟨a, rfl, hf⟩
    exact ⟨a, w, rfl, hf⟩

theorem perform_check_bind_eq_ok_iff {x : Except RuleError Unit} {f : Unit → Edit β} {b : β} :
    w.perform (liftM x >>= f) = (.ok b, w') ↔ x = .ok () ∧ w.perform (f ()) = (.ok b, w') := by
  rw [perform_lift_bind_eq_ok_iff]
  exact ⟨fun ⟨_, hx, hf⟩ ↦ ⟨hx, hf⟩, fun ⟨hx, hf⟩ ↦ ⟨(), hx, hf⟩⟩

/-- Most operations end by writing a rule set and answering a row. -/
theorem perform_set_pure_eq_ok_iff {w₁ : RuleSet} {a b : α} :
    w.perform (do set w₁; return a) = (.ok b, w') ↔ b = a ∧ w' = w₁ := by
  rw [perform_set_bind, perform_pure, Prod.mk.injEq, Except.ok.injEq, eq_comm (a := a),
    eq_comm (a := w₁)]

/-- Two checks in a row are one check. -/
theorem lift_bind_lift (x : Except RuleError α) (g : α → Except RuleError β) (f : β → Edit γ) :
    (liftM x >>= fun a ↦ liftM (g a) >>= f : Edit γ) = liftM (x >>= g) >>= f := by
  cases x <;> rfl

theorem mapM_lift (f : α → Except RuleError β) (as : List α) :
    (as.mapM fun a ↦ liftM (f a) : Edit (List β)) = liftM (as.mapM f) := by
  induction as with
  | nil => rfl
  | cons a as ih =>
    rw [List.mapM_cons, List.mapM_cons, ih]
    rcases f a with _ | b
    · rfl
    · rcases as.mapM f with _ | bs <;> rfl

theorem forM_lift (f : α → Except RuleError Unit) (as : List α) :
    (as.forM fun a ↦ liftM (f a) : Edit Unit) = liftM (as.forM f) := by
  induction as with
  | nil => rfl
  | cons a as ih =>
    change (liftM (f a) >>= fun _ ↦ as.forM fun a ↦ liftM (f a) : Edit Unit) =
      liftM (f a >>= fun _ ↦ as.forM f)
    rw [ih]
    rcases f a with _ | _ <;> rfl

theorem option_forM_lift (f : α → Except RuleError Unit) (o : Option α) :
    (o.forM fun a ↦ liftM (f a) : Edit Unit) = liftM (o.forM f) := by
  cases o <;> rfl

theorem option_mapM_lift (f : α → Except RuleError β) (o : Option α) :
    (o.mapM fun a ↦ liftM (f a) : Edit (Option β)) = liftM (o.mapM f) := by
  cases o with
  | none => rfl
  | some a => cases h : f a <;> simp [Option.mapM, h] <;> rfl

theorem perform_discard (w : RuleSet) (x : Edit α) :
    w.perform (discard x) = ((w.perform x).1.map fun _ ↦ (), (w.perform x).2) := by
  change w.perform (x >>= fun _ ↦ pure ()) = _
  rw [perform_bind]
  rcases w.perform x with ⟨_ | _, _⟩ <;> rfl

theorem perform_discard_eq_ok_iff {x : Edit α} {u : Unit} :
    w.perform (discard x) = (.ok u, w') ↔ ∃ a, w.perform x = (.ok a, w') := by
  rw [perform_discard]
  rcases w.perform x with ⟨_ | _, _⟩ <;> simp [Except.map]

/-! ## Failing without a trace -/

/-- Whether an operation that fails on a rule set leaves it as it was. -/
def Keeps (w : RuleSet) (edit : Edit α) : Prop :=
  ∀ e w', w.perform edit = (.error e, w') → w' = w

theorem Keeps.of_ok {edit : Edit α} {a : α} {w' : RuleSet} (h : w.perform edit = (.ok a, w')) :
    w.Keeps edit := by
  intro e w₁ he
  rw [h] at he
  simp at he

theorem Keeps.bind {x : Edit α} {f : α → Edit β} (hx : (w.perform x).2 = w)
    (hf : ∀ a, w.perform x = (.ok a, w) → w.Keeps (f a)) : w.Keeps (x >>= f) := by
  intro e w' h
  rw [perform_bind] at h
  rcases hp : w.perform x with ⟨err | a, w₁⟩
  · rw [hp] at h hx
    obtain ⟨-, rfl⟩ := Prod.mk.inj h
    exact hx
  · rw [hp] at h hx
    obtain rfl : w₁ = w := hx
    exact hf a hp e w' h

theorem Keeps.lift_bind {x : Except RuleError α} {f : α → Edit β}
    (hf : ∀ a, x = .ok a → w.Keeps (f a)) : w.Keeps (liftM x >>= f) :=
  Keeps.bind rfl fun a ha ↦ hf a (Prod.mk.inj ha).1

theorem Keeps.get_bind {f : RuleSet → Edit β} (hf : w.Keeps (f w)) : w.Keeps (get >>= f) := by
  intro e w' h
  rw [perform_get_bind] at h
  exact hf e w' h

theorem Keeps.set_pure {w' : RuleSet} {a : α} : w.Keeps (do set w'; return a) :=
  Keeps.of_ok (by rw [perform_set_bind, perform_pure])

/-- What holds before an operation that keeps the rule set when it fails, and after it when it
succeeds, holds after it. -/
theorem Keeps.after {edit : Edit α} {P : RuleSet → Prop} (hk : w.Keeps edit) (hw : P w)
    (hok : ∀ a w', w.perform edit = (.ok a, w') → P w') : P (w.perform edit).2 := by
  rcases h : w.perform edit with ⟨e | a, w'⟩
  · rw [hk e w' h]
    exact hw
  · exact hok a w' h

theorem Keeps.discard {x : Edit α} (hx : w.Keeps x) : w.Keeps (discard x) := by
  intro e w' h
  rw [perform_discard] at h
  rcases hp : w.perform x with ⟨err | a, w₁⟩
  · rw [hp] at h
    obtain ⟨-, rfl⟩ := Prod.mk.inj h
    exact hx err _ hp
  · rw [hp] at h
    simp [Except.map] at h

/-! ## Keeping a property -/

/-- Whether a property survives an operation, be it a success or a failure. -/
def Preserves (P : RuleSet → Prop) (edit : Edit α) : Prop := ∀ w, P w → P (w.perform edit).2

theorem Preserves.discard {P : RuleSet → Prop} {x : Edit α} (hx : Preserves P x) :
    Preserves P (discard x) := by
  intro w hw
  rw [perform_discard]
  exact hx w hw

end RuleSet

end Tabletop
