import Tabletop.Action.Basic
import Tabletop.Proofs.RuleSet.Check

/-!
# What an effect writes

An effect of a checked action writes a finite value that the slot accepts, as long as the slot held
such a value before. Arithmetic refuses whatever is not finite, so an amount that is not finite can
only come from an assigned literal, and those are checked when the action is defined.
-/

namespace Tabletop

variable {v current amount after : Value} {kind : Kind}

theorem Draw.isFinite_of_resolve {d : Draw} {user : Entity} {target? : Option Entity} {x : Number}
    (h : d.resolve user target? = .ok x) : x.isFinite = true := by
  simp only [Draw.resolve] at h
  split at h <;>
  · simp only [bind_eq_ok_iff, require_eq_ok_iff, pure_eq_ok_iff, exists_const] at h
    -- with a flat change or without one, the result is looked at last
    obtain ⟨_, _, _, _, _, _, hfinite, rfl⟩ := h
    exact hfinite

theorem Amount.isFinite_of_resolve {w : RuleSet} {m : Modifier} {definition : AttributeDef}
    {a : Amount} {user : Entity} {target? : Option Entity}
    (hcheck : w.checkAmount m definition a = .ok ()) (h : a.resolve user target? = .ok v) :
    v.isFinite = true := by
  cases a with
  | literal value =>
    obtain rfl : value = v := Except.ok.inj h
    exact Value.ensureFinite_eq_ok_iff.mp (check_bind_eq_ok_iff.mp hcheck).1
  | drawn d =>
    obtain ⟨x, hx, rfl⟩ := except_map_eq_ok_iff.mp h
    exact d.isFinite_of_resolve hx

/-- An amount that was checked against an attribute is one that the attribute accepts. -/
theorem Amount.accepts_of_resolve {w : RuleSet} {m : Modifier} {definition : AttributeDef}
    {a : Amount} {user : Entity} {target? : Option Entity}
    (hmodifier : (m == .assign || definition.kind.isNumeric) = true)
    (hcheck : w.checkAmount m definition a = .ok ()) (h : a.resolve user target? = .ok v) :
    definition.kind.accepts v = true := by
  cases a with
  | literal value =>
    obtain rfl : value = v := Except.ok.inj h
    rw [RuleSet.checkAmount, check_bind_eq_ok_iff] at hcheck
    -- arithmetic asks for a number on both sides, assignment for what the attribute accepts
    by_cases hassign : m = .assign
    · rw [if_pos hassign, require_eq_ok_iff] at hcheck
      exact hcheck.2
    · rw [if_neg hassign, require_eq_ok_iff] at hcheck
      have hnumeric : definition.kind.isNumeric = true := by simpa [hassign] using hmodifier
      rw [Kind.accepts_of_isNumeric hnumeric]
      simpa using hcheck.2
  | drawn d =>
    obtain ⟨x, -, rfl⟩ := except_map_eq_ok_iff.mp h
    rw [RuleSet.checkAmount, bind_eq_ok_iff] at hcheck
    obtain ⟨source, -, hkinds⟩ := hcheck
    exact (Bool.and_eq_true_iff.mp (require_eq_ok_iff.mp hkinds)).2

namespace Modifier

variable {m : Modifier}

theorem calculate_eq_ok_iff {op : Number → Number → Number} :
    apply.calculate m current amount op = .ok after ↔
      ∃ l r, current = .number l ∧ amount = .number r ∧ (op l r).isFinite = true ∧
        after = .number (op l r) := by
  constructor
  · intro h
    unfold apply.calculate at h
    split at h
    · rename_i l r
      by_cases hfinite : (op l r).isFinite = true
      · rw [if_pos hfinite] at h
        exact ⟨l, r, rfl, rfl, hfinite, (Except.ok.inj h).symm⟩
      · rw [if_neg hfinite] at h
        exact absurd h (by simp)
    · exact absurd h (by simp)
  · rintro ⟨l, r, rfl, rfl, hfinite, rfl⟩
    rw [apply.calculate, if_pos hfinite]

theorem apply_eq_ok_iff :
    m.apply kind current amount = .ok after ↔ match m with
      | assign => kind.accepts amount = true ∧ after = amount
      | add => ∃ l r, current = .number l ∧ amount = .number r ∧ (l + r).isFinite = true ∧
          after = .number (l + r)
      | multiply => ∃ l r, current = .number l ∧ amount = .number r ∧ (l * r).isFinite = true ∧
          after = .number (l * r) := by
  cases m with
  | assign =>
    by_cases haccepts : kind.accepts amount = true
    · rw [apply, if_pos haccepts, Except.ok.injEq, eq_comm (a := amount)]
      exact (and_iff_right haccepts).symm
    · simp [apply, haccepts]
  | add => exact calculate_eq_ok_iff
  | multiply => exact calculate_eq_ok_iff

/-- A kind that accepted the value before accepts the value after. -/
theorem accepts_of_apply (h : m.apply kind current amount = .ok after)
    (hcurrent : kind.accepts current = true) : kind.accepts after = true := by
  rw [apply_eq_ok_iff] at h
  cases m with
  | assign =>
    obtain ⟨haccepts, rfl⟩ := h
    exact haccepts
  | add | multiply =>
    obtain ⟨l, r, rfl, -, -, rfl⟩ := h
    exact hcurrent

theorem isFinite_of_apply (h : m.apply kind current amount = .ok after)
    (hamount : amount.isFinite = true) : after.isFinite = true := by
  rw [apply_eq_ok_iff] at h
  cases m with
  | assign =>
    obtain ⟨-, rfl⟩ := h
    exact hamount
  | add | multiply =>
    obtain ⟨l, r, -, -, hfinite, rfl⟩ := h
    exact hfinite

end Modifier

/-- **What a checked effect writes.** A slot that was as its attribute asks gets a finite value that
its kind accepts. -/
theorem Slot.Fits.writes {w : RuleSet} {s : Slot} {f : Effect} {user : Entity}
    {target? : Option Entity} (hs : s.Fits w) (hcheck : w.checkEffect f = .ok ())
    (hamount : f.amount.resolve user target? = .ok amount)
    (hafter : f.modifier.apply s.kind s.value amount = .ok after) :
    s.kind.accepts after = true ∧ after.isFinite = true := by
  obtain ⟨a, -, hkind, haccepts, -⟩ := hs
  obtain ⟨target, -, -, hcheck, -⟩ := RuleSet.checkEffect_eq_ok_iff.mp hcheck
  exact ⟨Modifier.accepts_of_apply hafter (hkind ▸ haccepts),
    Modifier.isFinite_of_apply hafter (Amount.isFinite_of_resolve hcheck hamount)⟩

end Tabletop
