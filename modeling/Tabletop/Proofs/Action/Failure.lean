import Tabletop.Proofs.Action.Apply

/-!
# How an action fails

Where the error of an action can come from. There are few sources: a target that is not there, an
attribute that an entity lacks, a condition that asks for an order, an amount that is drawn, and a
value that is changed. `Action.Fails` lists them, each with what is known about the effect and the
entity at the moment it strikes.

Effects see what earlier effects did, so what is known about the entity cannot be read off the
entities that the action starts with. It is a property `P` of entities, given at the start, that
every effect preserves; then the entity at which an action fails has it too
(`Action.fails_of_apply`).
-/

namespace Tabletop

variable {err : RuleError}

/-! ## Single reads -/

theorem Comparator.order_eq_error_iff {c : Comparator} {l r : Value}
    {holds : Number → Number → Bool} :
    compare.order c l r holds = .error err ↔
      (l.shape = .number → r.shape ≠ .number) ∧
        err = .typeMismatch (.comparison c l.shape r.shape) := by
  rw [compare.order.eq_def]
  split
  · -- an order between two numbers can always be told
    simp [Value.shape]
  · rename_i hnumbers
    have hshapes : l.shape = .number → r.shape ≠ .number := by
      intro hl hr
      cases l <;> cases r <;> simp [Value.shape] at hl hr
      exact hnumbers _ _ rfl rfl
    rw [Except.error.injEq, eq_comm]
    exact (and_iff_right hshapes).symm

theorem Comparator.compare_eq_error_iff {c : Comparator} {l r : Value} :
    c.compare l r = .error err ↔
      c.isOrdering = true ∧ (l.shape = .number → r.shape ≠ .number) ∧
        err = .typeMismatch (.comparison c l.shape r.shape) := by
  cases c with
  | eq | ne => exact iff_of_false (by simp [compare]) fun h ↦ Bool.false_ne_true h.1
  | gt | ge | lt | le => exact order_eq_error_iff.trans (and_iff_right rfl).symm

theorem Condition.holds_eq_error_iff {c : Condition} {m : Entity} :
    c.holds m = .error err ↔
      m.value? c.attr = none ∧ err = .unknownAttribute c.attr (.entity m.name) ∨
        ∃ v, m.value? c.attr = some v ∧ c.comparator.compare v c.value = .error err := by
  rw [holds, bind_eq_error_iff, need_eq_error_iff]
  simp only [need_eq_ok_iff]

/-- An amount is drawn from the user or from the target, and fails there. -/
theorem Draw.resolve_eq_error {d : Draw} {user : Entity} {target? : Option Entity}
    (h : d.resolve user target? = .error err) :
    err = .missingTarget (.amount d.source) ∨
      ∃ m, (m = user ∨ m ∈ target?) ∧
        (err = .unknownAttribute d.source (.entity m.name) ∨
          ∃ v, m.value? d.source = some v ∧
            (v.number? = none ∧
                err = .typeMismatch (.amountSource d.source m.name v.shape) ∨
              ∃ x, v.number? = some x ∧ (d.total x).isFinite = false ∧
                err = .typeMismatch (.amountRange m.name d.source))) := by
  -- what is done with the entity is the same for both owners
  have hread : ∀ m : Entity, (do
      let value ← need (.unknownAttribute d.source (.entity m.name)) (m.value? d.source)
      let current ← need (.typeMismatch (.amountSource d.source m.name value.shape)) value.number?
      let total := d.total current
      require (.typeMismatch (.amountRange m.name d.source)) total.isFinite
      return total) = Except.error err →
      err = .unknownAttribute d.source (.entity m.name) ∨
        ∃ v, m.value? d.source = some v ∧
          (v.number? = none ∧ err = .typeMismatch (.amountSource d.source m.name v.shape) ∨
            ∃ x, v.number? = some x ∧ (d.total x).isFinite = false ∧
              err = .typeMismatch (.amountRange m.name d.source)) := by
    intro m h
    obtain h | ⟨v, hv, h⟩ := bind_eq_error_iff.mp h
    · exact .inl (need_eq_error_iff.mp h).2
    refine .inr ⟨v, need_eq_ok_iff.mp hv, ?_⟩
    obtain h | ⟨x, hx, h⟩ := bind_eq_error_iff.mp h
    · exact .inl (need_eq_error_iff.mp h)
    refine .inr ⟨x, need_eq_ok_iff.mp hx, ?_⟩
    obtain h | ⟨_, -, h⟩ := bind_eq_error_iff.mp h
    · exact require_eq_error_iff.mp h
    · exact absurd h (by simp [pure, Except.pure])
  rw [resolve] at h
  cases howner : d.owner with
  | user =>
    rw [howner] at h
    exact .inr ⟨user, .inl rfl, hread user h⟩
  | target =>
    rw [howner] at h
    obtain h | ⟨m, hm, h⟩ := bind_eq_error_iff.mp h
    · exact .inl (need_eq_error_iff.mp h).2
    · exact .inr ⟨m, .inr (need_eq_ok_iff.mp hm), hread m h⟩

/-! ## Changing a value -/

namespace Modifier

variable {m : Modifier} {kind : Kind} {current amount : Value} {refusal : Refusal}

theorem calculate_eq_error_iff {op : Number → Number → Number} :
    apply.calculate m current amount op = .error refusal ↔
      (current.shape = .number → amount.shape ≠ .number) ∧
          refusal = .operands m current.shape amount.shape ∨
        ∃ l r, current = .number l ∧ amount = .number r ∧ (op l r).isFinite = false ∧
          refusal = .range m l r := by
  rw [apply.calculate.eq_def]
  split
  · rename_i l r
    by_cases hfinite : (op l r).isFinite = true
    · simp [hfinite, Value.shape]
    · dsimp only
      rw [if_neg hfinite, Except.error.injEq, eq_comm]
      constructor
      · rintro rfl
        exact .inr ⟨l, r, rfl, rfl, eq_false_of_ne_true hfinite, rfl⟩
      · rintro (⟨hshapes, -⟩ | ⟨l', r', hl, hr, -, rfl⟩)
        · exact absurd rfl (hshapes rfl)
        · rw [Value.number.inj hl, Value.number.inj hr]
  · rename_i hnumbers
    have hshapes : current.shape = .number → amount.shape ≠ .number := by
      intro hl hr
      cases current <;> cases amount <;> simp [Value.shape] at hl hr
      exact hnumbers _ _ rfl rfl
    rw [Except.error.injEq, eq_comm (a := Refusal.operands m current.shape amount.shape)]
    refine ⟨fun h ↦ .inl ⟨hshapes, h⟩, ?_⟩
    rintro (⟨-, h⟩ | ⟨l, r, hl, hr, -⟩)
    · exact h
    · exact absurd hr (hnumbers l r hl)

theorem apply_eq_error_iff :
    m.apply kind current amount = .error refusal ↔ match m with
      | assign => kind.accepts amount = false ∧ refusal = .assign amount.shape
      | add => (current.shape = .number → amount.shape ≠ .number) ∧
            refusal = .operands .add current.shape amount.shape ∨
          ∃ l r, current = .number l ∧ amount = .number r ∧ (l + r).isFinite = false ∧
            refusal = .range .add l r
      | multiply => (current.shape = .number → amount.shape ≠ .number) ∧
            refusal = .operands .multiply current.shape amount.shape ∨
          ∃ l r, current = .number l ∧ amount = .number r ∧ (l * r).isFinite = false ∧
            refusal = .range .multiply l r := by
  cases m with
  | assign =>
    by_cases haccepts : kind.accepts amount = true
    · simp [apply, haccepts]
    · simp [apply, haccepts, eq_comm]
  | add => exact calculate_eq_error_iff
  | multiply => exact calculate_eq_error_iff

end Modifier

/-! ## Sources of errors -/

/-- Why an action fails, when `P` is known of all working copies. -/
inductive Action.Fails (a : Action) (P : Entity → Prop) : RuleError → Prop where
  /-- There is no target where one is needed. -/
  | target (demand : Demand) : Fails a P (.missingTarget demand)
  /-- An entity lacks an attribute that is read or changed. -/
  | attribute (attr entity : String) : Fails a P (.unknownAttribute attr (.entity entity))
  /-- A condition asks for an order that there is not. -/
  | condition {f : Effect} {c : Condition} {m : Entity} {v : Value} {err : RuleError} :
    f ∈ a.effects → c ∈ f.condition → P m → m.value? c.attr = some v →
      c.comparator.compare v c.value = .error err → Fails a P err
  /-- An amount is drawn from a value that is no number. -/
  | amountSource {f : Effect} {d : Draw} {m : Entity} {v : Value} :
    f ∈ a.effects → f.amount = .drawn d → P m → m.value? d.source = some v → v.number? = none →
      Fails a P (.typeMismatch (.amountSource d.source m.name v.shape))
  /-- An amount that is drawn is not finite. -/
  | amountRange {f : Effect} {d : Draw} {m : Entity} {v : Value} {x : Number} :
    f ∈ a.effects → f.amount = .drawn d → P m → m.value? d.source = some v →
      v.number? = some x → (d.total x).isFinite = false →
      Fails a P (.typeMismatch (.amountRange m.name d.source))
  /-- A value cannot be changed by the amount. -/
  | change {f : Effect} {m user : Entity} {target? : Option Entity} {s : Slot} {amount : Value}
      {refusal : Refusal} :
    f ∈ a.effects → P m → m.slot? f.attr = some s → f.amount.resolve user target? = .ok amount →
      f.modifier.apply s.kind s.value amount = .error refusal →
      Fails a P (.typeMismatch (.effect refusal a.name m.name f.attr))

namespace Action

variable {a : Action} {P : Entity → Prop} {f : Effect} {c : Cast} {o : Outcome} {place : Nat}
  {target? : Option Nat} {user : Entity} {targets : List Entity}

theorem fails_of_member (h : a.member c place = .error err) : a.Fails P err := by
  obtain ⟨-, rfl⟩ := need_eq_error_iff.mp h
  exact .target _

theorem fails_of_slot {m : Entity} (h : slot f m = .error err) : a.Fails P err := by
  obtain ⟨-, rfl⟩ := need_eq_error_iff.mp h
  exact .attribute _ _

theorem fails_of_permits (hf : f ∈ a.effects) (hc : ∀ m ∈ c.members, P m)
    (h : a.permits c target? f.condition = .error err) : a.Fails P err := by
  cases hcondition : f.condition with
  | none =>
    rw [hcondition] at h
    exact absurd h (by simp [permits])
  | some condition =>
    rw [hcondition] at h
    -- whoever is read is a member
    have hread : ∀ place, (a.member c place >>= condition.holds) = .error err →
        a.Fails P err := by
      intro place h
      obtain h | ⟨m, hm, h⟩ := bind_eq_error_iff.mp h
      · exact fails_of_member h
      · have hP : P m := hc m (List.mem_of_getElem? (member_eq_ok_iff.mp hm))
        obtain ⟨-, rfl⟩ | ⟨v, hv, h⟩ := condition.holds_eq_error_iff.mp h
        · exact .attribute _ _
        · exact .condition hf hcondition hP hv h
    rw [permits] at h
    cases howner : condition.owner with
    | user =>
      rw [howner] at h
      exact hread _ h
    | target =>
      rw [howner] at h
      obtain h | ⟨place, -, h⟩ := bind_eq_error_iff.mp h
      · obtain ⟨-, rfl⟩ := need_eq_error_iff.mp h
        exact .target _
      · exact hread place h

theorem fails_of_resolve {target? : Option Entity} (hf : f ∈ a.effects) (huser : P user)
    (htarget : ∀ t ∈ target?, P t) (h : f.amount.resolve user target? = .error err) :
    a.Fails P err := by
  cases hamount : f.amount with
  | literal v =>
    rw [hamount] at h
    exact absurd h (by simp [Amount.resolve])
  | drawn d =>
    rw [hamount] at h
    obtain rfl | ⟨m, hm, h⟩ := d.resolve_eq_error (except_map_eq_error_iff.mp h)
    · exact .target _
    have hP : P m := by
      rcases hm with rfl | hm
      · exact huser
      · exact htarget m hm
    obtain rfl | ⟨v, hv, ⟨hnone, rfl⟩ | ⟨x, hx, hinfinite, rfl⟩⟩ := h
    · exact .attribute _ _
    · exact .amountSource hf hamount hP hv hnone
    · exact .amountRange hf hamount hP hv hx hinfinite

theorem fails_of_change (hf : f ∈ a.effects) (ho : ∀ m ∈ o.cast.members, P m)
    (h : a.change f target? o place = .error err) : a.Fails P err := by
  have hmember : ∀ {place m}, a.member o.cast place = .ok m → P m := fun hm ↦
    ho _ (List.mem_of_getElem? (member_eq_ok_iff.mp hm))
  rw [change] at h
  obtain h | ⟨user, huser, h⟩ := bind_eq_error_iff.mp h
  · exact fails_of_member h
  obtain h | ⟨target, htarget, h⟩ := bind_eq_error_iff.mp h
  · obtain ⟨_, -, h⟩ := exists_error_of_option_mapM h
    exact fails_of_member h
  have hP : ∀ t ∈ target, P t := by
    intro t ht
    cases option_mapM_eq_ok_iff.mp htarget with
    | none => exact absurd ht (Option.not_mem_none t)
    | some hm =>
      obtain rfl := Option.some.inj ht
      exact hmember hm
  obtain h | ⟨amount, hamount, h⟩ := bind_eq_error_iff.mp h
  · exact fails_of_resolve hf (hmember huser) hP h
  obtain h | ⟨m, hm, h⟩ := bind_eq_error_iff.mp h
  · exact fails_of_member h
  obtain h | ⟨s, hs, h⟩ := bind_eq_error_iff.mp h
  · exact fails_of_slot h
  obtain h | ⟨_, -, h⟩ := bind_eq_error_iff.mp h
  · obtain ⟨refusal, hrefusal, rfl⟩ := mapError_eq_error_iff.mp h
    exact .change hf (hmember hm) (slot_eq_ok_iff.mp hs) hamount hrefusal
  · exact absurd h (by simp [pure, Except.pure])

theorem fails_of_touch (hf : f ∈ a.effects) (ho : ∀ m ∈ o.cast.members, P m)
    (h : a.touch f o place = .error err) : a.Fails P err := by
  rw [touch] at h
  obtain h | ⟨holds, -, h⟩ := bind_eq_error_iff.mp h
  · exact fails_of_permits hf ho h
  cases holds with
  | true => exact fails_of_change hf ho h
  | false => exact absurd h (by simp [pure, Except.pure])

/-- The only complaint about a scope is that it has no target. -/
theorem touched_eq_error {scope : Scope} (h : a.touched c scope = .error err) :
    err = a.missingTarget := by
  cases scope with
  | user => exact absurd h (by simp [touched])
  | single =>
    obtain h | ⟨_, -, h⟩ := bind_eq_error_iff.mp h
    · exact (need_eq_error_iff.mp h).2
    · exact absurd h (by simp [pure, Except.pure])
  | every =>
    rw [touched] at h
    split at h
    · exact (Except.error.inj h).symm
    · exact absurd h (by simp)

theorem fails_of_step (hf : f ∈ a.effects) (hP : f.Preserves P) (ho : ∀ m ∈ o.cast.members, P m)
    (h : a.step o f = .error err) : a.Fails P err := by
  rw [step] at h
  obtain h | ⟨places, -, h⟩ := bind_eq_error_iff.mp h
  · obtain rfl := touched_eq_error h
    exact .target _
  obtain h | ⟨_, -, h⟩ := bind_eq_error_iff.mp h
  · obtain ⟨place, -, h⟩ := exists_error_of_forM h
    obtain h | ⟨m, -, h⟩ := bind_eq_error_iff.mp h
    · exact fails_of_member h
    · exact fails_of_slot (discard_eq_error_iff.mp h)
  · -- the touches before the one that fails preserve what is known
    obtain ⟨place, -, o', ho', h⟩ := exists_error_of_foldlM
      (P := fun o : Outcome ↦ ∀ m ∈ o.cast.members, P m) ho
      (fun _ _ _ _ ho ht ↦ forall_mem_touch hP ho ht) h
    exact fails_of_touch hf ho' h

/-- **Where an action fails.** An action whose effects preserve what is known of its user and its
targets fails at an entity of which it is known, for one of the listed reasons. -/
theorem fails_of_apply (huser : P user) (htargets : ∀ t ∈ targets, P t)
    (heffects : ∀ f ∈ a.effects, f.Preserves P) (h : a.apply user targets = .error err) :
    a.Fails P err := by
  obtain ⟨f, hf, o, ho, h⟩ := exists_error_of_foldlM
    (P := fun o : Outcome ↦ ∀ m ∈ o.cast.members, P m)
    (Cast.forall_mem_ofTargets huser htargets)
    (fun f hf _ _ ho hstep ↦ forall_mem_step (heffects f hf) ho hstep) h
  exact fails_of_step hf (heffects f hf) ho h

end Action

end Tabletop
