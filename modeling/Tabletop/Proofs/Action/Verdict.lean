import Tabletop.Proofs.RuleSet.Replay

/-!
# Deciding and carrying out

A touch does two things in one go: it decides what becomes of an entity, and carries that out. Taken
apart, the decision is a function of the entities as they are (`DirectRun.verdict`), and carrying it
out is one more entry in what the run has done (`DirectRun.record`).

An effect on every target decides and carries out by turns, so that each decision is made on
entities that the effect has changed in part. That makes no difference as long as no target comes
twice or is the user. A decision looks at the user, and at the target it is about, and by then
neither has been changed by the same effect. So all may as well be decided before anything is
carried out (`DirectRun.foldlM_touch_every`).
-/

namespace Tabletop

/-! ## What an effect reads -/

/-- Whether an amount is drawn from the target. -/
def Amount.readsTarget : Amount → Bool
  | .literal _ => false
  | .drawn d => d.owner = .target

/-- Whether an effect reads the target, in its condition or for its amount. -/
def Effect.readsTarget (f : Effect) : Bool :=
  f.condition.any (·.owner = .target) || f.amount.readsTarget

namespace DirectRun

/-! ## Verdicts -/

/-- What an effect makes of the entity of a name, decided on the entities as they are: a change, or
nothing if its condition does not hold. -/
def verdict (a : Action) (user : String) (f : Effect) (target? : Option String) (t : Table Entity)
    (name : String) : Except RuleError (Option Change) := do
  if ← permits a user target? t f.condition then
    let userRow ← row t user
    let targetRow ← target?.mapM (row t)
    let amount ← f.amount.resolve userRow targetRow
    let e ← row t name
    let slot ← Action.slot f e
    let after ← (f.modifier.apply slot.kind slot.value amount).mapError fun refusal ↦
      .typeMismatch (.effect refusal a.name name f.attr)
    return some ⟨name, f.attr, slot.value, after⟩
  else return none

/-- A run with one more verdict carried out. -/
def record (r : DirectRun) : Option Change → DirectRun
  | none => { r with skipped := r.skipped + 1 }
  | some c => ⟨c.redo r.entities, r.changes ++ [c], r.skipped⟩

variable {a : Action} {f : Effect} {user name : String} {target? : Option String}
  {targets : List String} {r : DirectRun} {t t' : Table Entity}

/-- **A touch is its verdict, carried out.** -/
theorem touch_eq_map_verdict :
    touch a user targets f r name = (verdict a user f
      (match f.scope with | .user => targets.head? | .single | .every => some name)
      r.entities name).map r.record := by
  -- both take the same steps, and what they end with is the same
  refine Agree.eq_map ?_
  refine .bind_same fun holds ↦ ?_
  cases holds with
  | false => exact .ok rfl
  | true =>
    refine .bind_same fun userRow ↦ ?_
    refine .bind_same fun targetRow ↦ ?_
    refine .bind_same fun amount ↦ ?_
    refine .bind_same fun e ↦ ?_
    refine .bind_same fun slot ↦ ?_
    refine .bind_same fun after ↦ ?_
    exact .ok rfl

theorem entity_of_verdict {c : Change} (h : verdict a user f target? t name = .ok (some c)) :
    c.entity = name := by
  obtain ⟨holds, -, h⟩ := bind_eq_ok_iff.mp h
  cases holds with
  | false => exact absurd (pure_eq_ok_iff.mp h) (by simp)
  | true =>
    simp only [bind_eq_ok_iff, if_true] at h
    obtain ⟨_, -, _, -, _, -, _, -, _, -, _, -, h⟩ := h
    exact (Option.some.inj (pure_eq_ok_iff.mp h)) ▸ rfl

/-! ### What a verdict depends on -/

theorem row_congr (h : t'.get? name = t.get? name) : row t' name = row t name := by
  rw [row, row, h]

theorem permits_congr (huser : t'.get? user = t.get? user)
    (htarget : ∀ n ∈ target?, t'.get? n = t.get? n) (condition? : Option Condition) :
    permits a user target? t' condition? = permits a user target? t condition? := by
  rcases condition? with _ | condition
  · rfl
  · rw [permits, permits]
    cases condition.owner with
    | user => exact congrArg (· >>= condition.holds) (row_congr huser)
    | target =>
      rcases target? with _ | n
      · rfl
      · exact congrArg (· >>= condition.holds) (row_congr (htarget n rfl))

/-- A verdict looks at the user, at the target and at the entity that it is about. -/
theorem verdict_congr (huser : t'.get? user = t.get? user) (hname : t'.get? name = t.get? name)
    (htarget : ∀ n ∈ target?, t'.get? n = t.get? n) :
    verdict a user f target? t' name = verdict a user f target? t name := by
  have htargetRow : target?.mapM (row t') = target?.mapM (row t) := by
    rcases target? with _ | n
    · rfl
    · rw [Option.mapM_some, Option.mapM_some, row_congr (htarget n rfl)]
  rw [verdict, verdict, permits_congr huser htarget, row_congr huser, htargetRow, row_congr hname]

end DirectRun

theorem Amount.resolve_of_not_readsTarget {amount : Amount} (h : amount.readsTarget = false)
    (user : Entity) (target? : Option Entity) :
    amount.resolve user target? = amount.resolve user none := by
  cases amount with
  | literal v => rfl
  | drawn d =>
    have howner : d.owner = .user := by
      cases hd : d.owner with
      | user => rfl
      | target => simp [readsTarget, hd] at h
    rw [resolve, resolve, Draw.resolve, Draw.resolve, howner]

namespace DirectRun

variable {a : Action} {f : Effect} {user name : String} {target? : Option String}
  {targets names : List String} {r : DirectRun} {t : Table Entity}

theorem permits_of_not_readsTarget {condition? : Option Condition}
    (h : condition?.any (·.owner = .target) = false) :
    permits a user target? t condition? = permits a user none t condition? := by
  rcases condition? with _ | condition
  · rfl
  · have howner : condition.owner = .user := by
      cases hc : condition.owner with
      | user => rfl
      | target => simp [hc] at h
    rw [permits, permits, howner]

/-- An effect that does not read the target has the same verdict without one. -/
theorem verdict_of_not_readsTarget (hf : f.readsTarget = false)
    (htarget : ∀ n ∈ target?, n ∈ t.names) :
    verdict a user f target? t name = verdict a user f none t name := by
  obtain ⟨hcondition, hamount⟩ := Bool.or_eq_false_iff.mp hf
  -- the target is looked up all the same, but it is there
  obtain ⟨targetRow, htargetRow⟩ : ∃ targetRow, target?.mapM (row t) = .ok targetRow := by
    rcases target? with _ | n
    · exact ⟨none, rfl⟩
    · obtain ⟨e, he⟩ := Option.isSome_iff_exists.mp (Table.contains_iff.mpr (htarget n rfl))
      exact ⟨some e, by rw [Option.mapM_some, row, he]; rfl⟩
  rw [verdict, verdict, permits_of_not_readsTarget hcondition, htargetRow]
  simp only [Amount.resolve_of_not_readsTarget hamount]
  rfl

/-! ## Carrying verdicts out -/

theorem foldl_record (vs : List (Option Change)) (r : DirectRun) :
    vs.foldl record r = ⟨r.entities.replay vs.reduceOption, r.changes ++ vs.reduceOption,
      r.skipped + vs.count none⟩ := by
  induction vs generalizing r with
  | nil => simp [Table.replay]
  | cons v vs ih =>
    rw [List.foldl_cons, ih]
    rcases v with _ | c
    · simp [record, Nat.add_assoc, Nat.add_comm 1]
    · simp [record, Table.replay]

theorem get?_record_of_ne {v : Option Change} (h : ∀ c ∈ v, name ≠ c.entity) :
    (r.record v).entities.get? name = r.entities.get? name := by
  rcases v with _ | c
  · rfl
  · exact Table.get?_adjust_of_ne (fun _ ha ↦ ha) (h c rfl)

/-- **Decided before carried out.** What an effect makes of several entities, none of them the user,
is the same whether or not it was carried out on the others before. -/
theorem foldlM_touch_every (hscope : f.scope = .every) (hnames : names.Nodup)
    (huser : user ∉ names) :
    names.foldlM (touch a user targets f) r =
      (names.mapM fun name ↦ verdict a user f (some name) r.entities name).map
        (·.foldl record r) := by
  induction names generalizing r with
  | nil => rfl
  | cons name names ih =>
    obtain ⟨hname, hnames⟩ := List.nodup_cons.mp hnames
    obtain ⟨hne, huser⟩ := not_or.mp (List.mem_cons.not.mp huser)
    rw [List.foldlM_cons, List.mapM_cons, touch_eq_map_verdict, hscope]
    rcases hv : verdict a user f (some name) r.entities name with e | v
    · rfl
    · -- the first verdict concerns neither the user nor those that follow
      have hget : ∀ n, n ≠ name → (r.record v).entities.get? n = r.entities.get? n := by
        intro n hn
        refine get?_record_of_ne fun c hc ↦ ?_
        obtain rfl := hc
        rwa [entity_of_verdict hv]
      have hrest : (names.mapM fun n ↦ verdict a user f (some n) (r.record v).entities n) =
          names.mapM fun n ↦ verdict a user f (some n) r.entities n := by
        refine mapM_congr fun n hn ↦ ?_
        have hn : n ≠ name := fun h ↦ hname (h ▸ hn)
        exact verdict_congr (hget user hne) (hget n hn) fun _ h ↦ Option.some.inj h ▸ hget n hn
      change names.foldlM (touch a user targets f) (r.record v) = _
      rw [ih hnames huser, hrest]
      rcases names.mapM fun n ↦ verdict a user f (some n) r.entities n with _ | _ <;> rfl

/-- Each change that is decided is one of an entity in its turn. -/
theorem entities_of_verdicts {vs : List (Option Change)}
    (h : names.mapM (fun name ↦ verdict a user f (some name) t name) = .ok vs) :
    (vs.reduceOption.map Change.entity).Sublist names := by
  have hall := mapM_eq_ok_iff.mp h
  clear h
  induction hall with
  | nil => exact .slnil
  | @cons name v names vs hv _ ih =>
    rcases v with _ | c
    · exact ih.cons name
    · rw [List.reduceOption_cons_of_some, List.map_cons, entity_of_verdict hv]
      exact ih.cons_cons name

end DirectRun

end Tabletop
