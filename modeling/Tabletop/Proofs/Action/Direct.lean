import Tabletop.Proofs.Action.Apply
import Tabletop.Proofs.Action.Cast

/-!
# Actions on a table of entities

What an action means, said without working copies: its effects run in order on a table of
entities, and an entity is looked up by its name each time it is read or changed. `Action.apply`
runs on a cast instead, where a member is addressed by its place, and a name that is mentioned more
than once has one member.

## The simulation

A cast stands for a table, the one with all members put in their places. While the cast seats the
user and the targets, a touch of a place does to that table what the direct touch of the name does
(`Simulates.touch`), and fails with the same error if it fails. Who shares a seat with whom is
never asked: two mentions of one name are two equal names on one side and two equal places on the
other.
-/

namespace Tabletop

/-! ## The direct run -/

/-- How far a direct run has come, and in the end what it did. -/
structure DirectRun where
  /-- The entities. -/
  entities : Table Entity
  /-- The changes in order. -/
  changes : List Change
  /-- How many times an effect was skipped. -/
  skipped : Nat

namespace DirectRun

/-- The entity of a name, as it is at the moment. -/
def row (t : Table Entity) (name : String) : Except RuleError Entity :=
  need (.unknownEntity name) (t.get? name)

/-- The names that a scope touches, one for each mention. -/
def touched (a : Action) (user : String) (targets : List String) :
    Scope → Except RuleError (List String)
  | .user => .ok [user]
  | .single => do
    let first ← need a.missingTarget targets.head?
    return [first]
  | .every => if targets.isEmpty then .error a.missingTarget else .ok targets

/-- Whether the condition of an effect holds at the moment, if it has one. -/
def permits (a : Action) (user : String) (target? : Option String) (t : Table Entity) :
    Option Condition → Except RuleError Bool
  | none => .ok true
  | some condition => do
    let name ← match condition.owner with
      | .user => pure user
      | .target => need a.missingTarget target?
    condition.holds (← row t name)

/-- Changes the entity of a name as an effect says, whatever its condition. -/
def change (a : Action) (user : String) (f : Effect) (target? : Option String) (r : DirectRun)
    (name : String) : Except RuleError DirectRun := do
  let userRow ← row r.entities user
  let targetRow ← target?.mapM (row r.entities)
  let amount ← f.amount.resolve userRow targetRow
  let e ← row r.entities name
  let slot ← Action.slot f e
  let after ← (f.modifier.apply slot.kind slot.value amount).mapError fun refusal ↦
    .typeMismatch (.effect refusal a.name name f.attr)
  return ⟨r.entities.adjust name (·.put f.attr after),
    r.changes ++ [⟨name, f.attr, slot.value, after⟩], r.skipped⟩

/-- Carries out an effect on the entity of one name, or skips it. -/
def touch (a : Action) (user : String) (targets : List String) (f : Effect) (r : DirectRun)
    (name : String) : Except RuleError DirectRun := do
  let target? := match f.scope with
    | .user => targets.head?
    | .single | .every => some name
  if ← permits a user target? r.entities f.condition then change a user f target? r name
  else return { r with skipped := r.skipped + 1 }

/-- Carries out one effect. Before it changes anything, all it touches must have the attribute. -/
def step (a : Action) (user : String) (targets : List String) (r : DirectRun) (f : Effect) :
    Except RuleError DirectRun := do
  let names ← touched a user targets f.scope
  names.forM fun name ↦ do
    let e ← row r.entities name
    discard (Action.slot f e)
  names.foldlM (touch a user targets f) r

/-- Carries out an action on a table of entities. -/
def run (a : Action) (user : String) (targets : List String) (t : Table Entity) :
    Except RuleError DirectRun :=
  a.effects.foldlM (step a user targets) ⟨t, [], 0⟩

variable {a : Action} {user name : String} {targets : List String} {f : Effect} {r r' : DirectRun}

/-- **What a direct touch does.** It skips, or it changes one value of the entity it touches. -/
theorem touch_cases (h : touch a user targets f r name = .ok r') :
    r' = { r with skipped := r.skipped + 1 } ∨
      ∃ e s after, r.entities.get? name = some e ∧ e.slot? f.attr = some s ∧
        r' = ⟨r.entities.adjust name (·.put f.attr after),
          r.changes ++ [⟨name, f.attr, s.value, after⟩], r.skipped⟩ := by
  obtain ⟨holds, -, h⟩ := bind_eq_ok_iff.mp h
  cases holds with
  | false =>
    obtain rfl := pure_eq_ok_iff.mp h
    exact .inl rfl
  | true =>
    simp only [change, bind_eq_ok_iff, if_true] at h
    obtain ⟨_, -, _, -, _, -, e, he, s, hs, after, -, h⟩ := h
    obtain rfl := pure_eq_ok_iff.mp h
    exact .inr ⟨e, s, after, need_eq_ok_iff.mp he, Action.slot_eq_ok_iff.mp hs, rfl⟩

end DirectRun

/-! ## The simulation -/

/-- A cast that has kept the names of `c₀`, with its members put in their places in `t`, is where
the direct run has come to. -/
structure Simulates (t : Table Entity) (c₀ : Cast) (o : Outcome) (r : DirectRun) : Prop where
  /-- The members bear the names they had. -/
  names : o.cast.names = c₀.names
  /-- The mentions are where they were. -/
  targets : o.cast.targets = c₀.targets
  /-- The members are the entities of the direct run. -/
  entities : r.entities = t.putAll o.cast.members
  /-- The same was changed. -/
  changes : r.changes = o.changes
  /-- The same was skipped. -/
  skipped : r.skipped = o.skipped

namespace Simulates

variable {t : Table Entity} {c₀ : Cast} {o : Outcome} {r : DirectRun} {user : String}
  {targets : List String} {place : Nat} {name : String} {a : Action} {f : Effect}
  {target? : Option Nat} {name? : Option String}

/-- A place and the name that sits there. -/
def At (c₀ : Cast) (place : Nat) (name : String) : Prop := c₀.names[place]? = some name

theorem rel_head? {R : Nat → String → Prop} {places : List Nat} {names : List String}
    (h : List.Forall₂ R places names) : Option.Rel R places.head? names.head? := by
  cases h with
  | nil => exact .none
  | cons hfirst _ => exact .some hfirst

theorem exists_row (h : Simulates t c₀ o r) (hc : c₀.Seats user targets)
    (ht : ∀ name ∈ c₀.names, name ∈ t.names) (hat : At c₀ place name) :
    ∃ m, o.cast.members[place]? = some m ∧ r.entities.get? name = some m ∧ m.name = name := by
  have hname : o.cast.names[place]? = some name := by
    rw [h.names]
    exact hat
  obtain ⟨m, hm, rfl⟩ := Cast.exists_member hname
  refine ⟨m, hm, ?_, rfl⟩
  rw [h.entities]
  refine Table.get?_putAll_of_mem ?_ (List.mem_of_getElem? hm) (ht _ (List.mem_of_getElem? hat))
  change o.cast.names.Nodup
  exact h.names ▸ hc.nodup

/-- A member is read at its place as the entity is under its name. -/
theorem member (h : Simulates t c₀ o r) (hc : c₀.Seats user targets)
    (ht : ∀ name ∈ c₀.names, name ∈ t.names) (hat : At c₀ place name) :
    Agree Eq (a.member o.cast place) (DirectRun.row r.entities name) := by
  obtain ⟨m, hm, hrow, -⟩ := h.exists_row hc ht hat
  rw [Action.member, DirectRun.row, hm, hrow]
  exact .ok rfl

theorem permits (h : Simulates t c₀ o r) (hc : c₀.Seats user targets)
    (ht : ∀ name ∈ c₀.names, name ∈ t.names) (htarget : Option.Rel (At c₀) target? name?)
    (condition? : Option Condition) :
    Agree Eq (a.permits o.cast target? condition?)
      (DirectRun.permits a user name? r.entities condition?) := by
  cases condition? with
  | none => exact .ok rfl
  | some condition =>
    have hread : ∀ place name, At c₀ place name →
        Agree Eq (a.member o.cast place >>= condition.holds)
          (DirectRun.row r.entities name >>= condition.holds) := by
      intro place name hat
      refine (h.member hc ht hat).bind ?_
      rintro m _ rfl
      exact .of_eq rfl
    simp only [Action.permits, DirectRun.permits]
    cases condition.owner with
    | user => exact hread _ _ hc.user
    | target => exact (Agree.need htarget).bind hread

/-- A change of a member is a change of the entity of its name. -/
theorem change (h : Simulates t c₀ o r) (hc : c₀.Seats user targets)
    (ht : ∀ name ∈ c₀.names, name ∈ t.names) (htarget : Option.Rel (At c₀) target? name?)
    (hat : At c₀ place name) :
    Agree (Simulates t c₀) (a.change f target? o place)
      (DirectRun.change a user f name? r name) := by
  refine (h.member hc ht hc.user).bind ?_
  rintro u _ rfl
  refine (Agree.option_mapM htarget fun _ _ ↦ h.member hc ht).bind fun target target' htt ↦ ?_
  obtain rfl : target = target' := by
    cases htt with
    | none => rfl
    | some h => exact congrArg some h
  refine .bind_same fun amount ↦ ?_
  -- from here on the row itself is needed, to write back what was read
  obtain ⟨m, hm, hrow, rfl⟩ := h.exists_row hc ht hat
  rw [Action.member, DirectRun.row, hm, hrow]
  refine Agree.bind (R := fun e e' ↦ m = e ∧ m = e') (.ok ⟨rfl, rfl⟩) ?_
  rintro _ _ ⟨rfl, rfl⟩
  refine .bind_same fun slot ↦ ?_
  refine .bind_same fun after ↦ ?_
  refine .ok ⟨?_, h.targets, ?_, ?_, h.skipped⟩
  · rw [Cast.names_set_of_name_eq hm Entity.put_name, h.names]
  · -- the direct change adjusts the row that it finds under the name, and that is `m`
    have hput : r.entities.adjust m.name (·.put f.attr after) =
        r.entities.put (m.put f.attr after) :=
      congrArg (Table.mk _) (changeFirst_congr fun e he ↦ by
        obtain rfl : e = m := Option.some.inj (he.symm.trans hrow)
        rfl)
    have hnodup : (o.cast.members.map Named.name).Nodup := by
      change o.cast.names.Nodup
      exact h.names ▸ hc.nodup
    have hset : t.putAll (o.cast.members.set place (m.put f.attr after)) =
        (t.putAll o.cast.members).put (m.put f.attr after) := Table.putAll_set hnodup hm rfl
    change r.entities.adjust m.name (·.put f.attr after) =
      t.putAll (o.cast.members.set place (m.put f.attr after))
    rw [hput, hset, h.entities]
  · exact congrArg (· ++ _) h.changes

/-- **One touch.** Touching a place does what touching the name directly does. -/
theorem touch (h : Simulates t c₀ o r) (hc : c₀.Seats user targets)
    (ht : ∀ name ∈ c₀.names, name ∈ t.names) (hat : At c₀ place name) :
    Agree (Simulates t c₀) (a.touch f o place) (DirectRun.touch a user targets f r name) := by
  -- what counts as the target: for self scope the first one named, else the one that is touched
  have htarget : Option.Rel (At c₀)
      (match f.scope with | .user => o.cast.targets.head? | .single | .every => some place)
      (match f.scope with | .user => targets.head? | .single | .every => some name) := by
    cases f.scope with
    | user =>
      rw [h.targets]
      exact rel_head? hc.targets
    | single => exact .some hat
    | every => exact .some hat
  refine (h.permits hc ht htarget f.condition).bind ?_
  rintro holds _ rfl
  cases holds with
  | true => exact h.change hc ht htarget hat
  | false =>
    exact .ok ⟨h.names, h.targets, h.entities, h.changes, congrArg (· + 1) h.skipped⟩

theorem touched (h : Simulates t c₀ o r) (hc : c₀.Seats user targets) (scope : Scope) :
    Agree (List.Forall₂ (At c₀)) (a.touched o.cast scope)
      (DirectRun.touched a user targets scope) := by
  have htargets : List.Forall₂ (At c₀) o.cast.targets targets := h.targets ▸ hc.targets
  cases scope with
  | user => exact .ok (.cons hc.user .nil)
  | single =>
    exact (Agree.need (rel_head? htargets)).bind fun _ _ hat ↦ .ok (.cons hat .nil)
  | every =>
    rw [Action.touched, DirectRun.touched]
    generalize o.cast.targets = places at htargets ⊢
    cases htargets with
    | nil => exact .error _
    | cons hfirst hrest => exact .ok (.cons hfirst hrest)

/-- **One effect.** -/
theorem step (h : Simulates t c₀ o r) (hc : c₀.Seats user targets)
    (ht : ∀ name ∈ c₀.names, name ∈ t.names) :
    Agree (Simulates t c₀) (a.step o f) (DirectRun.step a user targets r f) := by
  refine (h.touched hc f.scope).bind fun places names hplaces ↦ ?_
  -- the check that all have the attribute comes first on both sides, and the touches after it
  refine (Agree.forM hplaces fun place name hat ↦ (h.member hc ht hat).bind ?_).bind
    fun _ _ _ ↦ Agree.foldlM hplaces h fun place name o r hat h ↦ h.touch hc ht hat
  rintro m _ rfl
  exact .of_eq rfl

end Simulates

/-- **A whole action.** The members that an action leaves, put in their places, are what the direct
run leaves, and both fail with the same error if they fail. -/
theorem Action.agree_apply {t : Table Entity} (a : Action) {user : Entity} {targets : List Entity}
    (huser : t.get? user.name = some user) (htargets : ∀ e ∈ targets, t.get? e.name = some e) :
    Agree (Simulates t (Cast.ofTargets user targets)) (a.apply user targets)
      (DirectRun.run a user.name (targets.map Entity.name) t) := by
  have hmembers : ∀ m ∈ (Cast.ofTargets user targets).members, t.get? m.name = some m :=
    Cast.forall_mem_ofTargets huser htargets
  have hknown : ∀ name ∈ (Cast.ofTargets user targets).names, name ∈ t.names := by
    intro name hname
    obtain ⟨m, hm, rfl⟩ := List.mem_map.mp hname
    exact Table.mem_names_of_get? (hmembers m hm)
  -- to begin with the members are copies of rows, and putting them back changes nothing
  have hstart : Simulates t (Cast.ofTargets user targets)
      ⟨Cast.ofTargets user targets, [], 0⟩ ⟨t, [], 0⟩ :=
    ⟨rfl, rfl, (Table.putAll_of_get? hmembers).symm, rfl, rfl⟩
  exact Agree.foldlM (R := Eq) (List.forall₂_same.mpr fun _ _ ↦ rfl) hstart
    fun f _ o r hf h ↦ hf ▸ h.step (Cast.seats_ofTargets user targets) hknown

end Tabletop
