import Tabletop.Action.Apply
import Tabletop.Proofs.Checks

/-!
# What an action does to its cast

The steps of an action taken apart. A touch that succeeds either skips its effect, and then only
the count of skipped effects grows, or changes one slot of one member (`touch_cases`). So whatever
holds of the first cast and survives a touch holds of every cast that an action returns
(`apply_induct`), and what survives a change of a slot holds of every member.
-/

namespace Tabletop

variable {e : Entity} {attr : String} {v : Value}

/-! ## Slots -/

@[simp] theorem Entity.put_name : (e.put attr v).name = e.name := rfl

/-! ## Casts -/

namespace Cast

variable {c : Cast} {user target : Entity} {targets : List Entity} {P : Entity → Prop}

theorem mem_members_mention {m : Entity} (h : m ∈ (c.mention target).members) :
    m ∈ c.members ∨ m = target := by
  unfold mention at h
  split at h
  · exact .inl h
  · simpa using h

/-- The members of a cast are the user and targets. -/
theorem forall_mem_ofTargets (huser : P user) (htargets : ∀ t ∈ targets, P t) :
    ∀ m ∈ (ofTargets user targets).members, P m := by
  have key : ∀ (ts : List Entity) (c : Cast), (∀ m ∈ c.members, P m) → (∀ t ∈ ts, P t) →
      ∀ m ∈ (ts.foldl mention c).members, P m := by
    intro ts
    induction ts with
    | nil => exact fun c hc _ ↦ hc
    | cons t ts ih =>
      intro c hc hts
      obtain ⟨ht, hts⟩ := List.forall_mem_cons.mp hts
      refine ih (c.mention t) (fun m hm ↦ ?_) hts
      rcases mem_members_mention hm with hm | rfl
      · exact hc m hm
      · exact ht
  exact key targets ⟨[user], []⟩ (by simpa using huser) htargets

theorem forall_mem_set {place : Nat} {e : Entity} (hc : ∀ m ∈ c.members, P m) (he : P e) :
    ∀ m ∈ (c.set place e).members, P m := by
  intro m hm
  rcases List.mem_or_eq_of_mem_set hm with h | rfl
  · exact hc m h
  · exact he

end Cast

/-! ## Touching one member -/

namespace Action

variable {a : Action} {f : Effect} {c : Cast} {o o' : Outcome} {place : Nat} {target? : Option Nat}

theorem member_eq_ok_iff : a.member c place = .ok e ↔ c.members[place]? = some e := need_eq_ok_iff

theorem slot_eq_ok_iff {s : Slot} : slot f e = .ok s ↔ e.slot? f.attr = some s := need_eq_ok_iff

theorem change_eq_ok_iff :
    a.change f target? o place = .ok o' ↔
      ∃ user target amount m s after,
        o.cast.members[Cast.userPlace]? = some user ∧
        target?.mapM (a.member o.cast) = .ok target ∧
        f.amount.resolve user target = .ok amount ∧
        o.cast.members[place]? = some m ∧
        m.slot? f.attr = some s ∧
        f.modifier.apply s.kind s.value amount = .ok after ∧
        o' = ⟨o.cast.set place (m.put f.attr after),
          o.changes ++ [⟨m.name, f.attr, s.value, after⟩], o.skipped⟩ := by
  simp only [change, bind_eq_ok_iff, member_eq_ok_iff, slot_eq_ok_iff, mapError_eq_ok_iff,
    pure_eq_ok_iff, exists_and_left, eq_comm (b := o')]

theorem touch_eq_ok_iff :
    a.touch f o place = .ok o' ↔
      ∃ target?, target? = (match f.scope with
        | .user => o.cast.targets.head?
        | .single | .every => some place) ∧
        (a.permits o.cast target? f.condition = .ok true ∧ a.change f target? o place = .ok o' ∨
          a.permits o.cast target? f.condition = .ok false ∧
            o' = { o with skipped := o.skipped + 1 }) := by
  rw [touch, exists_eq_left, bind_eq_ok_iff]
  constructor
  · rintro ⟨holds, hp, h⟩
    cases holds with
    | true => exact .inl ⟨hp, h⟩
    | false => exact .inr ⟨hp, (pure_eq_ok_iff.mp h).symm⟩
  · rintro (⟨hp, h⟩ | ⟨hp, rfl⟩)
    · exact ⟨true, hp, h⟩
    · exact ⟨false, hp, rfl⟩

/-- **What a touch does.** It skips, or it changes one slot of the member it touches. -/
theorem touch_cases (h : a.touch f o place = .ok o') :
    o' = { o with skipped := o.skipped + 1 } ∨
      ∃ user target amount m s after,
        f.amount.resolve user target = .ok amount ∧
        o.cast.members[place]? = some m ∧
        m.slot? f.attr = some s ∧
        f.modifier.apply s.kind s.value amount = .ok after ∧
        o' = ⟨o.cast.set place (m.put f.attr after),
          o.changes ++ [⟨m.name, f.attr, s.value, after⟩], o.skipped⟩ := by
  obtain ⟨target?, -, ⟨-, h⟩ | ⟨-, rfl⟩⟩ := touch_eq_ok_iff.mp h
  · obtain ⟨user, target, amount, m, s, after, -, -, hamount, hm, hs, hafter, rfl⟩ :=
      change_eq_ok_iff.mp h
    exact .inr ⟨user, target, amount, m, s, after, hamount, hm, hs, hafter, rfl⟩
  · exact .inl rfl

/-! ## Runs -/

variable {user : Entity} {targets : List Entity}

theorem step_eq_ok_iff :
    a.step o f = .ok o' ↔
      ∃ places, a.touched o.cast f.scope = .ok places ∧
        (∀ place ∈ places, ∃ m s, o.cast.members[place]? = some m ∧ m.slot? f.attr = some s) ∧
        places.foldlM (a.touch f) o = .ok o' := by
  rw [step, bind_eq_ok_iff]
  refine exists_congr fun places ↦ and_congr_right fun _ ↦ ?_
  rw [check_bind_eq_ok_iff]
  refine and_congr_left fun _ ↦ forM_eq_ok_iff.trans (forall₂_congr fun place _ ↦ ?_)
  simp only [bind_eq_ok_iff, member_eq_ok_iff, discard_eq_ok_iff, slot_eq_ok_iff, exists_and_left]

/-- What survives every touch of an effect survives the effect. -/
theorem step_induct {P : Outcome → Prop} (ho : P o)
    (htouch : ∀ place o o', P o → a.touch f o place = .ok o' → P o') (h : a.step o f = .ok o') :
    P o' := by
  obtain ⟨places, -, -, hfold⟩ := step_eq_ok_iff.mp h
  exact foldlM_induct ho (fun place _ o o' ↦ htouch place o o') hfold

/-- What survives every touch of every effect survives the action. -/
theorem apply_induct {P : Outcome → Prop} (h₀ : P ⟨Cast.ofTargets user targets, [], 0⟩)
    (htouch : ∀ f ∈ a.effects, ∀ place o o', P o → a.touch f o place = .ok o' → P o')
    (h : a.apply user targets = .ok o) : P o :=
  foldlM_induct h₀ (fun f hf _ _ ho hstep ↦ step_induct ho (htouch f hf) hstep) h

end Action

/-! ## What all members are -/

/-- Whether a property of entities survives every change that an effect can make. -/
def Effect.Preserves (f : Effect) (P : Entity → Prop) : Prop :=
  ∀ user target amount m s after, P m → f.amount.resolve user target = .ok amount →
    m.slot? f.attr = some s → f.modifier.apply s.kind s.value amount = .ok after →
    P (m.put f.attr after)

/-- No effect renames an entity. -/
theorem Effect.preserves_name (f : Effect) (P : String → Prop) : f.Preserves fun m ↦ P m.name :=
  fun _ _ _ _ _ _ hm _ _ _ ↦ hm

namespace Action

variable {a : Action} {f : Effect} {o o' : Outcome} {place : Nat} {user : Entity}
  {targets : List Entity} {P : Entity → Prop}

theorem forall_mem_touch (hf : f.Preserves P) (ho : ∀ m ∈ o.cast.members, P m)
    (h : a.touch f o place = .ok o') : ∀ m ∈ o'.cast.members, P m := by
  obtain rfl | ⟨user, target, amount, m, s, after, hamount, hm, hs, hafter, rfl⟩ := touch_cases h
  · exact ho
  · have hmem : P m := ho m (List.mem_of_getElem? hm)
    exact Cast.forall_mem_set ho (hf user target amount m s after hmem hamount hs hafter)

theorem forall_mem_step (hf : f.Preserves P) (ho : ∀ m ∈ o.cast.members, P m)
    (h : a.step o f = .ok o') : ∀ m ∈ o'.cast.members, P m :=
  step_induct (P := fun o ↦ ∀ m ∈ o.cast.members, P m) ho
    (fun _ _ _ ho ht ↦ forall_mem_touch hf ho ht) h

/-- What the effects preserve holds of every member, to the end of the action. -/
theorem forall_mem_apply (huser : P user) (htargets : ∀ t ∈ targets, P t)
    (heffects : ∀ f ∈ a.effects, f.Preserves P) (h : a.apply user targets = .ok o) :
    ∀ m ∈ o.cast.members, P m :=
  apply_induct (P := fun o ↦ ∀ m ∈ o.cast.members, P m)
    (Cast.forall_mem_ofTargets huser htargets)
    (fun f hf _ _ _ ho ht ↦ forall_mem_touch (heffects f hf) ho ht) h

end Action

end Tabletop
