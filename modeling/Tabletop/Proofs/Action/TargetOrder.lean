import Tabletop.Proofs.Action.Verdict
import Tabletop.Proofs.RuleSet.Sound

/-!
# The order of targets

An action whose effects come to all targets alike, or to the user without a look at a target, does
the same in whatever order its targets are named (`Action.apply_perm`). Only what is reported comes
in another order.

Each effect by itself is indifferent to the order because it can be decided for all targets before
it is carried out on any of them. The changes it decides on are of different entities, so they can
be made in any order (`Table.replay_perm`). It goes the same way for a whole run, in which the two
orders come to the same entities after each effect. What the first fault is depends on the order,
though, so of two runs that fail the errors are not compared.

Two targets of one name are one entity that is changed twice, and a user that targets itself is seen
by the targets after it as it has become. Neither can do with any order.
-/

namespace Tabletop

/-- Changes of different entities may be made in any order. -/
theorem Table.replay_perm {t : Table Entity} {changes changes' : List Change}
    (h : changes.Perm changes') (hnodup : (changes.map Change.entity).Nodup) :
    t.replay changes = t.replay changes' := by
  refine h.foldl_eq' (fun c hc c' hc' t ↦ ?_) t
  by_cases hsame : c.entity = c'.entity
  · rw [List.inj_on_of_nodup_map hnodup hc hc' hsame]
  · exact adjust_comm (fun _ ha ↦ ha) (fun _ ha ↦ ha) (Ne.symm hsame)

/-- Whether an effect comes to all targets alike, or to the user without a look at a target. -/
def Effect.IsImpartial (f : Effect) : Prop :=
  f.scope = .every ∨ f.scope = .user ∧ f.readsTarget = false

instance (f : Effect) : Decidable f.IsImpartial :=
  inferInstanceAs (Decidable (f.scope = .every ∨ f.scope = .user ∧ f.readsTarget = false))

namespace DirectRun

variable {a : Action} {f : Effect} {user name : String} {targets targets' : List String}
  {r r' : DirectRun} {t : Table Entity}

/-! ## Names -/

theorem names_touch (h : touch a user targets f r name = .ok r') :
    r'.entities.names = r.entities.names := by
  obtain rfl | ⟨e, s, after, -, -, rfl⟩ := touch_cases h
  · rfl
  · exact Table.names_adjust fun _ ha ↦ ha

theorem names_step (h : step a user targets r f = .ok r') :
    r'.entities.names = r.entities.names := by
  obtain ⟨names, -, h⟩ := bind_eq_ok_iff.mp h
  obtain ⟨-, h⟩ := check_bind_eq_ok_iff.mp h
  exact foldlM_induct (P := fun r' ↦ r'.entities.names = r.entities.names) rfl
    (fun _ _ _ _ hr ht ↦ (names_touch ht).trans hr) h

/-! ## Two runs side by side -/

/-- Whether two runs have come to the same entities, by the same changes in whatever order. -/
structure SameButOrder (r r' : DirectRun) : Prop where
  /-- The entities are the same, in their places. -/
  entities : r'.entities = r.entities
  /-- The same was changed. -/
  changes : r.changes.Perm r'.changes
  /-- As much was skipped. -/
  skipped : r'.skipped = r.skipped

namespace SameButOrder

theorem foldl_record {vs vs' : List (Option Change)} (hr : SameButOrder r r') (h : vs.Perm vs')
    (hnodup : (vs.reduceOption.map Change.entity).Nodup) :
    SameButOrder (vs.foldl DirectRun.record r) (vs'.foldl DirectRun.record r') := by
  have hchanges : vs.reduceOption.Perm vs'.reduceOption := h.filterMap id
  rw [DirectRun.foldl_record, DirectRun.foldl_record]
  refine ⟨?_, hr.changes.append hchanges, ?_⟩
  · change r'.entities.replay _ = r.entities.replay _
    rw [hr.entities, Table.replay_perm hchanges hnodup]
  · change r'.skipped + _ = r.skipped + _
    rw [hr.skipped, h.count_eq]

theorem record (hr : SameButOrder r r') (v : Option Change) :
    SameButOrder (r.record v) (r'.record v) := by
  refine hr.foldl_record (.refl [v]) ?_
  rcases v with _ | c <;> simp

end SameButOrder

/-- The touches of an area effect, made in two orders. -/
theorem together_touches (hscope : f.scope = .every) (hnodup : targets.Nodup)
    (huser : user ∉ targets) (hperm : targets.Perm targets') (hr : SameButOrder r r') :
    Together SameButOrder (targets.foldlM (touch a user targets f) r)
      (targets'.foldlM (touch a user targets' f) r') := by
  have hnodup' : targets'.Nodup := hperm.nodup_iff.mp hnodup
  have huser' : user ∉ targets' := fun h ↦ huser (hperm.mem_iff.mpr h)
  rw [foldlM_touch_every hscope hnodup huser, foldlM_touch_every hscope hnodup' huser',
    hr.entities]
  -- all verdicts are told from the same entities, so only their order differs
  have hverdicts : Together
      (fun vs vs' ↦ vs.Perm vs' ∧ (vs.reduceOption.map Change.entity).Nodup)
      (targets.mapM fun name ↦ verdict a user f (some name) r.entities name)
      (targets'.mapM fun name ↦ verdict a user f (some name) r.entities name) :=
    (Together.mapM_perm hperm).mono fun vs _ hvs _ h ↦
      ⟨h, hnodup.sublist (entities_of_verdicts hvs)⟩
  exact hverdicts.map fun _ _ h ↦ hr.foldl_record h.1 h.2

/-- The touch of an effect on the user that does not read a target. -/
theorem together_touch_user (hscope : f.scope = .user) (hf : f.readsTarget = false)
    (hknown : ∀ n ∈ targets, n ∈ r.entities.names) (hperm : targets.Perm targets')
    (hr : SameButOrder r r') :
    Together SameButOrder (touch a user targets f r user) (touch a user targets' f r' user) := by
  have hhead : ∀ n ∈ targets.head?, n ∈ r.entities.names := fun n hn ↦
    hknown n (List.mem_of_head? hn)
  have hhead' : ∀ n ∈ targets'.head?, n ∈ r.entities.names := fun n hn ↦
    hknown n (hperm.mem_iff.mpr (List.mem_of_head? hn))
  rw [touch_eq_map_verdict, touch_eq_map_verdict, hscope, hr.entities,
    verdict_of_not_readsTarget hf hhead, verdict_of_not_readsTarget hf hhead']
  exact (Together.of_eq rfl).map fun v _ h ↦ h ▸ hr.record v

/-- An area effect asks for a target, whatever the order. -/
theorem together_touched (hperm : targets.Perm targets') :
    Together (fun names names' ↦ names = targets ∧ names' = targets')
      (touched a user targets .every) (touched a user targets' .every) := by
  have hempty : targets'.isEmpty = targets.isEmpty := by
    rw [Bool.eq_iff_iff, List.isEmpty_iff, List.isEmpty_iff, ← List.length_eq_zero_iff,
      ← List.length_eq_zero_iff, hperm.length_eq]
  rw [touched, touched, hempty]
  by_cases h : targets.isEmpty
  · rw [if_pos h, if_pos h]
    exact .error _ _
  · rw [if_neg h, if_neg h]
    exact .ok ⟨rfl, rfl⟩

/-- **One effect.** -/
theorem together_step (hf : f.IsImpartial) (hnodup : targets.Nodup) (huser : user ∉ targets)
    (hknown : ∀ n ∈ targets, n ∈ r.entities.names) (hperm : targets.Perm targets')
    (hr : SameButOrder r r') :
    Together SameButOrder (step a user targets r f) (step a user targets' r' f) := by
  rw [step, step, hr.entities]
  obtain hscope | ⟨hscope, hreads⟩ := hf
  · rw [hscope]
    refine (together_touched hperm).bind ?_
    rintro _ _ ⟨rfl, rfl⟩
    exact (Together.forM_perm hperm).bind fun _ _ _ ↦
      together_touches hscope hnodup huser hperm hr
  · rw [hscope, touched, touched]
    refine Together.bind (R := fun names names' ↦ names = [user] ∧ names' = [user])
      (.ok ⟨rfl, rfl⟩) ?_
    rintro _ _ ⟨rfl, rfl⟩
    refine (Together.of_eq rfl).bind fun _ _ _ ↦ ?_
    exact (together_touch_user hscope hreads hknown hperm hr).bind fun _ _ h ↦ .ok h

/-- **A whole run.** -/
theorem together_run (heffects : ∀ f ∈ a.effects, f.IsImpartial) (hnodup : targets.Nodup)
    (huser : user ∉ targets) (hknown : ∀ n ∈ targets, n ∈ t.names)
    (hperm : targets.Perm targets') :
    Together SameButOrder (run a user targets t) (run a user targets' t) := by
  -- no effect takes an entity out, so the targets are there to the end
  refine (Together.foldlM (S := fun r r' ↦ SameButOrder r r' ∧ r.entities.names = t.names)
    ⟨⟨rfl, .refl _, rfl⟩, rfl⟩ fun f hf r r' ⟨hr, hnames⟩ ↦ ?_).mono fun _ _ _ _ h ↦ h.1
  refine (together_step (heffects f hf) hnodup huser (hnames ▸ hknown) hperm hr).mono
    fun r₁ _ h₁ _ h ↦ ⟨h, (names_step h₁).trans hnames⟩

end DirectRun

/-! ## Outcomes -/

/-- Whether two outcomes are the same, up to the order in which targets were named. -/
structure Outcome.UpToOrder (o o' : Outcome) : Prop where
  /-- Each name has the same copy. -/
  copies : ∀ name, o'.cast.members.find? (·.name == name) = o.cast.members.find? (·.name == name)
  /-- There are no other copies. -/
  members : o.cast.members.Perm o'.cast.members
  /-- The same was changed. -/
  changes : o.changes.Perm o'.changes
  /-- As much was skipped. -/
  skipped : o'.skipped = o.skipped

namespace Simulates

variable {t : Table Entity} {c c' : Cast} {o o' : Outcome} {r r' : DirectRun}

/-- The members of a cast are the entities of the direct run, name by name. -/
theorem map_members (h : Simulates t c o r) (hnodup : c.names.Nodup)
    (ht : ∀ name ∈ c.names, name ∈ t.names) :
    o.cast.members.map some = c.names.map r.entities.get? := by
  have hnodup' : (o.cast.members.map Named.name).Nodup := by
    change o.cast.names.Nodup
    rwa [h.names]
  have hknown : ∀ m ∈ o.cast.members, m.name ∈ t.names := fun m hm ↦
    ht _ (h.names ▸ List.mem_map_of_mem hm)
  rw [← h.names, Cast.names, List.map_map, h.entities]
  exact List.map_congr_left fun m hm ↦ (Table.get?_putAll_of_mem hnodup' hm (hknown m hm)).symm

/-- Casts of the same names that stand for the same entities have the same members. -/
theorem upToOrder (h : Simulates t c o r) (h' : Simulates t c' o' r') (hsame : r.SameButOrder r')
    (hnodup : c.names.Nodup) (hnames : c.names.Perm c'.names)
    (ht : ∀ name ∈ c.names, name ∈ t.names) : o.UpToOrder o' := by
  have hmembers : o.cast.members.Perm o'.cast.members := by
    refine (List.map_perm_map_iff (Option.some_injective Entity)).mp ?_
    rw [h.map_members hnodup ht, h'.map_members (hnames.nodup_iff.mp hnodup) fun n hn ↦
      ht n (hnames.mem_iff.mpr hn), hsame.entities]
    exact hnames.map _
  refine ⟨fun name ↦ ?_, hmembers, ?_, ?_⟩
  · have hmemberNames : o.cast.names.Nodup := h.names ▸ hnodup
    have hget : (⟨.entity, o'.cast.members⟩ : Table Entity).get? name =
        (⟨.entity, o.cast.members⟩ : Table Entity).get? name :=
      Table.get?_eq_of_perm hmemberNames hmembers
    exact hget
  · rw [← h.changes, ← h'.changes]
    exact hsame.changes
  · rw [← h.skipped, ← h'.skipped, hsame.skipped]

end Simulates

theorem Cast.names_ofTargets_of_nodup {user : Entity} {targets : List Entity}
    (h : ((user :: targets).map Entity.name).Nodup) :
    (Cast.ofTargets user targets).names = (user :: targets).map Entity.name := by
  rw [Cast.names_ofTargets]
  exact eraseDups_of_nodup h

namespace Action

variable {a : Action} {user : Entity} {targets targets' : List Entity}

/-- **The order of targets does not matter to area effects.** An action whose effects come to all
targets alike, or to the user without a look at a target, is carried out on different targets in any
order or in none. Whenever it is carried out, every entity ends up the same, the same changes are
reported in some order, and as many effects are skipped. -/
theorem apply_perm (heffects : ∀ f ∈ a.effects, f.IsImpartial)
    (hnodup : (targets.map Entity.name).Nodup) (huser : user.name ∉ targets.map Entity.name)
    (hperm : targets.Perm targets') :
    Together Outcome.UpToOrder (a.apply user targets) (a.apply user targets') := by
  -- both orders run on one table, that of the user and the targets
  let t : Table Entity := ⟨.entity, user :: targets⟩
  have hnames : ((user :: targets).map Entity.name).Nodup := List.nodup_cons.mpr ⟨huser, hnodup⟩
  have hpermNames : ((user :: targets).map Entity.name).Perm
      ((user :: targets').map Entity.name) := (hperm.cons user).map Entity.name
  have hget : ∀ e ∈ user :: targets, t.get? e.name = some e := fun e he ↦
    Table.get?_of_mem (t := t) hnames he
  obtain ⟨hgetUser, hgetTargets⟩ := List.forall_mem_cons.mp hget
  have hcast := Cast.names_ofTargets_of_nodup hnames
  have hcast' := Cast.names_ofTargets_of_nodup (hpermNames.nodup_iff.mp hnames)
  have hrun := DirectRun.together_run (t := t) heffects hnodup huser
    (fun n hn ↦ List.mem_cons_of_mem _ hn) (hperm.map Entity.name)
  refine hrun.of_agree (a.agree_apply hgetUser hgetTargets)
    (a.agree_apply hgetUser fun e he ↦ hgetTargets e (hperm.mem_iff.mpr he)) ?_
  intro r r' o o' hsame h h'
  refine h.upToOrder h' hsame (hcast ▸ hnames) ?_ fun n hn ↦ ?_
  · rwa [hcast, hcast']
  · rwa [hcast] at hn

/-- Whoever sings takes pride in it, and gives courage to all who are not cross. -/
def anthem : Action :=
  ⟨"anthem",
    [⟨"pride", .user, .add, .literal (.number (.ofInt 1)), none⟩,
      ⟨"courage", .every, .add, .drawn ⟨"pride", .user, .multiply, .ofInt 2, none⟩,
        some ⟨"mood", .target, .ne, .text "cross"⟩⟩]⟩

/-- One who sings. -/
def singer : Entity := ⟨"Ann", [⟨"pride", .number, .number (.ofInt 1)⟩], ["anthem"]⟩

/-- Those who listen, each in a mood. -/
def listeners : List Entity :=
  [("Bob", "calm"), ("Cid", "cross"), ("Dan", "glad")].map fun (name, mood) ↦
    ⟨name, [⟨"courage", .number, .number (.ofInt 3)⟩, ⟨"mood", .text, .text mood⟩], []⟩

theorem apply_perm_anthem :
    ((∀ f ∈ anthem.effects, f.IsImpartial) ∧ (listeners.map Entity.name).Nodup ∧
      singer.name ∉ listeners.map Entity.name ∧ listeners.Perm listeners.reverse) ∧
    ∃ o o', anthem.apply singer listeners = .ok o ∧
      anthem.apply singer listeners.reverse = .ok o' ∧ o.UpToOrder o' ∧ o.skipped = 1 ∧
      o.changes.map Change.entity = ["Ann", "Bob", "Dan"] ∧
      o'.changes.map Change.entity = ["Ann", "Dan", "Bob"] := by
  have heffects : ∀ f ∈ anthem.effects, f.IsImpartial := by decide
  have hnodup : (listeners.map Entity.name).Nodup := by decide
  have huser : singer.name ∉ listeners.map Entity.name := by decide
  have hperm : listeners.Perm listeners.reverse := listeners.reverse_perm.symm
  have hfirst : (anthem.apply singer listeners).map
      (fun o ↦ (o.skipped, o.changes.map Change.entity)) = .ok (1, ["Ann", "Bob", "Dan"]) := by
    decide +kernel
  have hsecond : (anthem.apply singer listeners.reverse).map
      (fun o ↦ o.changes.map Change.entity) = .ok ["Ann", "Dan", "Bob"] := by
    decide +kernel
  obtain ⟨o, ho, hreport⟩ := except_map_eq_ok_iff.mp hfirst
  obtain ⟨o', ho', hchanges'⟩ := except_map_eq_ok_iff.mp hsecond
  obtain ⟨hskipped, hchanges⟩ := Prod.mk.inj hreport
  have htogether := apply_perm heffects hnodup huser hperm
  rw [ho, ho'] at htogether
  obtain _ | hsame := htogether
  exact ⟨⟨heffects, hnodup, huser, hperm⟩, o, o', ho, ho', hsame, hskipped, hchanges, hchanges'⟩

end Action

end Tabletop
