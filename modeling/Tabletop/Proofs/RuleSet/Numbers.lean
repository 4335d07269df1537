import Tabletop.Proofs.Document.Numbers
import Tabletop.Proofs.RuleSet.Sound

/-!
# Soundness and numbers

Checks ask of a number only that it is one and that it is finite. So a sound rule set stays sound
when its numbers are changed, as long as finite numbers stay finite.
-/

namespace Tabletop

variable {f : Number → Number}

/-! ## Values -/

theorem Value.shape_mapNumbers (v : Value) : (v.mapNumbers f).shape = v.shape := by cases v <;> rfl

theorem Value.isFinite_mapNumbers (hf : ∀ x, x.isFinite = true → (f x).isFinite = true) {v : Value}
    (h : v.isFinite = true) : (v.mapNumbers f).isFinite = true := by
  cases v with
  | number x => exact hf x h
  | boolean b | text s => rfl

theorem Kind.accepts_mapNumbers (k : Kind) (v : Value) :
    k.accepts (v.mapNumbers f) = k.accepts v := by cases v <;> rfl

theorem Comparator.ensureOrderable_mapNumbers (c : Comparator) (v : Value) :
    c.ensureOrderable (v.mapNumbers f) = c.ensureOrderable v := by
  rw [ensureOrderable, ensureOrderable, Value.shape_mapNumbers]

namespace RuleSet

variable {w : RuleSet} {name : String}

/-! ## Checks -/

theorem checkCondition_mapNumbers {c : Condition} (h : w.checkCondition c = .ok ()) :
    w.checkCondition (c.mapNumbers f) = .ok () := by
  rw [checkCondition_eq_ok_iff] at h ⊢
  exact ⟨h.1, (c.comparator.ensureOrderable_mapNumbers c.value).trans h.2⟩

theorem checkAmount_mapNumbers (hf : ∀ x, x.isFinite = true → (f x).isFinite = true)
    {modifier : Modifier} {target : AttributeDef} {amount : Amount}
    (h : w.checkAmount modifier target amount = .ok ()) :
    w.checkAmount modifier target (amount.mapNumbers f) = .ok () := by
  cases amount with
  -- the check of a drawn amount does not look at its numbers
  | drawn d => exact h
  | literal v =>
    rw [checkAmount, check_bind_eq_ok_iff, Value.ensureFinite_eq_ok_iff] at h
    rw [Amount.mapNumbers, checkAmount, check_bind_eq_ok_iff, Value.ensureFinite_eq_ok_iff]
    refine ⟨Value.isFinite_mapNumbers hf h.1, ?_⟩
    have hshape := h.2
    by_cases hassign : modifier = .assign
    · rw [if_pos hassign, require_eq_ok_iff] at hshape ⊢
      rw [Kind.accepts_mapNumbers, hshape]
    · rw [if_neg hassign, require_eq_ok_iff] at hshape ⊢
      rw [Value.shape_mapNumbers, hshape]

theorem checkEffect_mapNumbers (hf : ∀ x, x.isFinite = true → (f x).isFinite = true) {e : Effect}
    (h : w.checkEffect e = .ok ()) : w.checkEffect (e.mapNumbers f) = .ok () := by
  obtain ⟨target, htarget, hmodifier, hamount, hcondition⟩ := checkEffect_eq_ok_iff.mp h
  refine checkEffect_eq_ok_iff.mpr
    ⟨target, htarget, hmodifier, checkAmount_mapNumbers hf hamount, fun _ hmem ↦ ?_⟩
  obtain ⟨c, hc, rfl⟩ := Option.map_eq_some_iff.mp hmem
  exact checkCondition_mapNumbers (hcondition c hc)

theorem checkEffects_mapNumbers (hf : ∀ x, x.isFinite = true → (f x).isFinite = true)
    {effects : List Effect} (h : w.checkEffects name effects = .ok ()) :
    w.checkEffects name (effects.map (·.mapNumbers f)) = .ok () := by
  obtain ⟨hne, heffects⟩ := checkEffects_eq_ok_iff.mp h
  exact checkEffects_eq_ok_iff.mpr ⟨mt List.map_eq_nil_iff.mp hne,
    List.forall_mem_map.mpr fun e he ↦ checkEffect_mapNumbers hf (heffects e he)⟩

theorem checkEvent_mapNumbers {participants : List String} {script : List Turn}
    {ending : EndCondition} (h : w.checkEvent participants script ending = .ok ()) :
    w.checkEvent participants script (ending.mapNumbers f) = .ok () := by
  obtain ⟨hparticipants, hscript, hending⟩ := checkEvent_eq_ok_iff.mp h
  refine checkEvent_eq_ok_iff.mpr ⟨hparticipants, hscript, ?_⟩
  cases ending with
  | turnCount comparator count => exact hending
  | participant name attr comparator value =>
    rw [EndCondition.mapNumbers, checkEnding_eq_ok_iff]
    rw [checkEnding_eq_ok_iff] at hending
    dsimp only at hending ⊢
    rwa [Comparator.ensureOrderable_mapNumbers]

theorem fits_mapNumbers (hf : ∀ x, x.isFinite = true → (f x).isFinite = true) {e : Entity}
    (h : e.Fits w) : (e.mapNumbers f).Fits w where
  nodup_slots := by
    rw [Entity.mapNumbers, List.map_map]
    exact h.nodup_slots
  slots := List.forall_mem_map.mpr fun s hs ↦ by
    obtain ⟨a, ha, hkind, haccepts, hfinite⟩ := h.slots s hs
    exact ⟨a, ha, hkind, (Kind.accepts_mapNumbers _ _).trans haccepts,
      Value.isFinite_mapNumbers hf hfinite⟩
  nodup_actions := h.nodup_actions
  actions := h.actions

/-! ## Rule sets -/

/-- **Changing numbers keeps a rule set sound**, as long as finite numbers stay finite. -/
theorem Sound.mapNumbers (h : w.Sound) (hf : ∀ x, x.isFinite = true → (f x).isFinite = true) :
    (w.mapNumbers f).Sound := by
  have hactions : (w.actions.map (·.mapNumbers f)).names = w.actions.names :=
    Table.names_map fun _ ↦ rfl
  have hentities : (w.entities.map (·.mapNumbers f)).names = w.entities.names :=
    Table.names_map fun _ ↦ rfl
  have hevents : (w.events.map (·.mapNumbers f)).names = w.events.names :=
    Table.names_map fun _ ↦ rfl
  have hext : Extends w (w.mapNumbers f) :=
    ⟨fun name a ha ↦ ⟨a, ha, .refl a.kind⟩, fun n hn ↦ hactions ▸ hn, fun n hn ↦ hentities ▸ hn⟩
  exact
    { kinds := h.kinds
      attributes := h.attributes
      actions := hactions ▸ h.actions
      entities := hentities ▸ h.entities
      events := hevents ▸ h.events
      effects := List.forall_mem_map.mpr fun a ha ↦
        hext.checkEffects (checkEffects_mapNumbers hf (h.effects a ha))
      fits := List.forall_mem_map.mpr fun e he ↦
        (fits_mapNumbers hf (h.fits e he)).mono (fun _ _ ha ↦ ha) hext.actions
      scripts := List.forall_mem_map.mpr fun e he ↦
        hext.checkEvent (checkEvent_mapNumbers (h.scripts e he)) }

end RuleSet

end Tabletop
