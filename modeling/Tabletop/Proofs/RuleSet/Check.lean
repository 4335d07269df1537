import Tabletop.Proofs.Table
import Tabletop.RuleSet.Check

/-!
# When definitions pass their checks

Each check of a definition, taken apart into what it asks of the tables. A check looks at the tables
in three ways only: what kind an attribute has, and whether there are an action and an entity of a
name. So a definition that passes goes on to pass when rows are added, when rows are changed under
their names, and when an attribute changes between the two kinds that hold numbers (`Extends`).

Slots are different, because they record the kind of their attribute: `Slot.Fits` asks for the very
kind that the attribute is defined with.
-/

namespace Tabletop

/-! ## Values and kinds -/

theorem Value.ensureFinite_eq_ok_iff {v : Value} {u : Unit} :
    v.ensureFinite = .ok u ↔ v.isFinite = true := by
  cases v with
  | number x => exact require_eq_ok_iff
  | boolean b => exact iff_of_true rfl rfl
  | text s => exact iff_of_true rfl rfl

theorem Kind.accepts_of_isNumeric {k : Kind} (hk : k.isNumeric = true) (v : Value) :
    k.accepts v = decide (v.shape = .number) := by
  cases k with
  | number | percent => cases v <;> rfl
  | text | boolean => exact absurd hk Bool.false_ne_true

/-- An accepted value is a number exactly when the kind is one of numbers. -/
theorem Kind.isNumeric_iff_of_accepts {k : Kind} {v : Value} (h : k.accepts v = true) :
    k.isNumeric = true ↔ v.shape = .number := by
  refine ⟨fun hk ↦ ?_, fun hv ↦ ?_⟩
  · rwa [accepts_of_isNumeric hk, decide_eq_true_iff] at h
  · cases v with
    | number x => exact h
    | text s | boolean b => exact absurd hv (by simp [Value.shape])

/-- Only numbers can be asked for an order. -/
theorem Comparator.ensureOrderable_eq_ok_iff {c : Comparator} {v : Value} {u : Unit} :
    c.ensureOrderable v = .ok u ↔ (c.isOrdering = true → v.shape = .number) := by
  rw [ensureOrderable, require_eq_ok_iff]
  cases c.isOrdering <;> simp

/-- Kinds that accept the same values: equal ones, and any two that hold numbers. -/
def Kind.Alike (k k' : Kind) : Prop := k = k' ∨ k.isNumeric = true ∧ k'.isNumeric = true

namespace Kind.Alike

variable {k k' : Kind}

theorem refl (k : Kind) : k.Alike k := .inl rfl

theorem isNumeric (h : k.Alike k') : k'.isNumeric = k.isNumeric := by
  obtain rfl | ⟨hk, hk'⟩ := h
  · rfl
  · rw [hk, hk']

theorem accepts (h : k.Alike k') (v : Value) : k'.accepts v = k.accepts v := by
  obtain rfl | ⟨hk, hk'⟩ := h
  · rfl
  · rw [accepts_of_isNumeric hk, accepts_of_isNumeric hk']

end Kind.Alike

/-- Whether a slot is as its attribute asks: it records the kind of the attribute, and holds a
finite value that the kind accepts. -/
def Slot.Fits (w : RuleSet) (s : Slot) : Prop :=
  ∃ a, w.attributes.get? s.attr = some a ∧ s.kind = a.kind ∧ a.kind.accepts s.value = true ∧
    s.value.isFinite = true

namespace RuleSet

variable {w w' : RuleSet} {name attr : String} {u : Unit}

/-! ## Names -/

theorem defined_eq_ok_iff {a : AttributeDef} :
    w.defined attr = .ok a ↔ w.attributes.get? attr = some a := need_eq_ok_iff

theorem ensureAction_eq_ok_iff : w.ensureAction name = .ok u ↔ name ∈ w.actions.names := by
  rw [ensureAction, require_eq_ok_iff, Table.contains_iff]

theorem ensureEntity_eq_ok_iff : w.ensureEntity name = .ok u ↔ name ∈ w.entities.names := by
  rw [ensureEntity, require_eq_ok_iff, Table.contains_iff]

/-- What can be named in a rule set can be named in the other, for all that checks can tell. -/
structure Extends (w w' : RuleSet) : Prop where
  /-- Attributes keep their names and accept what they accepted. -/
  attributes : ∀ name a, w.attributes.get? name = some a →
    ∃ a', w'.attributes.get? name = some a' ∧ a.kind.Alike a'.kind
  /-- The actions are still there. -/
  actions : ∀ name ∈ w.actions.names, name ∈ w'.actions.names
  /-- The entities are still there. -/
  entities : ∀ name ∈ w.entities.names, name ∈ w'.entities.names

/-! ## Actions -/

theorem checkCondition_eq_ok_iff {c : Condition} :
    w.checkCondition c = .ok u ↔
      (∃ a, w.attributes.get? c.attr = some a) ∧
        c.comparator.ensureOrderable c.value = .ok () := by
  rw [checkCondition, check_bind_eq_ok_iff, discard_eq_ok_iff]
  simp only [defined_eq_ok_iff]

theorem checkEffect_eq_ok_iff {e : Effect} :
    w.checkEffect e = .ok u ↔
      ∃ target, w.attributes.get? e.attr = some target ∧
        (e.modifier == .assign || target.kind.isNumeric) = true ∧
        w.checkAmount e.modifier target e.amount = .ok () ∧
        ∀ c ∈ e.condition, w.checkCondition c = .ok () := by
  rw [checkEffect, bind_eq_ok_iff]
  refine exists_congr fun target ↦ ?_
  rw [defined_eq_ok_iff, check_bind_eq_ok_iff, check_bind_eq_ok_iff, require_eq_ok_iff,
    option_forM_eq_ok_iff]

theorem checkEffects_eq_ok_iff {effects : List Effect} :
    w.checkEffects name effects = .ok u ↔
      effects ≠ [] ∧ ∀ e ∈ effects, w.checkEffect e = .ok () := by
  rw [checkEffects, check_bind_eq_ok_iff, require_eq_ok_iff, forM_eq_ok_iff, Bool.not_eq_true',
    List.isEmpty_eq_false_iff]

namespace Extends

theorem checkCondition (h : Extends w w') {c : Condition} (hc : w.checkCondition c = .ok ()) :
    w'.checkCondition c = .ok () := by
  obtain ⟨⟨a, ha⟩, horder⟩ := checkCondition_eq_ok_iff.mp hc
  obtain ⟨a', ha', -⟩ := h.attributes _ _ ha
  exact checkCondition_eq_ok_iff.mpr ⟨⟨a', ha'⟩, horder⟩

theorem checkAmount (h : Extends w w') {modifier : Modifier} {target target' : AttributeDef}
    {amount : Amount} (hkind : target.kind.Alike target'.kind)
    (hc : w.checkAmount modifier target amount = .ok ()) :
    w'.checkAmount modifier target' amount = .ok () := by
  cases amount with
  | literal v =>
    rw [RuleSet.checkAmount, check_bind_eq_ok_iff] at hc ⊢
    refine ⟨hc.1, ?_⟩
    -- only an assigned literal is compared with the kind of its target
    by_cases hassign : modifier = .assign
    · have := hc.2
      rw [if_pos hassign, require_eq_ok_iff] at this ⊢
      rw [hkind.accepts, this]
    · have := hc.2
      rwa [if_neg hassign] at this ⊢
  | drawn d =>
    rw [RuleSet.checkAmount, bind_eq_ok_iff] at hc ⊢
    obtain ⟨source, hsource, hnumeric⟩ := hc
    obtain ⟨source', hsource', hkind'⟩ := h.attributes _ _ (defined_eq_ok_iff.mp hsource)
    refine ⟨source', defined_eq_ok_iff.mpr hsource', ?_⟩
    rw [require_eq_ok_iff] at hnumeric ⊢
    rw [hkind.isNumeric, hkind'.isNumeric, hnumeric]

theorem checkEffect (h : Extends w w') {e : Effect} (hc : w.checkEffect e = .ok ()) :
    w'.checkEffect e = .ok () := by
  obtain ⟨target, htarget, hmodifier, hamount, hcondition⟩ := checkEffect_eq_ok_iff.mp hc
  obtain ⟨target', htarget', hkind⟩ := h.attributes _ _ htarget
  refine checkEffect_eq_ok_iff.mpr ⟨target', htarget', ?_, h.checkAmount hkind hamount,
    fun c hc ↦ h.checkCondition (hcondition c hc)⟩
  rw [hkind.isNumeric, hmodifier]

theorem checkEffects (h : Extends w w') {effects : List Effect}
    (hc : w.checkEffects name effects = .ok ()) : w'.checkEffects name effects = .ok () := by
  obtain ⟨hne, heffects⟩ := checkEffects_eq_ok_iff.mp hc
  exact checkEffects_eq_ok_iff.mpr ⟨hne, fun e he ↦ h.checkEffect (heffects e he)⟩

end Extends

/-! ## Events -/

theorem checkTurn_eq_ok_iff {turn : Turn} :
    w.checkTurn turn = .ok u ↔ match turn with
      | .act user action targets => user ∈ w.entities.names ∧ action ∈ w.actions.names ∧
          ∀ target ∈ targets, target ∈ w.entities.names
      | .say speaker _ => speaker ∈ w.entities.names := by
  cases turn with
  | act user action targets =>
    simp only [checkTurn, check_bind_eq_ok_iff, forM_eq_ok_iff, ensureEntity_eq_ok_iff,
      ensureAction_eq_ok_iff]
  | say speaker text => exact ensureEntity_eq_ok_iff

theorem checkEnding_eq_ok_iff {participants : List String} {ending : EndCondition} :
    w.checkEnding participants ending = .ok u ↔ match ending with
      | .turnCount _ _ => True
      | .participant name attr comparator value => participants.contains name = true ∧
          name ∈ w.entities.names ∧ (∃ a, w.attributes.get? attr = some a) ∧
          comparator.ensureOrderable value = .ok () := by
  cases ending with
  | turnCount comparator count => exact iff_of_true rfl trivial
  | participant name attr comparator value =>
    simp only [checkEnding, check_bind_eq_ok_iff, discard_eq_ok_iff, require_eq_ok_iff,
      ensureEntity_eq_ok_iff, defined_eq_ok_iff]

theorem checkEvent_eq_ok_iff {participants : List String} {script : List Turn}
    {ending : EndCondition} :
    w.checkEvent participants script ending = .ok u ↔
      (∀ name ∈ participants, name ∈ w.entities.names) ∧
        (∀ turn ∈ script, w.checkTurn turn = .ok ()) ∧
        w.checkEnding participants ending = .ok () := by
  simp only [checkEvent, check_bind_eq_ok_iff, forM_eq_ok_iff, ensureEntity_eq_ok_iff]

namespace Extends

theorem checkTurn (h : Extends w w') {turn : Turn} (hc : w.checkTurn turn = .ok ()) :
    w'.checkTurn turn = .ok () := by
  rw [checkTurn_eq_ok_iff] at hc ⊢
  cases turn with
  | act user action targets =>
    obtain ⟨huser, haction, htargets⟩ := hc
    exact ⟨h.entities _ huser, h.actions _ haction, fun t ht ↦ h.entities _ (htargets t ht)⟩
  | say speaker text => exact h.entities _ hc

theorem checkEnding (h : Extends w w') {participants : List String} {ending : EndCondition}
    (hc : w.checkEnding participants ending = .ok ()) :
    w'.checkEnding participants ending = .ok () := by
  rw [checkEnding_eq_ok_iff] at hc ⊢
  cases ending with
  | turnCount comparator count => trivial
  | participant name attr comparator value =>
    obtain ⟨hparticipant, hname, ⟨a, ha⟩, horder⟩ := hc
    obtain ⟨a', ha', -⟩ := h.attributes _ _ ha
    exact ⟨hparticipant, h.entities _ hname, ⟨a', ha'⟩, horder⟩

theorem checkEvent (h : Extends w w') {participants : List String} {script : List Turn}
    {ending : EndCondition} (hc : w.checkEvent participants script ending = .ok ()) :
    w'.checkEvent participants script ending = .ok () := by
  obtain ⟨hparticipants, hscript, hending⟩ := checkEvent_eq_ok_iff.mp hc
  exact checkEvent_eq_ok_iff.mpr ⟨fun name hn ↦ h.entities _ (hparticipants name hn),
    fun turn ht ↦ h.checkTurn (hscript turn ht), h.checkEnding hending⟩

end Extends

/-! ## Changing the kind of an attribute -/

/-- The rule set with another kind for an attribute, which every slot of it records. -/
def retype (w : RuleSet) (name : String) (kind : Kind) : RuleSet :=
  { w with attributes := w.attributes.adjust name fun _ ↦ ⟨name, kind⟩
           entities := w.entities.map (·.relabel name kind) }

theorem get?_retype_self {old : AttributeDef} {kind : Kind}
    (hold : w.attributes.get? name = some old) :
    (w.retype name kind).attributes.get? name = some ⟨name, kind⟩ := by
  have hname : ∀ a : AttributeDef, Named.name a = name →
      Named.name ((fun _ ↦ ⟨name, kind⟩ : AttributeDef → AttributeDef) a) = name := fun _ _ ↦ rfl
  change (w.attributes.adjust name _).get? name = _
  rw [Table.get?_adjust_self hname, hold, Option.map_some]

theorem get?_retype_of_ne {kind : Kind} (h : attr ≠ name) :
    (w.retype name kind).attributes.get? attr = w.attributes.get? attr :=
  Table.get?_adjust_of_ne (fun _ _ ↦ rfl) h

/-- An attribute may change its kind to one that is alike: it accepts what it accepted, and all
names are still there. -/
theorem Extends.retype {old : AttributeDef} {kind : Kind}
    (hold : w.attributes.get? name = some old) (halike : old.kind.Alike kind) :
    Extends w (w.retype name kind) := by
  have hentities : (w.retype name kind).entities.names = w.entities.names :=
    Table.names_map fun _ ↦ rfl
  refine ⟨fun attr a ha ↦ ?_, fun _ hn ↦ hn, fun n hn ↦ hentities ▸ hn⟩
  by_cases hattr : attr = name
  · subst hattr
    obtain rfl : a = old := Option.some.inj (ha.symm.trans hold)
    exact ⟨⟨attr, kind⟩, get?_retype_self ha, halike⟩
  · exact ⟨a, (get?_retype_of_ne hattr).trans ha, .refl a.kind⟩

/-! ## Slots -/

theorem checkSlot_eq_ok_iff {before after : List Slot} {s : Slot} :
    w.checkSlot before s = .ok after ↔
      ∃ a, w.attributes.get? s.attr = some a ∧ a.kind.accepts s.value = true ∧
        s.attr ∉ before.map Slot.attr ∧ s.value.isFinite = true ∧
        after = before ++ [{ s with kind := a.kind }] := by
  simp only [checkSlot, bind_eq_ok_iff, defined_eq_ok_iff, require_eq_ok_iff,
    Value.ensureFinite_eq_ok_iff, pure_eq_ok_iff, exists_const, eq_comm (b := after)]
  simp

/-- Slots that pass their check fit, and no two of them are of one attribute. -/
theorem fits_of_checkSlots {slots slots' : List Slot} (h : w.checkSlots slots = .ok slots') :
    (slots'.map Slot.attr).Nodup ∧ ∀ s ∈ slots', s.Fits w := by
  -- what is claimed of all slots holds of those that were accepted so far
  refine foldlM_induct (P := fun before ↦ (before.map Slot.attr).Nodup ∧ ∀ s ∈ before, s.Fits w)
    ⟨List.nodup_nil, fun s hs ↦ absurd hs List.not_mem_nil⟩ (fun s _ before after hb hstep ↦ ?_) h
  obtain ⟨a, ha, haccepts, hnew, hfinite, rfl⟩ := checkSlot_eq_ok_iff.mp hstep
  refine ⟨?_, ?_⟩
  · rw [List.map_append, List.nodup_append]
    refine ⟨hb.1, List.nodup_singleton _, ?_⟩
    rintro x hx y hy rfl
    exact hnew (List.mem_singleton.mp hy ▸ hx)
  · intro s' hs'
    rcases List.mem_append.mp hs' with hs' | hs'
    · exact hb.2 s' hs'
    · rw [List.mem_singleton.mp hs']
      exact ⟨a, ha, rfl, haccepts, hfinite⟩

/-- Slots that fit pass their check, and come out as they are. -/
theorem checkSlots_of_fits {slots : List Slot} (hnodup : (slots.map Slot.attr).Nodup)
    (hfits : ∀ s ∈ slots, s.Fits w) : w.checkSlots slots = .ok slots := by
  -- the slots that were accepted before stand in front, with other attributes
  have key : ∀ (rest before : List Slot), ((before ++ rest).map Slot.attr).Nodup →
      (∀ s ∈ rest, s.Fits w) → rest.foldlM w.checkSlot before = .ok (before ++ rest) := by
    intro rest
    induction rest with
    | nil =>
      intro before _ _
      rw [List.append_nil]
      rfl
    | cons s rest ih =>
      intro before hnodup hfits
      obtain ⟨⟨a, ha, hkind, haccepts, hfinite⟩, hrest⟩ := List.forall_mem_cons.mp hfits
      have hnew : s.attr ∉ before.map Slot.attr := by
        rw [List.map_append, List.map_cons] at hnodup
        intro hmem
        exact (List.nodup_append.mp hnodup).2.2 _ hmem _ List.mem_cons_self rfl
      have hstep : w.checkSlot before s = .ok (before ++ [s]) :=
        checkSlot_eq_ok_iff.mpr ⟨a, ha, haccepts, hnew, hfinite, by rw [← hkind]⟩
      rw [List.foldlM_cons, hstep]
      have hsplit : before ++ s :: rest = (before ++ [s]) ++ rest := by simp
      rw [hsplit] at hnodup ⊢
      exact ih _ hnodup hrest
  exact key slots [] hnodup hfits

end RuleSet

end Tabletop
