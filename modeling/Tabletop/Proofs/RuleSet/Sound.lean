import Tabletop.Proofs.RuleSet.Check

/-!
# Sound rule sets

A rule set is sound when everything it holds would be accepted again as it stands: names are unique,
every action and every event passes its check against the present tables, and every entity fits.
That is more than what the operations check, since they check a definition once, against the tables
of that moment.

The lemmas here say how a sound rule set stays sound when one of its tables is replaced. What they
ask of the new table is what concerns its own rows; that the other tables still fit comes from
`Extends`.
-/

namespace Tabletop

/-! ## Entities that fit -/

theorem nodup_eraseDups (names : List String) : names.eraseDups.Nodup := by
  -- a name goes on with what is left when it is erased, which is shorter but no tail
  induction hn : names.length using Nat.strong_induction_on generalizing names with
  | _ n ih =>
    cases names with
    | nil => exact List.nodup_nil
    | cons a as =>
      have hlt : (as.filter fun b ↦ !b == a).length < n :=
        hn ▸ Nat.lt_succ_of_le (List.length_filter_le _ as)
      rw [List.eraseDups_cons, List.nodup_cons]
      refine ⟨fun hmem ↦ ?_, ih _ hlt _ rfl⟩
      simpa using (List.mem_filter.mp (List.mem_eraseDups.mp hmem)).2

theorem eraseDups_of_nodup {names : List String} (h : names.Nodup) : names.eraseDups = names := by
  induction names with
  | nil => rfl
  | cons a as ih =>
    obtain ⟨ha, has⟩ := List.nodup_cons.mp h
    have hfilter : (as.filter fun b ↦ !b == a) = as :=
      List.filter_eq_self.mpr fun b hb ↦ by
        have hne : b ≠ a := fun hba ↦ ha (hba ▸ hb)
        simpa using hne
    rw [List.eraseDups_cons, hfilter, ih has]

/-- The attributes under which an entity holds values. -/
def Entity.attrs (e : Entity) : List String := e.slots.map Slot.attr

theorem Entity.slot?_eq_none_iff {e : Entity} {attr : String} :
    e.slot? attr = none ↔ attr ∉ e.attrs := by
  simp [slot?, attrs, List.find?_eq_none]

theorem Entity.attrs_put (e : Entity) (attr : String) (v : Value) :
    (e.put attr v).attrs = e.attrs :=
  map_changeFirst Slot.attr e.slots fun _ _ ↦ rfl

theorem Entity.attrs_relabel (e : Entity) (attr : String) (kind : Kind) :
    (e.relabel attr kind).attrs = e.attrs :=
  map_changeFirst Slot.attr e.slots fun _ _ ↦ rfl

/-- Whether the values of an entity are as their attributes ask. -/
structure Entity.Typed (w : RuleSet) (e : Entity) : Prop where
  /-- No attribute has two slots. -/
  nodup_slots : (e.slots.map Slot.attr).Nodup
  /-- Every slot is as its attribute asks. -/
  slots : ∀ s ∈ e.slots, s.Fits w

namespace Entity.Typed

variable {w w' : RuleSet} {e : Entity} {attr name : String}

theorem mono (h : e.Typed w)
    (hattributes : ∀ name a, w.attributes.get? name = some a → w'.attributes.get? name = some a) :
    e.Typed w' where
  nodup_slots := h.nodup_slots
  slots s hs := by
    obtain ⟨a, ha, hrest⟩ := h.slots s hs
    exact ⟨a, hattributes _ _ ha, hrest⟩

/-- A value that a slot accepts may be put into it. -/
theorem put {s : Slot} {v : Value} (h : e.Typed w) (hs : e.slot? attr = some s)
    (haccepts : s.kind.accepts v = true) (hfinite : v.isFinite = true) :
    (e.put attr v).Typed w where
  nodup_slots := (congrArg List.Nodup (e.attrs_put attr v)).mpr h.nodup_slots
  slots := by
    -- the slot keeps its attribute and its kind, and gets the value
    refine forall_mem_changeFirst h.slots fun s' hs' ↦ ?_
    obtain rfl : s' = s := Option.some.inj (hs'.symm.trans hs)
    obtain ⟨a, ha, hkind, -, -⟩ := h.slots s' (List.mem_of_find?_eq_some hs)
    exact ⟨a, ha, hkind, hkind ▸ haccepts, hfinite⟩

/-- Slots of an attribute that changes its kind record the new one, and all others what they
did. -/
theorem relabel {old : AttributeDef} {kind : Kind} (h : e.Typed w)
    (hold : w.attributes.get? name = some old) (halike : old.kind.Alike kind) :
    (e.relabel name kind).Typed (w.retype name kind) := by
  refine ⟨(congrArg List.Nodup (e.attrs_relabel name kind)).mpr h.nodup_slots, ?_⟩
  change ∀ s ∈ changeFirst (·.attr == name) (fun s ↦ { s with kind }) e.slots, _
  -- an attribute has one slot at most, so relabelling the first one relabels all
  rw [changeFirst_eq_map h.nodup_slots, List.forall_mem_map]
  intro s hs
  obtain ⟨a, ha, hkind, haccepts, hfinite⟩ := h.slots s hs
  by_cases hs : (s.attr == name) = true
  · have hsame : s.attr = name := eq_of_beq hs
    obtain rfl : a = old := Option.some.inj ((hsame ▸ ha).symm.trans hold)
    rw [if_pos hs]
    refine ⟨⟨name, kind⟩, ?_, rfl, (halike.accepts _).trans haccepts, hfinite⟩
    change (w.retype name kind).attributes.get? s.attr = _
    rw [hsame, RuleSet.get?_retype_self hold]
  · rw [if_neg hs]
    refine ⟨a, ?_, hkind, haccepts, hfinite⟩
    rw [RuleSet.get?_retype_of_ne fun hc ↦ hs (beq_iff_eq.mpr hc), ha]

end Entity.Typed

/-- Whether an entity would be accepted by a rule set as it stands, with the kinds it records. -/
structure Entity.Fits (w : RuleSet) (e : Entity) : Prop where
  /-- No attribute has two slots. -/
  nodup_slots : (e.slots.map Slot.attr).Nodup
  /-- Every slot is as its attribute asks. -/
  slots : ∀ s ∈ e.slots, s.Fits w
  /-- No action is named twice. -/
  nodup_actions : e.actions.Nodup
  /-- Every action exists. -/
  actions : ∀ action ∈ e.actions, action ∈ w.actions.names

namespace Entity.Fits

variable {w w' : RuleSet} {e e' : Entity}

theorem typed (h : e.Fits w) : e.Typed w := ⟨h.nodup_slots, h.slots⟩

/-- What was checked fits. Actions that are repeated are dropped. -/
theorem ofParts {name : String} {slots slots' : List Slot} {actions : List String}
    (hslots : w.checkSlots slots = .ok slots')
    (hactions : ∀ action ∈ actions, action ∈ w.actions.names) :
    (Entity.ofParts name slots' actions).Fits w := by
  obtain ⟨hnodup, hfits⟩ := RuleSet.fits_of_checkSlots hslots
  exact ⟨hnodup, hfits, nodup_eraseDups _, fun a ha ↦ hactions a (List.mem_eraseDups.mp ha)⟩

/-- An entity goes on to fit when its values do and its actions are those it had. -/
theorem of_typed (h : e.Fits w) (htyped : e'.Typed w') (hactions : e'.actions = e.actions)
    (hnames : ∀ name ∈ w.actions.names, name ∈ w'.actions.names) : e'.Fits w' where
  nodup_slots := htyped.nodup_slots
  slots := htyped.slots
  nodup_actions := hactions ▸ h.nodup_actions
  actions action ha := hnames action (h.actions action (hactions ▸ ha))

theorem mono (h : e.Fits w)
    (hattributes : ∀ name a, w.attributes.get? name = some a → w'.attributes.get? name = some a)
    (hactions : ∀ name ∈ w.actions.names, name ∈ w'.actions.names) : e.Fits w' :=
  h.of_typed (h.typed.mono hattributes) rfl hactions

/-- A value that a slot accepts may be put into it. -/
theorem put {attr : String} {s : Slot} {v : Value} (h : e.Fits w) (hs : e.slot? attr = some s)
    (haccepts : s.kind.accepts v = true) (hfinite : v.isFinite = true) : (e.put attr v).Fits w :=
  h.of_typed (h.typed.put hs haccepts hfinite) rfl fun _ hn ↦ hn

end Entity.Fits

namespace RuleSet

/-- Whether a rule set would accept everything that it holds, as it stands. -/
structure Sound (w : RuleSet) : Prop where
  /-- The tables are what they are taken for. -/
  kinds : w.attributes.kind = .attr ∧ w.actions.kind = .action ∧ w.entities.kind = .entity ∧
    w.events.kind = .event
  /-- No two attributes have one name. -/
  attributes : w.attributes.names.Nodup
  /-- No two actions have one name. -/
  actions : w.actions.names.Nodup
  /-- No two entities have one name. -/
  entities : w.entities.names.Nodup
  /-- No two events have one name. -/
  events : w.events.names.Nodup
  /-- Every action passes its check. -/
  effects : ∀ a ∈ w.actions.rows, w.checkEffects a.name a.effects = .ok ()
  /-- Every entity fits. -/
  fits : ∀ e ∈ w.entities.rows, e.Fits w
  /-- Every event passes its check. -/
  scripts : ∀ e ∈ w.events.rows, w.checkEvent e.participants e.script e.ending = .ok ()

namespace Sound

variable {w : RuleSet}

theorem empty (name : String) : (RuleSet.empty name).Sound where
  kinds := ⟨rfl, rfl, rfl, rfl⟩
  attributes := List.nodup_nil
  actions := List.nodup_nil
  entities := List.nodup_nil
  events := List.nodup_nil
  effects _ h := absurd h List.not_mem_nil
  fits _ h := absurd h List.not_mem_nil
  scripts _ h := absurd h List.not_mem_nil

/-! ## Replacing a table -/

theorem with_attributes (h : w.Sound) {t : Table AttributeDef} (hkind : t.kind = .attr)
    (hnodup : t.names.Nodup)
    (hget : ∀ name a, w.attributes.get? name = some a → t.get? name = some a) :
    Sound { w with attributes := t } := by
  have hext : Extends w { w with attributes := t } :=
    ⟨fun name a ha ↦ ⟨a, hget name a ha, .refl a.kind⟩, fun _ hn ↦ hn, fun _ hn ↦ hn⟩
  exact
    { kinds := ⟨hkind, h.kinds.2⟩
      attributes := hnodup
      actions := h.actions
      entities := h.entities
      events := h.events
      effects := fun a ha ↦ hext.checkEffects (h.effects a ha)
      fits := fun e he ↦ (h.fits e he).mono hget fun _ hn ↦ hn
      scripts := fun e he ↦ hext.checkEvent (h.scripts e he) }

theorem with_actions (h : w.Sound) {t : Table Action} (hkind : t.kind = .action)
    (hnodup : t.names.Nodup) (hnames : ∀ name ∈ w.actions.names, name ∈ t.names)
    (heffects : ∀ a ∈ t.rows, w.checkEffects a.name a.effects = .ok ()) :
    Sound { w with actions := t } := by
  have hext : Extends w { w with actions := t } :=
    ⟨fun name a ha ↦ ⟨a, ha, .refl a.kind⟩, hnames, fun _ hn ↦ hn⟩
  exact
    { kinds := ⟨h.kinds.1, hkind, h.kinds.2.2⟩
      attributes := h.attributes
      actions := hnodup
      entities := h.entities
      events := h.events
      effects := fun a ha ↦ hext.checkEffects (heffects a ha)
      fits := fun e he ↦ (h.fits e he).mono (fun _ _ ha ↦ ha) hnames
      scripts := fun e he ↦ hext.checkEvent (h.scripts e he) }

theorem with_entities (h : w.Sound) {t : Table Entity} (hkind : t.kind = .entity)
    (hnodup : t.names.Nodup) (hnames : ∀ name ∈ w.entities.names, name ∈ t.names)
    (hfits : ∀ e ∈ t.rows, e.Fits w) : Sound { w with entities := t } := by
  have hext : Extends w { w with entities := t } :=
    ⟨fun name a ha ↦ ⟨a, ha, .refl a.kind⟩, fun _ hn ↦ hn, hnames⟩
  exact
    { kinds := ⟨h.kinds.1, h.kinds.2.1, hkind, h.kinds.2.2.2⟩
      attributes := h.attributes
      actions := h.actions
      entities := hnodup
      events := h.events
      effects := fun a ha ↦ hext.checkEffects (h.effects a ha)
      fits := fun e he ↦ (hfits e he).mono (fun _ _ ha ↦ ha) fun _ hn ↦ hn
      scripts := fun e he ↦ hext.checkEvent (h.scripts e he) }

/-- Events are not referred to, nor is the name, nor the event being played. -/
theorem with_events (h : w.Sound) {t : Table Event} (name : String) (running : Option String)
    (hkind : t.kind = .event) (hnodup : t.names.Nodup)
    (hscripts : ∀ e ∈ t.rows, w.checkEvent e.participants e.script e.ending = .ok ()) :
    Sound { w with name, events := t, running } := by
  have hext : Extends w { w with name, events := t, running } :=
    ⟨fun name a ha ↦ ⟨a, ha, .refl a.kind⟩, fun _ hn ↦ hn, fun _ hn ↦ hn⟩
  exact
    { kinds := ⟨h.kinds.1, h.kinds.2.1, h.kinds.2.2.1, hkind⟩
      attributes := h.attributes
      actions := h.actions
      entities := h.entities
      events := hnodup
      effects := fun a ha ↦ hext.checkEffects (h.effects a ha)
      fits := fun e he ↦ (h.fits e he).mono (fun _ _ ha ↦ ha) fun _ hn ↦ hn
      scripts := fun e he ↦ hext.checkEvent (hscripts e he) }

theorem with_name (h : w.Sound) (name : String) : Sound { w with name } :=
  h.with_events name w.running h.kinds.2.2.2 h.events h.scripts

theorem with_running (h : w.Sound) (running : Option String) : Sound { w with running } :=
  h.with_events w.name running h.kinds.2.2.2 h.events h.scripts

/-! ## Changing the kind of an attribute -/

variable {name : String} {old : AttributeDef} {kind : Kind}

theorem retype (h : w.Sound) (hold : w.attributes.get? name = some old)
    (halike : old.kind.Alike kind) : (w.retype name kind).Sound := by
  have hentities : (w.retype name kind).entities.names = w.entities.names :=
    Table.names_map fun _ ↦ rfl
  have hattributes : (w.retype name kind).attributes.names = w.attributes.names :=
    Table.names_adjust fun _ _ ↦ rfl
  have hext := Extends.retype hold halike
  exact
    { kinds := h.kinds
      attributes := by
        rw [hattributes]
        exact h.attributes
      actions := h.actions
      entities := by
        rw [hentities]
        exact h.entities
      events := h.events
      effects := fun a ha ↦ hext.checkEffects (h.effects a ha)
      fits := by
        intro e he
        obtain ⟨e₀, he₀, rfl⟩ := List.mem_map.mp he
        have hfits := h.fits e₀ he₀
        exact hfits.of_typed (hfits.typed.relabel hold halike) rfl fun _ hn ↦ hn
      scripts := fun e he ↦ hext.checkEvent (h.scripts e he) }

end Sound

end RuleSet

end Tabletop
