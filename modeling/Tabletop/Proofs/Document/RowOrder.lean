import Tabletop.Proofs.Document.Normal

/-!
# The order of rows in a document

A document describes a rule set whatever the order in which each of its sections lists its rows, and
the rows of a table come in the order of the section (`Document.build_of_sameRows`).

Each row is made by itself, as if the rule set were there already
(`Document.build_eq_ok_iff_makes`), and of that rule set it only sees what is found by name. With
unique names that does not depend on where a row stands. So the rows that were made for one order
are made for any other, and that no two have one name does not ask for an order either.

The row at fault that is reported is the first one, and does depend on the order.
-/

namespace Tabletop

/-! ## Rows in another order -/

/-- Whether a table has the rows of another one, each in the place that the row of a document has
taken which it is made from. -/
structure Table.Reordered {α ρ : Type} (rows rows' : List ρ) (t t' : Table α) : Prop where
  /-- The rows are of one kind. -/
  kind : t'.kind = t.kind
  /-- They are the same rows. -/
  same : t.rows.Perm t'.rows
  /-- Where the documents have the same row, the tables have. -/
  places : ∀ i j : Nat, rows[i]? = rows'[j]? → t.rows[i]? = t'.rows[j]?

namespace Table

variable {α ρ : Type} [Named α] {make : ρ → Except RuleError α} {rows rows' : List ρ}

theorem Reordered.names {t t' : Table α} (h : Reordered rows rows' t t') : t.names.Perm t'.names :=
  h.same.map Named.name

/-- A table is made from rows in any order. -/
theorem MadeFrom.exists_reordered {kind : RowKind} {made : List α}
    (h : MadeFrom make rows ⟨kind, made⟩) (hrows : rows.Perm rows') :
    ∃ made', MadeFrom make rows' ⟨kind, made'⟩ ∧
      Reordered rows rows' ⟨kind, made⟩ ⟨kind, made'⟩ := by
  obtain ⟨made', h', hmade⟩ := exists_perm_of_mapM hrows h.made
  have hreordered : Reordered rows rows' ⟨kind, made⟩ ⟨kind, made'⟩ := by
    refine ⟨rfl, hmade, fun i j hij ↦ ?_⟩
    change made[i]? = made'[j]?
    rw [getElem?_of_mapM h.made, getElem?_of_mapM h', hij]
  exact ⟨made', ⟨h', hreordered.names.nodup_iff.mp h.nodup⟩, hreordered⟩

theorem MadeFrom.mono {make' : ρ → Except RuleError α} {t : Table α} (h : MadeFrom make rows t)
    (hmake : ∀ r row, make r = .ok row → make' r = .ok row) : MadeFrom make' rows t :=
  ⟨mapM_eq_ok_iff.mpr ((mapM_eq_ok_iff.mp h.made).imp hmake), h.nodup⟩

end Table

/-- Whether a rule set has the rows of another one, table by table in the places that the rows of a
document have taken. -/
structure RuleSet.Reordered (d d' : Document) (w w' : RuleSet) : Prop where
  /-- The name is the same. -/
  name : w'.name = w.name
  /-- The attributes. -/
  attributes : Table.Reordered d.attributes d'.attributes w.attributes w'.attributes
  /-- The actions. -/
  actions : Table.Reordered d.actions d'.actions w.actions w'.actions
  /-- The entities. -/
  entities : Table.Reordered d.entities d'.entities w.entities w'.entities
  /-- The events. -/
  events : Table.Reordered d.events d'.events w.events w'.events
  /-- The same event is under way, if any. -/
  running : w'.running = w.running

namespace RuleSet.Reordered

variable {d d' : Document} {w w' : RuleSet}

/-- What can be named in a rule set can be named when its rows are in another order. -/
theorem extend (h : Reordered d d' w w') (hnodup : w.attributes.names.Nodup) : Extends w w' where
  attributes _ a ha :=
    ⟨a, (Table.get?_eq_of_perm hnodup h.attributes.same).trans ha, .refl a.kind⟩
  actions _ := h.actions.names.mem_iff.mp
  entities _ := h.entities.names.mem_iff.mp

theorem checkSlots (h : Reordered d d' w w') (hnodup : w.attributes.names.Nodup)
    (slots : List Slot) : w'.checkSlots slots = w.checkSlots slots := by
  have hstep : w'.checkSlot = w.checkSlot := by
    funext before s
    rw [checkSlot, checkSlot, defined, defined, h.attributes.kind,
      Table.get?_eq_of_perm hnodup h.attributes.same]
  rw [RuleSet.checkSlots, RuleSet.checkSlots, hstep]

/-! ### The rows that are made -/

theorem makeAction (h : Reordered d d' w w') (hnodup : w.attributes.names.Nodup)
    {r : Document.ActionRow} {a : Action} (ha : r.make w = .ok a) : r.make w' = .ok a := by
  obtain ⟨effects, hread, hcheck, rfl⟩ := Document.ActionRow.make_eq_ok_iff.mp ha
  exact Document.ActionRow.make_eq_ok_iff.mpr
    ⟨effects, hread, (h.extend hnodup).checkEffects hcheck, rfl⟩

theorem makeEntity (h : Reordered d d' w w') (hnodup : w.attributes.names.Nodup)
    {r : Document.EntityRow} {e : Entity} (he : r.make w = .ok e) : r.make w' = .ok e := by
  obtain ⟨slots, slots', hread, hslots, hactions, rfl⟩ := Document.EntityRow.make_eq_ok_iff.mp he
  exact Document.EntityRow.make_eq_ok_iff.mpr
    ⟨slots, slots', hread, (h.checkSlots hnodup slots).trans hslots,
      fun name hname ↦ (h.extend hnodup).actions name (hactions name hname), rfl⟩

theorem makeEvent (h : Reordered d d' w w') (hnodup : w.attributes.names.Nodup)
    {r : Document.EventRow} {e : Event} (he : r.make w = .ok e) : r.make w' = .ok e := by
  obtain ⟨ending, hread, hcheck, rfl⟩ := Document.EventRow.make_eq_ok_iff.mp he
  exact Document.EventRow.make_eq_ok_iff.mpr
    ⟨ending, hread, (h.extend hnodup).checkEvent hcheck, rfl⟩

end RuleSet.Reordered

namespace Document

variable {d d' : Document} {w : RuleSet}

/-- Whether two documents have the same rows, each section in an order of its own. -/
structure SameRows (d d' : Document) : Prop where
  /-- The name is the same. -/
  name : d'.name = d.name
  /-- The attributes. -/
  attributes : d.attributes.Perm d'.attributes
  /-- The actions. -/
  actions : d.actions.Perm d'.actions
  /-- The entities. -/
  entities : d.entities.Perm d'.entities
  /-- The events. -/
  events : d.events.Perm d'.events

theorem SameRows.symm (h : d.SameRows d') : d'.SameRows d :=
  ⟨h.name.symm, h.attributes.symm, h.actions.symm, h.entities.symm, h.events.symm⟩

/-- What is made from a document can be made from it in another order. -/
theorem Makes.exists_reordered (h : d.Makes w) (hd : d.SameRows d') :
    ∃ w', d'.Makes w' ∧ RuleSet.Reordered d d' w w' := by
  obtain ⟨hattributes, hactions, hentities, hevents, hshape⟩ := h
  rcases w with ⟨name, ⟨_, _⟩, ⟨_, _⟩, ⟨_, _⟩, ⟨_, _⟩, running⟩
  cases hshape
  obtain ⟨attributes, hattributes', h₁⟩ := hattributes.exists_reordered hd.attributes
  obtain ⟨actions, hactions', h₂⟩ := hactions.exists_reordered hd.actions
  obtain ⟨entities, hentities', h₃⟩ := hentities.exists_reordered hd.entities
  obtain ⟨events, hevents', h₄⟩ := hevents.exists_reordered hd.events
  have hreordered : RuleSet.Reordered d d' (.ofRows d.name _ _ _ _)
      (.ofRows d'.name attributes actions entities events) := ⟨hd.name, h₁, h₂, h₃, h₄, rfl⟩
  -- the rows were made as in the one rule set, but are made as in the other just so
  have hnodup := hattributes.nodup
  exact ⟨_, ⟨hattributes', hactions'.mono fun _ _ ↦ hreordered.makeAction hnodup,
    hentities'.mono fun _ _ ↦ hreordered.makeEntity hnodup,
    hevents'.mono fun _ _ ↦ hreordered.makeEvent hnodup, rfl⟩, hreordered⟩

/-- **The order of rows does not matter.** A document whose sections list their rows in another
order describes a rule set if and only if the document itself does. Both rule sets have the same
rows, each where the row of its document stands. -/
theorem build_of_sameRows (h : d.SameRows d') :
    Together (RuleSet.Reordered d d') d.build d'.build := by
  refine .of_ok (fun w hw ↦ ?_) fun w' hw' ↦ ?_
  · obtain ⟨w', hmakes, hreordered⟩ := (build_eq_ok_iff_makes.mp hw).exists_reordered h
    exact ⟨w', build_eq_ok_iff_makes.mpr hmakes, hreordered⟩
  · obtain ⟨w, hmakes, -⟩ := (build_eq_ok_iff_makes.mp hw').exists_reordered h.symm
    exact ⟨w, build_eq_ok_iff_makes.mpr hmakes⟩

/-- The market, told from the end. -/
def marketBackwards : Document :=
  ⟨market.name, market.attributes.reverse, market.actions.reverse, market.entities.reverse,
    market.events.reverse⟩

theorem build_of_sameRows_market :
    market.SameRows marketBackwards ∧
    ∃ w w', market.build = .ok w ∧ marketBackwards.build = .ok w' ∧
      RuleSet.Reordered market marketBackwards w w' ∧
      w.entities.names = ["Ann", "Bob"] ∧ w'.entities.names = ["Bob", "Ann"] := by
  have hsame : market.SameRows marketBackwards :=
    ⟨rfl, (List.reverse_perm _).symm, (List.reverse_perm _).symm, (List.reverse_perm _).symm,
      (List.reverse_perm _).symm⟩
  have hforwards : market.build.map (·.entities.names) = .ok ["Ann", "Bob"] := by
    decide +kernel
  have hbackwards : marketBackwards.build.map (·.entities.names) = .ok ["Bob", "Ann"] := by
    decide +kernel
  obtain ⟨w, hw, hnames⟩ := except_map_eq_ok_iff.mp hforwards
  obtain ⟨w', hw', hnames'⟩ := except_map_eq_ok_iff.mp hbackwards
  have htogether := build_of_sameRows hsame
  rw [hw, hw'] at htogether
  obtain _ | hreordered := htogether
  exact ⟨hsame, w, w', hw, hw', hreordered, hnames, hnames'⟩

end Document

end Tabletop
