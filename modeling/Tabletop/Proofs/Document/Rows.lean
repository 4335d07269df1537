import Tabletop.Document.Build
import Tabletop.Proofs.RuleSet.Make

/-!
# Building row by row

A document is built by defining its rows one after the other, and each row is checked against the
rule set as it is by then. But what it is checked against are the tables of earlier sections, which
are complete, and of its own table it only asks that its name is vacant. So each row is made by
itself, as if the rule set were there already that is built in the end, and a section can be built
if each of its rows can be made and no two have one name.

That is what building comes to: `Document.build` yields just the rule set whose tables are made from
the rows of the document (`Document.build_eq_ok_iff_makes`). What is known of documents and the rule
sets they describe is read off that, and does not follow the building step by step.
-/

namespace Tabletop

namespace Document

/-! ## The row that is made -/

variable {w : RuleSet}

/-- The attribute of a row. -/
def AttributeRow.make (r : AttributeRow) : Except RuleError AttributeDef := do
  return ⟨r.name, ← Kind.read r.kind⟩

theorem AttributeRow.make_eq_ok_iff {r : AttributeRow} {a : AttributeDef} :
    r.make = .ok a ↔ ∃ kind, Kind.read r.kind = .ok kind ∧ a = ⟨r.name, kind⟩ := by
  rw [make, bind_eq_ok_iff]
  simp only [pure_eq_ok_iff, eq_comm (a := a)]

/-- The action of a row. -/
def ActionRow.make (w : RuleSet) (r : ActionRow) : Except RuleError Action := do
  w.makeAction r.name (← r.readEffects)

theorem ActionRow.make_eq_ok_iff {r : ActionRow} {a : Action} :
    r.make w = .ok a ↔ ∃ effects, r.readEffects = .ok effects ∧
      w.checkEffects r.name effects = .ok () ∧ a = ⟨r.name, effects⟩ := by
  rw [make, bind_eq_ok_iff]
  simp only [RuleSet.makeAction, check_bind_eq_ok_iff, pure_eq_ok_iff, eq_comm (a := a)]

/-- The entity of a row. -/
def EntityRow.make (w : RuleSet) (r : EntityRow) : Except RuleError Entity := do
  w.makeEntity r.name (← r.readSlots) r.actions

theorem EntityRow.make_eq_ok_iff {r : EntityRow} {e : Entity} :
    r.make w = .ok e ↔ ∃ slots slots', r.readSlots = .ok slots ∧
      w.checkSlots slots = .ok slots' ∧ (∀ action ∈ r.actions, action ∈ w.actions.names) ∧
      e = .ofParts r.name slots' r.actions := by
  rw [make, bind_eq_ok_iff]
  simp only [RuleSet.makeEntity, bind_eq_ok_iff, forM_eq_ok_iff, RuleSet.ensureAction_eq_ok_iff,
    pure_eq_ok_iff, exists_const, exists_and_left, eq_comm (a := e)]

/-- The event of a row. -/
def EventRow.make (w : RuleSet) (r : EventRow) : Except RuleError Event := do
  w.makeEvent r.name r.participants r.script (← r.ending.read)

theorem EventRow.make_eq_ok_iff {r : EventRow} {e : Event} :
    r.make w = .ok e ↔ ∃ ending, r.ending.read = .ok ending ∧
      w.checkEvent r.participants r.script ending = .ok () ∧
      e = .ofScript r.name r.participants r.script ending := by
  rw [make, bind_eq_ok_iff]
  simp only [RuleSet.makeEvent, check_bind_eq_ok_iff, pure_eq_ok_iff, eq_comm (a := e)]

end Document

/-! ## Sections -/

/-- Whether a table is made from rows, each in its place and no two under one name. -/
structure Table.MadeFrom {α ρ : Type} [Named α] (make : ρ → Except RuleError α) (rows : List ρ)
    (t : Table α) : Prop where
  /-- Each row is made. -/
  made : rows.mapM make = .ok t.rows
  /-- No two have one name. -/
  nodup : t.names.Nodup

namespace RuleSet

section Rows

variable {α ρ σ : Type} [Named α] {w w' : RuleSet}

/-- To define a row is to make it and to put it at the end, if its name is vacant. -/
theorem perform_define_row_eq_ok_iff {read : Except RuleError σ} {define : σ → Edit α}
    {make : σ → Except RuleError α} {t : Table α} {write : Table α → RuleSet} {name : String}
    (hdefine : ∀ s, w.perform (define s) = w.written write (t.define name (make s)))
    (hname : ∀ s row, make s = .ok row → Named.name row = name) :
    w.perform (liftM read >>= fun s ↦ discard (define s)) = (.ok (), w') ↔
      ∃ row, (read >>= make) = .ok row ∧ Named.name row ∉ t.names ∧ w' = write (t.push row) := by
  rw [perform_lift_bind_eq_ok_iff]
  simp only [perform_discard_eq_ok_iff, hdefine, written_eq_ok_iff,
    Table.define_eq_ok_iff (hname _), bind_eq_ok_iff]
  constructor
  · rintro ⟨s, hs, row, _, ⟨hrow, hnew, rfl⟩, rfl⟩
    exact ⟨row, ⟨s, hs, hrow⟩, hnew, rfl⟩
  · rintro ⟨row, ⟨s, hs, hrow⟩, hnew, rfl⟩
    exact ⟨s, hs, row, _, ⟨hrow, hnew, rfl⟩, rfl⟩

/-- **A section.** Its rows can be defined if a table can be made from them. -/
theorem perform_forM_define_eq_ok_iff {kind : RowKind} (write : Table α → RuleSet)
    {define : ρ → Edit Unit} {make : ρ → Except RuleError α}
    (hdefine : ∀ before r w', (write ⟨kind, before⟩).perform (define r) = (.ok (), w') ↔
      ∃ row, make r = .ok row ∧ Named.name row ∉ before.map Named.name ∧
        w' = write ⟨kind, before ++ [row]⟩) {rows : List ρ} :
    (write (.empty kind)).perform (rows.forM define) = (.ok (), w') ↔
      ∃ made, Table.MadeFrom make rows ⟨kind, made⟩ ∧ w' = write ⟨kind, made⟩ := by
  -- the induction is over the rows to come; those that were made stay in front
  have key : ∀ (rows : List ρ) (before : List α), (before.map Named.name).Nodup →
      ((write ⟨kind, before⟩).perform (rows.forM define) = (.ok (), w') ↔
        ∃ made, rows.mapM make = .ok made ∧ ((before ++ made).map Named.name).Nodup ∧
          w' = write ⟨kind, before ++ made⟩) := by
    intro rows
    induction rows with
    | nil =>
      intro before hbefore
      simp [pure_eq_ok_iff, hbefore, eq_comm (a := w')]
    | cons r rows ih =>
      intro before hbefore
      have hnext : ∀ row, Named.name row ∉ before.map Named.name →
          ((before ++ [row]).map Named.name).Nodup := fun row hnew ↦
        Table.nodup_names_push (t := ⟨kind, before⟩) hbefore hnew
      have hsplit : ∀ (row : α) made, before ++ [row] ++ made = before ++ row :: made := by simp
      change (write ⟨kind, before⟩).perform (define r >>= fun _ ↦ rows.forM define) = _ ↔ _
      simp only [perform_bind_eq_ok_iff, hdefine, mapM_cons_eq_ok_iff]
      constructor
      · rintro ⟨⟨⟩, _, ⟨row, hrow, hnew, rfl⟩, hrows⟩
        obtain ⟨made, hmade, hnodup, rfl⟩ := (ih _ (hnext row hnew)).mp hrows
        rw [hsplit] at hnodup ⊢
        exact ⟨row :: made, ⟨row, made, hrow, hmade, rfl⟩, hnodup, rfl⟩
      · rintro ⟨_, ⟨row, made, hrow, hmade, rfl⟩, hnodup, rfl⟩
        have hnew : Named.name row ∉ before.map Named.name :=
          Table.name_not_mem_of_nodup (t := ⟨kind, before ++ row :: made⟩) hnodup rfl
        refine ⟨(), _, ⟨row, hrow, hnew, rfl⟩, (ih _ (hnext row hnew)).mpr ⟨made, hmade, ?_⟩⟩
        rw [hsplit]
        exact ⟨hnodup, rfl⟩
  refine (key rows [] List.nodup_nil).trans (exists_congr fun made ↦ ?_)
  exact ⟨fun ⟨hmade, hnodup, hw'⟩ ↦ ⟨⟨hmade, hnodup⟩, hw'⟩,
    fun ⟨⟨hmade, hnodup⟩, hw'⟩ ↦ ⟨hmade, hnodup, hw'⟩⟩

end Rows

section Sections

open Document

variable (w : RuleSet) {w' : RuleSet}

theorem perform_forM_defineAttribute_eq_ok_iff {rows : List AttributeRow} :
    { w with attributes := .empty .attr }.perform (rows.forM AttributeRow.define) = (.ok (), w') ↔
      ∃ made, Table.MadeFrom AttributeRow.make rows ⟨.attr, made⟩ ∧
        w' = { w with attributes := ⟨.attr, made⟩ } :=
  perform_forM_define_eq_ok_iff (fun attributes ↦ { w with attributes }) fun _ r _ ↦
    perform_define_row_eq_ok_iff (fun kind ↦ perform_defineAttribute _ r.name kind)
      fun _ _ h ↦ Except.ok.inj h ▸ rfl

theorem perform_forM_defineAction_eq_ok_iff {rows : List ActionRow} :
    { w with actions := .empty .action }.perform (rows.forM ActionRow.define) = (.ok (), w') ↔
      ∃ made, Table.MadeFrom (ActionRow.make w) rows ⟨.action, made⟩ ∧
        w' = { w with actions := ⟨.action, made⟩ } :=
  perform_forM_define_eq_ok_iff (fun actions ↦ { w with actions }) fun _ r _ ↦
    perform_define_row_eq_ok_iff (fun effects ↦ perform_defineAction _ r.name effects)
      fun _ _ ↦ name_of_makeAction

theorem perform_forM_defineEntity_eq_ok_iff {rows : List EntityRow} :
    { w with entities := .empty .entity }.perform (rows.forM EntityRow.define) = (.ok (), w') ↔
      ∃ made, Table.MadeFrom (EntityRow.make w) rows ⟨.entity, made⟩ ∧
        w' = { w with entities := ⟨.entity, made⟩ } :=
  perform_forM_define_eq_ok_iff (fun entities ↦ { w with entities }) fun _ r _ ↦
    perform_define_row_eq_ok_iff (fun slots ↦ perform_defineEntity _ r.name slots r.actions)
      fun _ _ ↦ name_of_makeEntity

theorem perform_forM_defineEvent_eq_ok_iff {rows : List EventRow} :
    { w with events := .empty .event }.perform (rows.forM EventRow.define) = (.ok (), w') ↔
      ∃ made, Table.MadeFrom (EventRow.make w) rows ⟨.event, made⟩ ∧
        w' = { w with events := ⟨.event, made⟩ } :=
  perform_forM_define_eq_ok_iff (fun events ↦ { w with events }) fun _ r _ ↦
    perform_define_row_eq_ok_iff
      (fun ending ↦ perform_defineEvent _ r.name r.participants r.script ending)
      fun _ _ ↦ name_of_makeEvent

end Sections

/-- The rule set of these rows, with no event under way. -/
def ofRows (name : String) (attributes : List AttributeDef) (actions : List Action)
    (entities : List Entity) (events : List Event) : RuleSet :=
  ⟨name, ⟨.attr, attributes⟩, ⟨.action, actions⟩, ⟨.entity, entities⟩, ⟨.event, events⟩, none⟩

end RuleSet

namespace Document

variable {d : Document} {w : RuleSet}

/-- Whether a rule set is made from the rows of a document, and of nothing else. -/
structure Makes (d : Document) (w : RuleSet) : Prop where
  /-- The attributes. -/
  attributes : Table.MadeFrom AttributeRow.make d.attributes w.attributes
  /-- The actions. -/
  actions : Table.MadeFrom (ActionRow.make w) d.actions w.actions
  /-- The entities. -/
  entities : Table.MadeFrom (EntityRow.make w) d.entities w.entities
  /-- The events. -/
  events : Table.MadeFrom (EventRow.make w) d.events w.events
  /-- There is nothing else. -/
  shape : w = .ofRows d.name w.attributes.rows w.actions.rows w.entities.rows w.events.rows

theorem build_eq_ok_iff :
    d.build = .ok w ↔ (RuleSet.empty d.name).perform d.define = (.ok (), w) := by
  rw [build]
  rcases (RuleSet.empty d.name).perform d.define with ⟨_ | _, w'⟩ <;> simp

/-- **Row by row.** What a document describes is made from its rows, each by itself. -/
theorem build_eq_ok_iff_makes : d.build = .ok w ↔ d.Makes w := by
  rw [build_eq_ok_iff, define]
  constructor
  · intro h
    obtain ⟨⟨⟩, w₁, h₁, h⟩ := RuleSet.perform_bind_eq_ok_iff.mp h
    obtain ⟨⟨⟩, w₂, h₂, h⟩ := RuleSet.perform_bind_eq_ok_iff.mp h
    obtain ⟨⟨⟩, w₃, h₃, h₄⟩ := RuleSet.perform_bind_eq_ok_iff.mp h
    obtain ⟨attributes, hattributes, rfl⟩ :=
      (RuleSet.perform_forM_defineAttribute_eq_ok_iff (.ofRows d.name [] [] [] [])).mp h₁
    obtain ⟨actions, hactions, rfl⟩ :=
      (RuleSet.perform_forM_defineAction_eq_ok_iff (.ofRows d.name attributes [] [] [])).mp h₂
    obtain ⟨entities, hentities, rfl⟩ :=
      (RuleSet.perform_forM_defineEntity_eq_ok_iff
        (.ofRows d.name attributes actions [] [])).mp h₃
    obtain ⟨events, hevents, rfl⟩ :=
      (RuleSet.perform_forM_defineEvent_eq_ok_iff
        (.ofRows d.name attributes actions entities [])).mp h₄
    exact ⟨hattributes, hactions, hentities, hevents, rfl⟩
  · rintro ⟨hattributes, hactions, hentities, hevents, hshape⟩
    rcases w with ⟨name, ⟨_, attributes⟩, ⟨_, actions⟩, ⟨_, entities⟩, ⟨_, events⟩, running⟩
    cases hshape
    have h₁ := (RuleSet.perform_forM_defineAttribute_eq_ok_iff (.ofRows d.name [] [] [] [])).mpr
      ⟨_, hattributes, rfl⟩
    have h₂ := (RuleSet.perform_forM_defineAction_eq_ok_iff
      (.ofRows d.name attributes [] [] [])).mpr ⟨_, hactions, rfl⟩
    have h₃ := (RuleSet.perform_forM_defineEntity_eq_ok_iff
      (.ofRows d.name attributes actions [] [])).mpr ⟨_, hentities, rfl⟩
    have h₄ := (RuleSet.perform_forM_defineEvent_eq_ok_iff
      (.ofRows d.name attributes actions entities [])).mpr ⟨_, hevents, rfl⟩
    exact (RuleSet.perform_bind_of_ok h₁ _).trans <| (RuleSet.perform_bind_of_ok h₂ _).trans <|
      (RuleSet.perform_bind_of_ok h₃ _).trans h₄

end Document

end Tabletop
