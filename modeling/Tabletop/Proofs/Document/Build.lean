import Tabletop.Document.OfRuleSet
import Tabletop.Proofs.Document.Rows
import Tabletop.Proofs.RuleSet.AtRest

/-!
# Building from documents

Two facts about `Document.build`. Whatever it builds is sound, because every row of it was made by
checks (`atRest_of_build`), and its events have not started. And what is sound is built again from
its own document, because its rows pass the checks by which they are made; up to the progress of
events, which a document leaves out (`Sound.build_document`).
-/

namespace Tabletop

/-- Whether no event of a rule set has progress. -/
def RuleSet.Fresh (w : RuleSet) : Prop := ∀ e ∈ w.events.rows, e.reset = e

/-! ## What is written is read back -/

theorem Kind.read_word (k : Kind) : Kind.read k.word = .ok k := by cases k <;> rfl

theorem Scope.read_word (s : Scope) : Scope.read s.word = .ok s := by cases s <;> rfl

theorem Modifier.read_word (m : Modifier) : Modifier.read m.word = .ok m := by cases m <;> rfl

theorem Owner.read_word (o : Owner) : Owner.read o.word = .ok o := by cases o <;> rfl

theorem Owner.readCondition_word (o : Owner) : Owner.readCondition o.word = .ok o := by
  cases o <;> rfl

theorem Combine.read_word (c : Combine) : Combine.read c.word = .ok c := by cases c <;> rfl

theorem Sign.read_word (s : Sign) : Sign.read s.word = .ok s := by cases s <;> rfl

theorem Comparator.read_word (c : Comparator) : Comparator.read c.word = .ok c := by cases c <;> rfl

namespace Document

variable {α ρ : Type}

theorem option_mapM_map_of_read {write : α → ρ} {read : ρ → Except RuleError α}
    (h : ∀ a, read (write a) = .ok a) (o : Option α) : (o.map write).mapM read = .ok o := by
  cases o with
  | none => rfl
  | some a => rw [Option.map_some, Option.mapM_some, h a]; rfl

theorem FlatRow.read_ofFlat (f : FlatChange) : (FlatRow.ofFlat f).read = .ok f := by
  rw [read, ofFlat, Sign.read_word]
  rfl

theorem DrawRow.read_ofDraw (d : Draw) : (DrawRow.ofDraw d).read = .ok d := by
  simp only [read, ofDraw, Owner.read_word, Combine.read_word,
    option_mapM_map_of_read FlatRow.read_ofFlat]
  rfl

theorem AmountRow.read_ofAmount (a : Amount) : (AmountRow.ofAmount a).read = .ok a := by
  cases a with
  | literal value => rfl
  | drawn d =>
    rw [ofAmount, read, DrawRow.read_ofDraw]
    rfl

theorem ConditionRow.read_ofCondition (c : Condition) :
    (ConditionRow.ofCondition c).read = .ok c := by
  simp only [read, ofCondition, Owner.readCondition_word, Comparator.read_word]
  rfl

theorem EffectRow.read_ofEffect (e : Effect) : (EffectRow.ofEffect e).read = .ok e := by
  simp only [read, ofEffect, Scope.read_word, Modifier.read_word, AmountRow.read_ofAmount,
    option_mapM_map_of_read ConditionRow.read_ofCondition]
  rfl

theorem SlotRow.read_ofSlot (s : Slot) : (SlotRow.ofSlot s).read = .ok s := by
  rw [read, ofSlot, Kind.read_word]
  rfl

theorem EndingRow.read_ofEnding (e : EndCondition) : (EndingRow.ofEnding e).read = .ok e := by
  cases e with
  | turnCount comparator count =>
    rw [ofEnding, read, Comparator.read_word]
    rfl
  | participant name attr comparator value =>
    rw [ofEnding, read, Comparator.read_word]
    rfl

/-! ## What is built is sound -/

section

variable {d : Document} {w : RuleSet}

theorem Makes.sound (h : d.Makes w) : w.Sound where
  kinds := by
    rw [h.shape]
    exact ⟨rfl, rfl, rfl, rfl⟩
  attributes := h.attributes.nodup
  actions := h.actions.nodup
  entities := h.entities.nodup
  events := h.events.nodup
  effects := by
    refine forall_mem_of_mapM (fun r a ha ↦ ?_) h.actions.made
    obtain ⟨effects, -, hcheck, rfl⟩ := ActionRow.make_eq_ok_iff.mp ha
    exact hcheck
  fits := by
    refine forall_mem_of_mapM (fun r e he ↦ ?_) h.entities.made
    obtain ⟨slots, slots', -, hslots, hactions, rfl⟩ := EntityRow.make_eq_ok_iff.mp he
    exact .ofParts hslots hactions
  scripts := by
    refine forall_mem_of_mapM (fun r e he ↦ ?_) h.events.made
    obtain ⟨ending, -, hcheck, rfl⟩ := EventRow.make_eq_ok_iff.mp he
    exact hcheck

/-- **Whatever is built is sound.** -/
theorem atRest_of_build (h : d.build = .ok w) : w.AtRest := by
  have hmakes := build_eq_ok_iff_makes.mp h
  refine ⟨hmakes.sound, ?_⟩
  rw [hmakes.shape]
  rfl

/-- The events of what was built have not started. -/
theorem fresh_of_build (h : d.build = .ok w) : w.Fresh := by
  refine forall_mem_of_mapM (fun r e he ↦ ?_) (build_eq_ok_iff_makes.mp h).events.made
  obtain ⟨ending, -, -, rfl⟩ := EventRow.make_eq_ok_iff.mp he
  rfl

end

end Document

/-- Loading a document puts what it describes in the place of the rule set. -/
theorem RuleSet.perform_load_eq_ok_iff {w w' : RuleSet} {d : Document} {u : Unit} :
    w.perform (load d) = (.ok u, w') ↔ d.build = .ok w' := by
  rw [load, perform_lift_bind_eq_ok_iff]
  constructor
  · rintro ⟨w₁, hbuild, hset⟩
    obtain ⟨-, rfl⟩ := Prod.mk.inj hset
    exact hbuild
  · intro hbuild
    exact ⟨w', hbuild, rfl⟩

/-! ## What is sound is built again -/

namespace Document

variable {w : RuleSet}

theorem AttributeRow.make_ofAttribute (a : AttributeDef) : (ofAttribute a).make = .ok a :=
  make_eq_ok_iff.mpr ⟨a.kind, Kind.read_word a.kind, rfl⟩

theorem ActionRow.make_ofAction {a : Action} (h : w.checkEffects a.name a.effects = .ok ()) :
    (ofAction a).make w = .ok a :=
  make_eq_ok_iff.mpr
    ⟨a.effects, mapM_map_of_read fun f _ ↦ EffectRow.read_ofEffect f, h, rfl⟩

theorem EntityRow.make_ofEntity {e : Entity} (h : e.Fits w) : (ofEntity e).make w = .ok e := by
  -- no action is named twice, so none is dropped
  have hparts : Entity.ofParts e.name e.slots e.actions = e := by
    rw [Entity.ofParts, eraseDups_of_nodup h.nodup_actions]
  exact make_eq_ok_iff.mpr
    ⟨e.slots, e.slots, mapM_map_of_read fun s _ ↦ SlotRow.read_ofSlot s,
      RuleSet.checkSlots_of_fits h.nodup_slots h.slots, h.actions, hparts.symm⟩

theorem EventRow.make_ofEvent {e : Event}
    (h : w.checkEvent e.participants e.script e.ending = .ok ()) :
    (ofEvent e).make w = .ok e.reset :=
  make_eq_ok_iff.mpr ⟨e.ending, EndingRow.read_ofEnding e.ending, h, rfl⟩

end Document

namespace RuleSet

variable {w : RuleSet}

open Document

/-- **What is sound is built again**, with events that have not started. -/
theorem Sound.build_document (h : w.Sound) :
    w.document.build = .ok { w with events := w.events.map Event.reset, running := none } := by
  obtain ⟨hattributes, hactions, hentities, hevents⟩ := h.kinds
  -- progress is not written down, so it may as well be taken back before
  have hreset : w.document.events = (w.events.map Event.reset).rows.map .ofEvent := by
    rw [Table.map, List.map_map]
    rfl
  have hnames : (w.events.map Event.reset).names = w.events.names := Table.names_map fun _ ↦ rfl
  refine build_eq_ok_iff_makes.mpr
    ⟨⟨?_, h.attributes⟩, ⟨?_, h.actions⟩, ⟨?_, h.entities⟩, ⟨?_, hnames ▸ h.events⟩, ?_⟩
  · exact mapM_map_of_read fun a _ ↦ AttributeRow.make_ofAttribute a
  · exact mapM_map_of_read fun a ha ↦ ActionRow.make_ofAction (h.effects a ha)
  · exact mapM_map_of_read fun e he ↦ EntityRow.make_ofEntity
      ((h.fits e he).mono (fun _ _ ha ↦ ha) fun _ hn ↦ hn)
  · rw [hreset]
    exact mapM_map_of_read <| List.forall_mem_map.mpr fun e he ↦
      EventRow.make_ofEvent (h.scripts e he)
  · rw [ofRows, ← hattributes, ← hactions, ← hentities, ← hevents]
    rfl

/-- Without started events, what is sound and at rest is built again as it is. -/
theorem AtRest.build_document (h : w.AtRest) (hfresh : w.Fresh) : w.document.build = .ok w := by
  have hevents : w.events.map Event.reset = w.events := by
    have hrows : w.events.rows.map Event.reset = w.events.rows.map id :=
      List.map_congr_left hfresh
    rw [Table.map, hrows, List.map_id]
  have hbuild := h.sound.build_document
  rwa [hevents, ← h.idle] at hbuild

end RuleSet

end Tabletop
