import Tabletop.Proofs.Document.Build
import Tabletop.Proofs.Document.Numbers

/-!
# The normal form of documents

A rule set that was built from a document is written down as that document again, up to three
things: a condition calls its user `user`, a slot has the kind of its attribute, and an entity names
each of its actions once. So the document of the rule set is the normal form of the document that it
was built from (`Document.document_of_build`), and has the same numbers. The normal form describes
the same rule set as the document itself, because what is built is built again from what is written
down for it.
-/

namespace Tabletop

/-! ## Words that are read are written again -/

theorem Kind.word_of_read {word : String} {k : Kind} (h : Kind.read word = .ok k) :
    k.word = word := by
  have hword := need_eq_ok_iff.mp h
  unfold ofWord? at hword
  split at hword <;> cases hword <;> rfl

theorem Scope.word_of_read {word : String} {s : Scope} (h : Scope.read word = .ok s) :
    s.word = word := by
  have hword := need_eq_ok_iff.mp h
  unfold ofWord? at hword
  split at hword <;> cases hword <;> rfl

theorem Modifier.word_of_read {word : String} {m : Modifier} (h : Modifier.read word = .ok m) :
    m.word = word := by
  have hword := need_eq_ok_iff.mp h
  unfold ofWord? at hword
  split at hword <;> cases hword <;> rfl

theorem Owner.word_of_ofWord? {word : String} {o : Owner} (h : ofWord? word = some o) :
    o.word = word := by
  unfold ofWord? at h
  split at h <;> cases h <;> rfl

theorem Owner.word_of_read {word : String} {o : Owner} (h : Owner.read word = .ok o) :
    o.word = word :=
  word_of_ofWord? (need_eq_ok_iff.mp h)

theorem Combine.word_of_read {word : String} {c : Combine} (h : Combine.read word = .ok c) :
    c.word = word := by
  have hword := need_eq_ok_iff.mp h
  unfold ofWord? at hword
  split at hword <;> cases hword <;> rfl

theorem Sign.word_of_read {word : String} {s : Sign} (h : Sign.read word = .ok s) :
    s.word = word := by
  have hword := need_eq_ok_iff.mp h
  unfold ofWord? at hword
  split at hword <;> cases hword <;> rfl

theorem Comparator.word_of_read {word : String} {c : Comparator}
    (h : Comparator.read word = .ok c) : c.word = word := by
  have hword := need_eq_ok_iff.mp h
  unfold ofWord? at hword
  split at hword <;> cases hword <;> rfl

/-- The word for the owner of a condition as it is written, whichever way it was read. -/
def Owner.conditionWord (word : String) : String := if word = "self" then user.word else word

theorem Owner.word_of_readCondition {word : String} {o : Owner}
    (h : Owner.readCondition word = .ok o) : o.word = conditionWord word := by
  have hword := need_eq_ok_iff.mp h
  unfold ofConditionWord? at hword
  split at hword
  · cases hword
    rfl
  · rename_i hself
    rw [conditionWord, if_neg hself]
    exact word_of_ofWord? hword

namespace Document

/-! ## Normal forms -/

/-- A condition as it is written again. -/
def ConditionRow.normal (r : ConditionRow) : ConditionRow :=
  { r with owner := Owner.conditionWord r.owner }

/-- An effect as it is written again. -/
def EffectRow.normal (r : EffectRow) : EffectRow :=
  { r with condition := r.condition.map ConditionRow.normal }

/-- An action as it is written again. -/
def ActionRow.normal (r : ActionRow) : ActionRow :=
  { r with effects := r.effects.map EffectRow.normal }

/-- A slot as it is written again, with the kind of its attribute. -/
def SlotRow.normal (attributes : List AttributeRow) (r : SlotRow) : SlotRow :=
  { r with kind := ((attributes.find? (·.name == r.attr)).map AttributeRow.kind).getD r.kind }

/-- An entity as it is written again. -/
def EntityRow.normal (attributes : List AttributeRow) (r : EntityRow) : EntityRow :=
  { r with slots := r.slots.map (SlotRow.normal attributes), actions := r.actions.eraseDups }

/-- A document as it is written again. -/
def normal (d : Document) : Document :=
  { d with
    actions := d.actions.map ActionRow.normal
    entities := d.entities.map (EntityRow.normal d.attributes) }

/-! ### The normal form of a normal form -/

theorem map_map_self {α : Type} {f : α → α} (hf : ∀ a, f (f a) = f a) (as : List α) :
    (as.map f).map f = as.map f := by
  rw [List.map_map]
  exact List.map_congr_left fun a _ ↦ hf a

theorem ConditionRow.normal_normal (r : ConditionRow) : r.normal.normal = r.normal := by
  have howner : Owner.conditionWord (Owner.conditionWord r.owner) =
      Owner.conditionWord r.owner := by
    by_cases hself : r.owner = "self"
    · rw [Owner.conditionWord, hself]
      rfl
    · rw [Owner.conditionWord, Owner.conditionWord, if_neg hself, if_neg hself]
  exact congrArg (fun owner ↦ { r with owner }) howner

theorem EffectRow.normal_normal (r : EffectRow) : r.normal.normal = r.normal := by
  have hcondition : (r.condition.map ConditionRow.normal).map ConditionRow.normal =
      r.condition.map ConditionRow.normal := by
    rw [Option.map_map]
    exact Option.map_congr fun c _ ↦ c.normal_normal
  exact congrArg (fun condition ↦ { r with condition }) hcondition

theorem ActionRow.normal_normal (r : ActionRow) : r.normal.normal = r.normal :=
  congrArg (fun effects ↦ { r with effects }) (map_map_self EffectRow.normal_normal r.effects)

theorem SlotRow.normal_normal (attributes : List AttributeRow) (r : SlotRow) :
    (r.normal attributes).normal attributes = r.normal attributes := by
  rw [normal, normal]
  cases attributes.find? (·.name == r.attr) <;> rfl

theorem EntityRow.normal_normal (attributes : List AttributeRow) (r : EntityRow) :
    (r.normal attributes).normal attributes = r.normal attributes := by
  have hactions : r.actions.eraseDups.eraseDups = r.actions.eraseDups :=
    eraseDups_of_nodup (nodup_eraseDups r.actions)
  rw [normal, normal, map_map_self (SlotRow.normal_normal attributes), hactions]

/-- **A normal form is its own normal form**, whether or not it describes a rule set. -/
theorem normal_normal (d : Document) : d.normal.normal = d.normal := by
  rw [normal, normal, map_map_self ActionRow.normal_normal,
    map_map_self (EntityRow.normal_normal d.attributes)]

/-! ### Numbers -/

theorem EffectRow.numbers_normal (r : EffectRow) : r.normal.numbers = r.numbers := by
  rw [numbers, numbers, normal]
  cases r.condition <;> rfl

theorem ActionRow.numbers_normal (r : ActionRow) : r.normal.numbers = r.numbers := by
  simp only [numbers, normal, List.flatMap_map, EffectRow.numbers_normal]

theorem EntityRow.numbers_normal (attributes : List AttributeRow) (r : EntityRow) :
    (r.normal attributes).numbers = r.numbers := by
  rw [numbers, numbers, normal, List.flatMap_map]
  rfl

/-- **Numbers are written again as they are.** -/
theorem numbers_normal (d : Document) : d.normal.numbers = d.numbers := by
  simp only [numbers, normal, List.flatMap_map, ActionRow.numbers_normal,
    EntityRow.numbers_normal]

/-! ## Rows that are read are written again -/

section Rows

variable {α ρ σ : Type} {read : ρ → Except RuleError α} {write : α → σ} {g : ρ → σ}

theorem map_eq_of_mapM (h : ∀ r a, read r = .ok a → write a = g r) {rows : List ρ} {as : List α}
    (hread : rows.mapM read = .ok as) : as.map write = rows.map g := by
  have hall := mapM_eq_ok_iff.mp hread
  clear hread
  induction hall with
  | nil => rfl
  | cons ha _ ih => rw [List.map_cons, List.map_cons, h _ _ ha, ih]

theorem option_map_eq_of_mapM (h : ∀ r a, read r = .ok a → write a = g r) {row : Option ρ}
    {a : Option α} (hread : row.mapM read = .ok a) : a.map write = row.map g := by
  cases row with
  | none =>
    obtain rfl := pure_eq_ok_iff.mp hread
    rfl
  | some r =>
    rw [Option.mapM_some, map_eq_ok_iff] at hread
    obtain ⟨a, ha, rfl⟩ := hread
    exact congrArg some (h r a ha)

theorem FlatRow.ofFlat_of_read {r : FlatRow} {c : FlatChange} (h : r.read = .ok c) :
    ofFlat c = r := by
  obtain ⟨sign, hsign, h⟩ := bind_eq_ok_iff.mp h
  obtain rfl := pure_eq_ok_iff.mp h
  rw [ofFlat, Sign.word_of_read hsign]

theorem DrawRow.ofDraw_of_read {r : DrawRow} {d : Draw} (h : r.read = .ok d) : ofDraw d = r := by
  obtain ⟨owner, howner, h⟩ := bind_eq_ok_iff.mp h
  obtain ⟨combine, hcombine, h⟩ := bind_eq_ok_iff.mp h
  obtain ⟨flat, hflat, h⟩ := bind_eq_ok_iff.mp h
  obtain rfl := pure_eq_ok_iff.mp h
  have hflat' := option_map_eq_of_mapM (g := id) (fun _ _ h ↦ FlatRow.ofFlat_of_read h) hflat
  rw [Option.map_id] at hflat'
  rw [ofDraw, Owner.word_of_read howner, Combine.word_of_read hcombine, hflat']
  rfl

theorem AmountRow.ofAmount_of_read {r : AmountRow} {a : Amount} (h : r.read = .ok a) :
    ofAmount a = r := by
  cases r with
  | literal value =>
    obtain rfl := Except.ok.inj h
    rfl
  | drawn r =>
    obtain ⟨d, hd, rfl⟩ := except_map_eq_ok_iff.mp h
    exact congrArg drawn (DrawRow.ofDraw_of_read hd)

theorem ConditionRow.ofCondition_of_read {r : ConditionRow} {c : Condition} (h : r.read = .ok c) :
    ofCondition c = r.normal := by
  obtain ⟨owner, howner, h⟩ := bind_eq_ok_iff.mp h
  obtain ⟨comparator, hcomparator, h⟩ := bind_eq_ok_iff.mp h
  obtain rfl := pure_eq_ok_iff.mp h
  rw [ofCondition, Owner.word_of_readCondition howner, Comparator.word_of_read hcomparator]
  rfl

theorem EffectRow.ofEffect_of_read {r : EffectRow} {e : Effect} (h : r.read = .ok e) :
    ofEffect e = r.normal := by
  obtain ⟨scope, hscope, h⟩ := bind_eq_ok_iff.mp h
  obtain ⟨modifier, hmodifier, h⟩ := bind_eq_ok_iff.mp h
  obtain ⟨amount, hamount, h⟩ := bind_eq_ok_iff.mp h
  obtain ⟨condition, hcondition, h⟩ := bind_eq_ok_iff.mp h
  obtain rfl := pure_eq_ok_iff.mp h
  rw [ofEffect, Scope.word_of_read hscope, Modifier.word_of_read hmodifier,
    AmountRow.ofAmount_of_read hamount,
    option_map_eq_of_mapM (fun _ _ h ↦ ConditionRow.ofCondition_of_read h) hcondition]
  rfl

theorem SlotRow.ofSlot_of_read {r : SlotRow} {s : Slot} (h : r.read = .ok s) : ofSlot s = r := by
  obtain ⟨kind, hkind, h⟩ := bind_eq_ok_iff.mp h
  obtain rfl := pure_eq_ok_iff.mp h
  rw [ofSlot, Kind.word_of_read hkind]

theorem EndingRow.ofEnding_of_read {r : EndingRow} {e : EndCondition} (h : r.read = .ok e) :
    ofEnding e = r := by
  cases r with
  | turnCount word count =>
    obtain ⟨comparator, hcomparator, h⟩ := bind_eq_ok_iff.mp h
    obtain rfl := pure_eq_ok_iff.mp h
    rw [ofEnding, Comparator.word_of_read hcomparator]
  | participant name attr word value =>
    obtain ⟨comparator, hcomparator, h⟩ := bind_eq_ok_iff.mp h
    obtain rfl := pure_eq_ok_iff.mp h
    rw [ofEnding, Comparator.word_of_read hcomparator]

end Rows

/-! ## Tables that are built are written again -/

section Tables

variable {w : RuleSet}

theorem find?_attributes (w : RuleSet) (attr : String) :
    w.document.attributes.find? (·.name == attr) =
      (w.attributes.get? attr).map AttributeRow.ofAttribute := by
  change (w.attributes.rows.map AttributeRow.ofAttribute).find? (·.name == attr) = _
  rw [List.find?_map]
  rfl

theorem SlotRow.ofSlot_of_check {before after : List Slot} {s : Slot}
    (h : w.checkSlot before s = .ok after) :
    after.map ofSlot = before.map ofSlot ++ [(ofSlot s).normal w.document.attributes] := by
  obtain ⟨a, ha, -, -, -, rfl⟩ := RuleSet.checkSlot_eq_ok_iff.mp h
  have hget : w.attributes.get? (ofSlot s).attr = some a := ha
  rw [List.map_append, List.map_singleton, normal, find?_attributes, hget]
  rfl

theorem SlotRow.ofSlot_of_checkSlots {slots slots' : List Slot}
    (h : w.checkSlots slots = .ok slots') :
    slots'.map ofSlot = slots.map fun s ↦ (ofSlot s).normal w.document.attributes := by
  -- the induction is over the slots to come; those that were checked before stay in front
  have key : ∀ (slots before after : List Slot), slots.foldlM w.checkSlot before = .ok after →
      after.map ofSlot = before.map ofSlot ++
        slots.map fun s ↦ (ofSlot s).normal w.document.attributes := by
    intro slots
    induction slots with
    | nil =>
      intro before after h
      obtain rfl := pure_eq_ok_iff.mp h
      rw [List.map_nil, List.append_nil]
    | cons s slots ih =>
      intro before after h
      rw [List.foldlM_cons, bind_eq_ok_iff] at h
      obtain ⟨next, hnext, h⟩ := h
      rw [ih next after h, ofSlot_of_check hnext, List.append_assoc]
      rfl
  exact key slots [] slots' h

theorem AttributeRow.ofAttribute_of_make {r : AttributeRow} {a : AttributeDef}
    (h : r.make = .ok a) : ofAttribute a = r := by
  obtain ⟨kind, hkind, rfl⟩ := make_eq_ok_iff.mp h
  rw [ofAttribute, Kind.word_of_read hkind]

theorem ActionRow.ofAction_of_make {r : ActionRow} {a : Action} (h : r.make w = .ok a) :
    ofAction a = r.normal := by
  obtain ⟨effects, heffects, -, rfl⟩ := make_eq_ok_iff.mp h
  rw [ofAction, map_eq_of_mapM (fun _ _ h ↦ EffectRow.ofEffect_of_read h) heffects]
  rfl

theorem EntityRow.ofEntity_of_make {r : EntityRow} {e : Entity} (h : r.make w = .ok e) :
    ofEntity e = r.normal w.document.attributes := by
  obtain ⟨slots, slots', hslots, hcheck, -, rfl⟩ := make_eq_ok_iff.mp h
  have hread := map_eq_of_mapM (g := id) (fun _ _ h ↦ SlotRow.ofSlot_of_read h) hslots
  rw [List.map_id] at hread
  rw [ofEntity, Entity.ofParts, SlotRow.ofSlot_of_checkSlots hcheck, normal, ← hread, List.map_map]
  rfl

theorem EventRow.ofEvent_of_make {r : EventRow} {e : Event} (h : r.make w = .ok e) :
    ofEvent e = r := by
  obtain ⟨ending, hending, -, rfl⟩ := make_eq_ok_iff.mp h
  rw [ofEvent, Event.ofScript, EndingRow.ofEnding_of_read hending]

end Tables

/-- **What is built is written down as the normal form.** -/
theorem document_of_build {d : Document} {w : RuleSet} (h : d.build = .ok w) :
    w.document = d.normal := by
  have hmakes := build_eq_ok_iff_makes.mp h
  have hname : w.name = d.name := by rw [hmakes.shape]; rfl
  have hattributes : w.document.attributes = d.attributes :=
    (map_eq_of_mapM (g := id) (fun _ _ ↦ AttributeRow.ofAttribute_of_make)
      hmakes.attributes.made).trans d.attributes.map_id
  have hactions : w.document.actions = d.actions.map ActionRow.normal :=
    map_eq_of_mapM (fun _ _ ↦ ActionRow.ofAction_of_make) hmakes.actions.made
  -- a slot is written with the kind of its attribute, and the attributes are those of the document
  have hentities : w.document.entities = d.entities.map (EntityRow.normal d.attributes) := by
    rw [← hattributes]
    exact map_eq_of_mapM (fun _ _ ↦ EntityRow.ofEntity_of_make) hmakes.entities.made
  have hevents : w.document.events = d.events :=
    (map_eq_of_mapM (g := id) (fun _ _ ↦ EventRow.ofEvent_of_make)
      hmakes.events.made).trans d.events.map_id
  calc w.document
      = ⟨w.name, w.document.attributes, w.document.actions, w.document.entities,
          w.document.events⟩ := rfl
    _ = d.normal := by rw [hname, hattributes, hactions, hentities, hevents]; rfl

/-! ## The normal form describes the same rule set -/

/-- **Building and writing down is taking the normal form.** A rule set that was built from a
document is written down as its normal form; the normal form builds the same rule set, and is its
own normal form. -/
theorem normal_of_build {d : Document} {w : RuleSet} (h : d.build = .ok w) :
    w.document = d.normal ∧ d.normal.build = .ok w ∧ d.normal.normal = d.normal := by
  have hdocument : w.document = d.normal := document_of_build h
  refine ⟨hdocument, ?_, d.normal_normal⟩
  rw [← hdocument]
  exact (atRest_of_build h).build_document (fresh_of_build h)

/-- A market with all that is written again in another way: a condition on `self`, a share that is
called a number, and an action named twice. -/
def market : Document where
  name := "market"
  attributes := [⟨"purse", "num"⟩, ⟨"luck", "percent"⟩, ⟨"mood", "alpha"⟩, ⟨"open", "bool"⟩]
  actions :=
    [⟨"haggle", [⟨"purse", "mt", "+", .drawn ⟨"luck", "user", "*", .ofInt 4, some ⟨"-", .ofInt 1⟩⟩,
        some ⟨"luck", "self", ">=", .number (.ofInt 0)⟩⟩,
      ⟨"mood", "st", "=", .literal (.text "cross"), none⟩]⟩,
      ⟨"close", [⟨"open", "self", "=", .literal (.boolean false),
        some ⟨"mood", "target", "!=", .text "glad"⟩⟩]⟩]
  entities :=
    [⟨"Ann", [⟨"luck", "num", .number (.ofInt 2)⟩, ⟨"purse", "percent", .number (.ofInt 9)⟩,
        ⟨"open", "bool", .boolean true⟩], ["haggle", "close", "haggle"]⟩,
      ⟨"Bob", [⟨"mood", "alpha", .text "glad"⟩, ⟨"purse", "num", .number (.ofInt 5)⟩], []⟩]
  events :=
    [⟨"bargain", ["Ann", "Bob"], [.act "Ann" "haggle" ["Bob"], .say "Bob" "Sold!"],
        .turnCount "=" 2⟩,
      ⟨"evening", ["Bob"], [.act "Ann" "close" ["Bob"]],
        .participant "Bob" "purse" "<" (.number (.ofInt 1))⟩]

theorem normal_of_build_market : ∃ w, market.build = .ok w ∧
    (w.document = market.normal ∧ market.normal.build = .ok w ∧
      market.normal.normal = market.normal) ∧
    market.normal.entities.map (·.actions) = [["haggle", "close"], []] := by
  cases hw : market.build with
  | error e =>
    have hbuilt : market.build.isOk = true := by decide +kernel
    rw [hw] at hbuilt
    exact absurd hbuilt Bool.false_ne_true
  | ok w => exact ⟨w, rfl, normal_of_build hw, by decide +kernel⟩

end Document

end Tabletop
