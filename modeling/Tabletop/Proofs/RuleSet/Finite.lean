import Tabletop.Proofs.Document.Stable
import Tabletop.Proofs.Document.Unreadable
import Tabletop.Proofs.RuleSet.Step

/-!
# Numbers that are finite

A number that is not finite cannot be written down: its place in a text takes `null`, and no reader
takes `null` for a number. Checks refuse such numbers in two places, the literal amounts of effects
and the values of entities, and arithmetic refuses them as results. So there all numbers are finite,
whatever was done (`Reachable.isFinite_checked`).

No check looks at the others: operands and flat changes of drawn amounts, and the values that
conditions and end conditions compare with. An infinite one gets in, and the rule set is saved as a
text that cannot be read (`saved_text_furnace`). That is the only way to such a text
(`saved_text_readable`), and where operations bring finite numbers only it does not come to that
(`Careful.isFinite`).
-/

namespace Tabletop

/-! ## Two sorts of numbers -/

theorem Value.forall_numbers {v : Value} :
    (∀ x ∈ v.numbers, x.isFinite = true) ↔ v.isFinite = true := by
  cases v with
  | number x => exact List.forall_mem_singleton
  | boolean b | text s => exact iff_of_true (List.forall_mem_nil _) rfl

/-- The numbers of a literal amount. -/
def Amount.literals : Amount → List Number
  | literal value => value.numbers
  | drawn _ => []

/-- The numbers of a drawn amount. -/
def Amount.constants : Amount → List Number
  | literal _ => []
  | drawn d => d.operand :: d.flat.toList.map FlatChange.magnitude

/-- The numbers of an effect that no check looks at. -/
def Effect.unchecked (f : Effect) : List Number :=
  f.amount.constants ++ f.condition.toList.flatMap fun c ↦ c.value.numbers

/-- The numbers of an end condition, which no check looks at. -/
def EndCondition.numbers : EndCondition → List Number
  | turnCount _ _ => []
  | participant _ _ _ value => value.numbers

namespace RuleSet

/-- The numbers of a rule set that checks look at: in literal amounts and in values of entities. -/
def checked (w : RuleSet) : List Number :=
  (w.actions.rows.flatMap fun a ↦ a.effects.flatMap fun f ↦ f.amount.literals) ++
    w.entities.rows.flatMap fun e ↦ e.slots.flatMap fun s ↦ s.value.numbers

/-- The numbers of a rule set that no check looks at. -/
def unchecked (w : RuleSet) : List Number :=
  (w.actions.rows.flatMap fun a ↦ a.effects.flatMap Effect.unchecked) ++
    w.events.rows.flatMap fun e ↦ e.ending.numbers

end RuleSet

namespace Document

variable {P : Number → Prop}

theorem forall_numbers_ofEffect {f : Effect} :
    (∀ x ∈ (EffectRow.ofEffect f).numbers, P x) ↔
      (∀ x ∈ f.amount.literals, P x) ∧ ∀ x ∈ f.unchecked, P x := by
  have hamount : (AmountRow.ofAmount f.amount).numbers =
      f.amount.literals ++ f.amount.constants := by
    rcases f.amount with value | ⟨_, _, _, operand, _ | flat⟩
    · exact (List.append_nil _).symm
    · rfl
    · rfl
  have hcondition : (f.condition.map ConditionRow.ofCondition).toList.flatMap ConditionRow.numbers =
      f.condition.toList.flatMap fun c ↦ c.value.numbers := by
    cases f.condition <;> rfl
  rw [EffectRow.ofEffect, EffectRow.numbers, hamount, hcondition, Effect.unchecked,
    List.append_assoc, List.forall_mem_append]

/-- The numbers of a saved rule set are of the two sorts. -/
theorem forall_numbers_document {w : RuleSet} :
    (∀ x ∈ w.document.numbers, P x) ↔ (∀ x ∈ w.checked, P x) ∧ ∀ x ∈ w.unchecked, P x := by
  have hending (e : EndCondition) : (EndingRow.ofEnding e).numbers = e.numbers := by
    cases e <;> rfl
  simp only [numbers, RuleSet.document, RuleSet.checked, RuleSet.unchecked, ActionRow.numbers,
    ActionRow.ofAction, EntityRow.numbers, EntityRow.ofEntity, SlotRow.numbers, SlotRow.ofSlot,
    EventRow.numbers, EventRow.ofEvent, List.flatMap_map, List.forall_mem_append,
    List.forall_mem_flatMap, forall_numbers_ofEffect, hending]
  constructor
  · rintro ⟨⟨hactions, hentities⟩, hevents⟩
    exact ⟨⟨fun a ha f hf ↦ (hactions a ha f hf).1, hentities⟩,
      fun a ha f hf ↦ (hactions a ha f hf).2, hevents⟩
  · rintro ⟨⟨hliterals, hentities⟩, hunchecked, hevents⟩
    exact ⟨⟨fun a ha f hf ↦ ⟨hliterals a ha f hf, hunchecked a ha f hf⟩, hentities⟩, hevents⟩

end Document

/-! ## Entities stay finite -/

/-- Whether all values of an entity are finite. -/
def Entity.IsFinite (e : Entity) : Prop := ∀ s ∈ e.slots, s.value.isFinite = true

/-- An effect whose literal amount is finite, if it has one, writes finite values only. -/
theorem Effect.preserves_isFinite {f : Effect} (h : ∀ x ∈ f.amount.literals, x.isFinite = true) :
    f.Preserves Entity.IsFinite := by
  intro user target? amount m s after hm hamount _ hafter
  have hfinite : amount.isFinite = true := by
    cases hf : f.amount with
    | literal value =>
      rw [hf] at h hamount
      obtain rfl := Except.ok.inj hamount
      exact Value.forall_numbers.mp h
    | drawn d =>
      rw [hf] at hamount
      obtain ⟨x, hx, rfl⟩ := except_map_eq_ok_iff.mp hamount
      exact d.isFinite_of_resolve hx
  exact forall_mem_changeFirst hm fun _ _ ↦ Modifier.isFinite_of_apply hafter hfinite

theorem Entity.IsFinite.relabel {e : Entity} (h : e.IsFinite) (attr : String) (kind : Kind) :
    (e.relabel attr kind).IsFinite :=
  forall_mem_changeFirst h fun s hs ↦ h s (List.mem_of_find?_eq_some hs)

/-! ## What operations bring -/

namespace Op

/-- The effects that an operation defines. -/
def effects : Op → List Effect
  | defineAction _ effects => effects
  | modifyAction _ _ newEffects? => newEffects?.getD []
  | _ => []

/-- The end conditions that an operation defines. -/
def endings : Op → List EndCondition
  | defineEvent _ _ _ ending => [ending]
  | _ => []

/-- The document that an operation loads. -/
def document? : Op → Option Document
  | load d => some d
  | _ => none

end Op

namespace RuleSet

/-- Whether the values of entities are finite, the effects of actions are as `P` says, and end
conditions as `E` says. -/
structure FiniteWith (P : Effect → Prop) (E : EndCondition → Prop) (w : RuleSet) : Prop where
  /-- Every effect is one of those. -/
  effects : ∀ a ∈ w.actions.rows, ∀ f ∈ a.effects, P f
  /-- The values of every entity are finite. -/
  entities : ∀ e ∈ w.entities.rows, e.IsFinite
  /-- Every end condition is one of those. -/
  endings : ∀ e ∈ w.events.rows, E e.ending

namespace FiniteWith

variable {P : Effect → Prop} {E : EndCondition → Prop} {w w' : RuleSet} {name : String}

theorem empty (name : String) : (RuleSet.empty name).FiniteWith P E where
  effects _ ha := absurd ha List.not_mem_nil
  entities _ he := absurd he List.not_mem_nil
  endings _ he := absurd he List.not_mem_nil

/-- **One step.** What an operation brings is all that can be new: the results of uses and runs are
finite. -/
theorem step {op : Op} (h : w.FiniteWith P E) (hstep : w.Step op w')
    (hP : ∀ f, P f → ∀ x ∈ f.amount.literals, x.isFinite = true)
    (heffects : ∀ f ∈ op.effects, w.checkEffect f = .ok () → P f) (hendings : ∀ e ∈ op.endings, E e)
    (hload : ∀ d ∈ op.document?, ∀ w', d.build = .ok w' → w'.FiniteWith P E) :
    w'.FiniteWith P E := by
  refine ⟨?_, fun e he ↦ ?_, ?_⟩
  · cases hstep with
    | defineAction _ hcheck =>
      refine Table.forall_mem_push h.effects fun f hf ↦ ?_
      exact heffects f hf ((checkEffects_eq_ok_iff.mp hcheck).2 f hf)
    | @modifyAction _ _ newEffects? old hold _ hcheck =>
      refine Table.forall_mem_adjust h.effects fun _ _ ↦ ?_
      cases newEffects? with
      | none => exact h.effects old (Table.get?_eq_some hold).1
      | some effects =>
        exact fun f hf ↦ heffects f hf ((checkEffects_eq_ok_iff.mp (hcheck effects rfl)).2 f hf)
    | removeAction => exact Table.forall_mem_without h.effects
    | @startEvent _ e _ _ _ =>
      obtain ⟨ms, e', hframe, -⟩ := w.played_frame e
      exact hframe ▸ h.effects
    | load hbuild => exact (hload _ rfl _ hbuild).effects
    | _ => exact h.effects
  · refine (hstep.forall_entities (S := fun slots ↦ ∀ s ∈ slots, s.value.isFinite = true)
      (A := fun _ ↦ True) (fun e he ↦ ⟨h.entities e he, trivial⟩) ?_ (fun _ ↦ trivial) ?_ ?_ e he).1
    · intro v slots slots' hcheck s hs
      obtain ⟨_, _, _, _, hfinite⟩ := (fits_of_checkSlots hcheck).2 s hs
      exact hfinite
    · exact fun a ha f hf ↦ f.preserves_isFinite (hP f (h.effects a ha f hf))
    · exact fun name _ kind _ _ _ _ e he ↦ Entity.IsFinite.relabel (h.entities e he) name kind
  · cases hstep with
    | defineEvent _ _ =>
      exact Table.forall_mem_push h.endings (hendings _ (List.mem_singleton_self _))
    | removeEvent => exact Table.forall_mem_without h.endings
    | @startEvent _ e hget _ _ =>
      obtain ⟨ms, e', hframe, hreset⟩ := w.played_frame e
      have hending : e'.ending = e.ending := (Event.reset_eq_reset_iff.mp hreset).2.2.2
      rw [hframe]
      refine Table.forall_mem_put h.endings ?_
      rw [hending]
      exact h.endings e (Table.get?_eq_some hget).1
    | resetEvent =>
      exact Table.forall_mem_adjust h.endings fun e he ↦ h.endings e (Table.get?_eq_some he).1
    | load hbuild => exact (hload _ rfl _ hbuild).endings
    | _ => exact h.endings

end FiniteWith

/-! ## What checks look at -/

section Checked

variable {w : RuleSet}

theorem isFinite_of_checkEffect {f : Effect} (h : w.checkEffect f = .ok ()) :
    ∀ x ∈ f.amount.literals, x.isFinite = true := by
  obtain ⟨target, -, -, hamount, -⟩ := checkEffect_eq_ok_iff.mp h
  cases hf : f.amount with
  | literal value =>
    rw [hf, checkAmount, check_bind_eq_ok_iff] at hamount
    exact Value.forall_numbers.mpr (Value.ensureFinite_eq_ok_iff.mp hamount.1)
  | drawn d => exact List.forall_mem_nil _

theorem Sound.isFinite_literals (h : w.Sound) :
    ∀ a ∈ w.actions.rows, ∀ f ∈ a.effects, ∀ x ∈ f.amount.literals, x.isFinite = true :=
  fun a ha f hf ↦ isFinite_of_checkEffect ((checkEffects_eq_ok_iff.mp (h.effects a ha)).2 f hf)

theorem Sound.isFinite_entities (h : w.Sound) : ∀ e ∈ w.entities.rows, e.IsFinite := by
  intro e he s hs
  obtain ⟨_, _, _, _, hfinite⟩ := (h.fits e he).slots s hs
  exact hfinite

/-- **Every run.** Whatever operations led to a rule set, its literal amounts are finite, and so are
the values of its entities. -/
theorem Reachable.finiteWith (h : w.Reachable) :
    w.FiniteWith (fun f ↦ ∀ x ∈ f.amount.literals, x.isFinite = true) fun _ ↦ True := by
  induction h with
  | empty name => exact .empty name
  | after op _ ih =>
    refine ih.step (step_after _ op) (fun _ hf ↦ hf)
      (fun _ _ hcheck ↦ isFinite_of_checkEffect hcheck) (fun _ _ ↦ trivial) fun d _ w' hbuild ↦ ?_
    have hsound := (Document.atRest_of_build hbuild).sound
    exact ⟨hsound.isFinite_literals, hsound.isFinite_entities, fun _ _ ↦ trivial⟩

theorem Reachable.isFinite_checked (h : w.Reachable) : ∀ x ∈ w.checked, x.isFinite = true := by
  have hfinite := h.finiteWith
  refine List.forall_mem_append.mpr ⟨?_, ?_⟩
  · exact List.forall_mem_flatMap.mpr fun a ha ↦ List.forall_mem_flatMap.mpr (hfinite.effects a ha)
  · exact List.forall_mem_flatMap.mpr fun e he ↦ List.forall_mem_flatMap.mpr fun s hs ↦
      Value.forall_numbers.mpr (hfinite.entities e he s hs)

/-- **Entities hold finite numbers.** Whatever operations led to a rule set, among them documents
with any numbers and kinds that changed under the values, no entity holds NaN or an infinity. -/
theorem finite_of_slot (h : w.Reachable) :
    ∀ e ∈ w.entities.rows, ∀ s ∈ e.slots, ∀ x : Number, s.value = .number x →
      Float.isNaN x = false ∧ Float.isInf x = false := by
  intro e he s hs x hx
  have hfinite : s.value.isFinite = true := h.finiteWith.entities e he s hs
  rw [hx] at hfinite
  exact Number.isFinite_iff.mp hfinite

/-- A kiln that Ann fires until it is too hot for a number. By then heat is a truth value, and what
she is left with is the number from before, under the kind of a text. -/
def kiln : RuleSet :=
  [.defineAttribute "heat" .number,
    .defineAction "fire" [⟨"heat", .user, .multiply, .literal (.number (.ofInt (10 ^ 200))), none⟩],
    .defineEntity "Ann" [⟨"heat", .number, .number (.ofInt 1)⟩] ["fire"],
    .defineEvent "firing" ["Ann"] [.act "Ann" "fire" [], .act "Ann" "fire" []] (.turnCount .ge 2),
    .startEvent "firing", .modifyAttribute "heat" none (some .text), .removeAttribute "heat",
    .defineAttribute "heat" .boolean, .useAction "Ann" "fire" []].foldl after (.empty "kiln")

theorem finite_of_slot_kiln :
    (kiln.Reachable ∧ kiln.entities.rows =
        [⟨"Ann", [⟨"heat", .text, .number (.ofInt (10 ^ 200))⟩], ["fire"]⟩]) ∧
      Float.isNaN (Number.ofInt (10 ^ 200)) = false ∧
      Float.isInf (Number.ofInt (10 ^ 200)) = false := by
  have hreachable : kiln.Reachable := .foldl_after (.empty "kiln") _
  have hrows : kiln.entities.rows =
      [⟨"Ann", [⟨"heat", .text, .number (.ofInt (10 ^ 200))⟩], ["fire"]⟩] := by decide +kernel
  exact ⟨⟨hreachable, hrows⟩,
    finite_of_slot hreachable _ (hrows ▸ List.mem_singleton_self _) _ (List.mem_singleton_self _)
      _ rfl⟩

end Checked

end RuleSet

/-! ## What no check looks at -/

/-- The numbers that an operation brings unchecked, and those of the document that it loads. -/
def Op.unchecked (op : Op) : List Number :=
  op.effects.flatMap Effect.unchecked ++ op.endings.flatMap EndCondition.numbers ++
    op.document?.toList.flatMap Document.numbers

namespace RuleSet

/-- The rule sets that operations lead to from empty ones, if all unchecked numbers are finite. -/
inductive Careful : RuleSet → Prop where
  /-- A new rule set. -/
  | empty (name : String) : Careful (.empty name)
  /-- One more operation, whether it succeeds or fails. -/
  | after {w : RuleSet} (op : Op) : Careful w → (∀ x ∈ op.unchecked, x.isFinite = true) →
      Careful (w.after op)

variable {w : RuleSet}

/-- All numbers of a rule set are finite when those of all effects, entities and end conditions
are. -/
theorem finiteWith_iff :
    w.FiniteWith
        (fun f ↦
          (∀ x ∈ f.amount.literals, x.isFinite = true) ∧ ∀ x ∈ f.unchecked, x.isFinite = true)
        (fun e ↦ ∀ x ∈ e.numbers, x.isFinite = true) ↔
      ∀ x ∈ w.document.numbers, x.isFinite = true := by
  simp only [Document.forall_numbers_document, checked, unchecked, List.forall_mem_append,
    List.forall_mem_flatMap, Value.forall_numbers]
  constructor
  · rintro ⟨heffects, hentities, hendings⟩
    exact ⟨⟨fun a ha f hf ↦ (heffects a ha f hf).1, hentities⟩,
      fun a ha f hf ↦ (heffects a ha f hf).2, hendings⟩
  · rintro ⟨⟨hliterals, hentities⟩, hunchecked, hendings⟩
    exact ⟨fun a ha f hf ↦ ⟨hliterals a ha f hf, hunchecked a ha f hf⟩, hentities, hendings⟩

theorem Careful.foldl_after (h : w.Careful) {ops : List Op}
    (hops : ∀ op ∈ ops, ∀ x ∈ op.unchecked, x.isFinite = true) :
    (ops.foldl RuleSet.after w).Careful := by
  induction ops generalizing w with
  | nil => exact h
  | cons op ops ih =>
    obtain ⟨hop, hops⟩ := List.forall_mem_cons.mp hops
    exact ih (.after op h hop) hops

/-- **Every careful run.** If operations bring finite numbers only, all numbers are finite. -/
theorem Careful.isFinite (h : w.Careful) : ∀ x ∈ w.document.numbers, x.isFinite = true := by
  refine finiteWith_iff.mp ?_
  induction h with
  | empty name => exact .empty name
  | after op _ hop ih =>
    obtain ⟨hnew, hdocument⟩ := List.forall_mem_append.mp hop
    obtain ⟨heffects, hendings⟩ := List.forall_mem_append.mp hnew
    refine ih.step (step_after _ op) (fun _ hf ↦ hf.1)
      (fun f hf hcheck ↦ ⟨isFinite_of_checkEffect hcheck, List.forall_mem_flatMap.mp heffects f hf⟩)
      (List.forall_mem_flatMap.mp hendings) fun d hd w' hbuild ↦ finiteWith_iff.mpr ?_
    rw [Document.document_of_build hbuild, Document.numbers_normal]
    exact List.forall_mem_flatMap.mp hdocument d (Option.mem_toList.mpr hd)

/-- The numbers written as `null` are those that are not finite. -/
theorem toJson_eq_null_iff {x : Number} : x.toJson = .null ↔ x.isFinite = false := by
  refine ⟨fun h ↦ ?_, fun h ↦ Number.toJson_eq_null (by simp [h])⟩
  by_contra hfinite
  rw [Number.toJson] at h
  split at h
  · split at h <;> exact absurd h (by simp)
  · exact absurd h (by simp [hfinite])

/-- **Saved texts and infinite numbers.** Whatever led to a rule set, the numbers that checks look
at are finite. So `null` stands for a number in the saved text exactly when an unchecked number is
not finite; and exactly then the text cannot be read, as far as its fractions are read back. -/
theorem saved_text_readable (h : w.Reachable) :
    (∀ x ∈ w.checked, x.isFinite = true) ∧
      ((∃ x ∈ w.document.numbers, x.toJson = .null) ↔ ∃ x ∈ w.unchecked, x.isFinite = false) ∧
      ((∀ x ∈ w.document.numbers, x.ReadsBack) →
        ((∃ d, Document.ofText w.document.print = .ok d) ↔
          ∀ x ∈ w.unchecked, x.isFinite = true)) := by
  have hnumbers : (∀ x ∈ w.document.numbers, x.isFinite = true) ↔
      ∀ x ∈ w.unchecked, x.isFinite = true :=
    Document.forall_numbers_document.trans (and_iff_right h.isFinite_checked)
  refine ⟨h.isFinite_checked, ?_, fun hreads ↦ ⟨?_, fun hunchecked ↦ ?_⟩⟩
  · simp only [toJson_eq_null_iff]
    simpa using not_congr hnumbers
  · rintro ⟨d, hd⟩
    exact hnumbers.mp (Document.isFinite_of_ofText_print hd)
  · exact ⟨_, Document.ofText_print fun x hx ↦ (hreads x hx).isKept (hnumbers.mpr hunchecked x hx)⟩

/-- A furnace that is stoked with so much heat. -/
def furnace (heat : Number) : RuleSet :=
  [.defineAttribute "heat" .number,
    .defineAction "stoke"
      [⟨"heat", .user, .add, .drawn ⟨"heat", .user, .add, heat, none⟩,
        some ⟨"heat", .user, .lt, .number (.ofInt 900)⟩⟩],
    .defineEntity "Ann" [⟨"heat", .number, .number (.ofInt 20)⟩] ["stoke"]].foldl after
    (.empty "furnace")

theorem saved_text_readable_furnace :
    ((furnace (.ofInt 5)).Reachable ∧ (furnace (.ofInt 5)).Careful ∧
        ∀ x ∈ (furnace (.ofInt 5)).document.numbers, x.ReadsBack) ∧
      (∀ x ∈ (furnace (.ofInt 5)).checked, x.isFinite = true) ∧
      ∃ d, Document.ofText (furnace (.ofInt 5)).document.print = .ok d := by
  have hreachable : (furnace (.ofInt 5)).Reachable := .foldl_after (.empty "furnace") _
  have hcareful : (furnace (.ofInt 5)).Careful :=
    .foldl_after (.empty "furnace") (by decide +kernel)
  have hreads : ∀ x ∈ (furnace (.ofInt 5)).document.numbers, x.ReadsBack := by
    have hscaled : ∀ x ∈ (furnace (.ofInt 5)).document.numbers, x.document.scaled? = some x := by
      decide +kernel
    exact fun x hx _ ↦ hscaled x hx
  obtain ⟨hchecked, -, hreadable⟩ := saved_text_readable hreachable
  have hunchecked := (Document.forall_numbers_document.mp hcareful.isFinite).2
  exact ⟨⟨hreachable, hcareful, hreads⟩, hchecked, (hreadable hreads).mpr hunchecked⟩

/-- An infinite operand gets in, is written as `null`, and then the text is refused. -/
theorem saved_text_furnace :
    (furnace (.infinity false)).Reachable ∧
      (∃ x ∈ (furnace (.infinity false)).document.numbers, x.isFinite = false ∧ x.toJson = .null) ∧
      ∀ d, Document.ofText (furnace (.infinity false)).document.print ≠ .ok d := by
  have hinfinite : ∃ x ∈ (furnace (.infinity false)).document.numbers, x.isFinite = false := by
    decide +kernel
  obtain ⟨x, hx, hx'⟩ := hinfinite
  refine ⟨.foldl_after (.empty "furnace") _, ⟨x, hx, hx', toJson_eq_null_iff.mpr hx'⟩,
    fun d hd ↦ ?_⟩
  have hfinite := Document.isFinite_of_ofText_print hd x hx
  exact absurd (hx'.symm.trans hfinite) (by simp)

end RuleSet

end Tabletop
