import Tabletop.Proofs.RuleSet.Names

/-!
# Kinds that are recorded

A slot records a kind beside its value, and nothing looks at the two together again once they are
put in. They go together when the slot is checked. Assignments ask the recorded kind, not the
attribute, and arithmetic does not ask at all, but it starts from a number and ends with one. So it
does not matter what becomes of attributes, with one exception: when an attribute gets another kind,
the slots of that name record it, whatever they hold (`kindCorrect_after_iff`). Then a slot may say
text and hold a number.
-/

namespace Tabletop

/-- Whether all slots hold values that their recorded kinds accept. -/
def Slot.Agree (slots : List Slot) : Prop := ∀ s ∈ slots, s.kind.accepts s.value = true

namespace Slot.Agree

theorem of_checkSlots {w : RuleSet} {slots slots' : List Slot}
    (h : w.checkSlots slots = .ok slots') : Agree slots' := by
  intro s hs
  obtain ⟨a, -, hkind, haccepts, -⟩ := (RuleSet.fits_of_checkSlots h).2 s hs
  rw [hkind]
  exact haccepts

/-- What an effect writes is accepted by the recorded kind, whether the effect was checked or
not. -/
theorem preserves (f : Effect) : f.Preserves fun m ↦ Agree m.slots := by
  intro user target amount m s after hm _ hs hafter
  refine forall_mem_changeFirst hm fun s' hs' ↦ ?_
  obtain rfl : s' = s := Option.some.inj (hs'.symm.trans hs)
  exact Modifier.accepts_of_apply hafter (hm s' (List.mem_of_find?_eq_some hs))

/-- A slot may record another kind exactly when that accepts what the slot holds. -/
theorem relabel_iff {e : Entity} {attr : String} {kind : Kind} (h : Agree e.slots) :
    Agree (e.relabel attr kind).slots ↔ ∀ v, e.value? attr = some v → kind.accepts v = true := by
  constructor
  · intro hrelabel v hv
    obtain ⟨s, hs, rfl⟩ := Option.map_eq_some_iff.mp hv
    have hslot : (e.relabel attr kind).slot? attr = (e.slot? attr).map fun s ↦ { s with kind } :=
      find?_changeFirst_self e.slots fun _ hs ↦ hs
    rw [hs] at hslot
    exact hrelabel _ (List.mem_of_find?_eq_some hslot)
  · intro haccepts
    refine forall_mem_changeFirst h fun s hs ↦ ?_
    exact haccepts s.value (Option.map_eq_some_iff.mpr ⟨s, hs, rfl⟩)

end Slot.Agree

namespace RuleSet

variable {w : RuleSet}

/-- Whether every slot of every entity records a kind that accepts its value. -/
def KindCorrect (w : RuleSet) : Prop := ∀ e ∈ w.entities.rows, Slot.Agree e.slots

instance : DecidablePred KindCorrect := fun w ↦
  inferInstanceAs (Decidable (∀ e ∈ w.entities.rows, ∀ s ∈ e.slots, s.kind.accepts s.value = true))

end RuleSet

/-- Whether an operation, performed on a rule set, gives an attribute a kind that does not accept
what some entity holds under that name. -/
def Op.Mislabels (op : Op) (w : RuleSet) : Prop :=
  ∃ name newName? kind, op = modifyAttribute name newName? (some kind) ∧ op.Succeeds w ∧
    ∃ e ∈ w.entities.rows, ∃ v, e.value? name = some v ∧ kind.accepts v = false

theorem Op.succeeds_modifyAttribute {w : RuleSet} {name : String} {newName? : Option String}
    {newKind? : Option Kind} {old : AttributeDef} (hold : w.attributes.get? name = some old)
    (hnew : ∀ n ∈ newName?, n ≠ name → n ∉ w.attributes.names) :
    (modifyAttribute name newName? newKind?).Succeeds w := by
  refine ⟨⟨newName?.getD old.name, newKind?.getD old.kind⟩, ?_⟩
  exact congrArg Prod.fst
    (RuleSet.perform_modifyAttribute_eq_ok_iff.mpr ⟨old, hold, hnew, rfl, rfl⟩)

namespace RuleSet

/-- **One step.** Recorded kinds stay right, unless the operation is the exception. -/
theorem KindCorrect.after (hw : w.KindCorrect) {op : Op} (hop : ¬op.Mislabels w) :
    (w.after op).KindCorrect := by
  intro e he
  refine ((step_after w op).forall_entities (A := fun _ ↦ True) (fun e he ↦ ⟨hw e he, trivial⟩)
    (fun _ _ _ ↦ Slot.Agree.of_checkSlots) (fun _ ↦ trivial)
    (fun _ _ f _ ↦ Slot.Agree.preserves f) ?_ e he).1
  rintro name newName? kind old rfl hold hnew e he
  refine (Slot.Agree.relabel_iff (hw e he)).mpr fun v hv ↦ ?_
  -- what the new kind refuses would make the exception
  by_contra hrefuses
  exact hop ⟨name, newName?, kind, rfl, Op.succeeds_modifyAttribute hold hnew, e, he, v, hv,
    eq_false_of_ne_true hrefuses⟩

/-- **Every run.** Recorded kinds are right after operations of which none is the exception, when it
comes to it. -/
theorem KindCorrect.foldl_after (hw : w.KindCorrect) {ops : List Op}
    (hops : ∀ before op rest, ops = before ++ op :: rest →
      ¬op.Mislabels (before.foldl RuleSet.after w)) :
    (ops.foldl RuleSet.after w).KindCorrect := by
  induction ops generalizing w with
  | nil => exact hw
  | cons op ops ih =>
    refine ih (hw.after (hops [] op ops rfl)) fun before op' rest hsplit ↦ ?_
    exact hops (op :: before) op' rest (congrArg (op :: ·) hsplit)

/-- **Recorded kinds accept the values beside them, with one exception.** An operation makes a
recorded kind wrong exactly when it succeeds in giving an attribute a kind that does not accept what
some entity holds. Where that is so, the result is wrong. -/
theorem kindCorrect_after_iff (hw : w.KindCorrect) (op : Op) :
    (w.after op).KindCorrect ↔ ¬op.Mislabels w := by
  refine ⟨?_, hw.after⟩
  rintro hafter ⟨name, newName?, kind, rfl, ⟨row, hrow⟩, e, he, v, hv, hrefuses⟩
  obtain ⟨old, -, -, -, hresult⟩ := perform_modifyAttribute_eq_ok_iff.mp (Prod.ext hrow rfl)
  have hrows : (w.after (.modifyAttribute name newName? (some kind))).entities.rows =
      w.entities.rows.map (·.relabel name kind) :=
    congrArg (fun w' ↦ w'.entities.rows) hresult
  have hagree := hafter (e.relabel name kind) (hrows ▸ List.mem_map_of_mem he)
  have haccepts := (Slot.Agree.relabel_iff (hw e he)).mp hagree v hv
  exact Bool.false_ne_true (hrefuses.symm.trans haccepts)

/-- A school where marks are texts by now, but Ann still has the number from when they were
numbers. -/
def school : RuleSet :=
  [.defineAttribute "mark" .number, .defineEntity "Ann" [⟨"mark", .number, .number (.ofInt 2)⟩] [],
    .removeAttribute "mark", .defineAttribute "mark" .text].foldl after (.empty "school")

theorem kindCorrect_after_iff_school :
    school.KindCorrect ∧
      ¬(school.after (.modifyAttribute "mark" (some "grade") (some .text))).KindCorrect ∧
      ¬(Op.modifyAttribute "mark" (some "grade") (some .percent)).Mislabels school := by
  have hschool : school.KindCorrect := by decide +kernel
  have hAnn : ⟨"Ann", [⟨"mark", .number, .number (.ofInt 2)⟩], []⟩ ∈ school.entities.rows := by
    decide +kernel
  have hmark : school.attributes.get? "mark" = some ⟨"mark", .text⟩ := by decide +kernel
  have hgrade : ∀ n ∈ some "grade", n ≠ "mark" → n ∉ school.attributes.names := by
    intro n hn _
    obtain rfl := Option.some.inj hn
    decide +kernel
  refine ⟨hschool, fun hafter ↦ ?_, ?_⟩
  · -- grades are texts, and Ann has none
    exact (kindCorrect_after_iff hschool _).mp hafter ⟨"mark", some "grade", .text, rfl,
      Op.succeeds_modifyAttribute hmark hgrade, _, hAnn, _, rfl, rfl⟩
  · exact (kindCorrect_after_iff hschool _).mp (by decide +kernel)

end RuleSet

end Tabletop
