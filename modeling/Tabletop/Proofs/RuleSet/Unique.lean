import Tabletop.Proofs.RuleSet.Names

/-!
# One row of a name

Look-ups, changes and removals go by name, and they take the first row that has it. Nothing in a
table says that there is no second one, which would be shadowed by the first and could not be
reached any more. But no two rows of a table get one name, and inside an entity no two slots get one
attribute, and no action is listed twice. So whatever goes by name acts on the one row that has it,
and on nothing else, wherever the row stands (`rows_by_name`).
-/

namespace Tabletop

/-! ## The only one of its key -/

section Key

variable {α : Type} {k : α → String} {before after : List α} {a : α}

/-- With unique keys no other member has the key of a member. -/
theorem alone_of_nodup (h : ((before ++ a :: after).map k).Nodup) :
    ∀ b ∈ before ++ after, k b ≠ k a := by
  have hperm : ((before ++ a :: after).map k).Perm (k a :: (before ++ after).map k) :=
    List.perm_middle.map k
  obtain ⟨hnot, -⟩ := List.nodup_cons.mp (hperm.nodup_iff.mp h)
  intro b hb hkey
  exact hnot (hkey ▸ List.mem_map_of_mem hb)

variable (h : ∀ b ∈ before ++ after, k b ≠ k a)

include h

theorem not_beq_of_alone : ∀ b ∈ before, ¬(k b == k a) = true :=
  fun b hb ↦ mt eq_of_beq (h b (List.mem_append_left after hb))

theorem find?_of_alone : (before ++ a :: after).find? (k · == k a) = some a := by
  refine List.find?_eq_some_iff_append.mpr ⟨beq_self_eq_true _, before, after, rfl, fun b hb ↦ ?_⟩
  simpa using not_beq_of_alone h b hb

theorem changeFirst_of_alone (f : α → α) :
    changeFirst (k · == k a) f (before ++ a :: after) = before ++ f a :: after :=
  changeFirst_append_cons (not_beq_of_alone h) (beq_self_eq_true _)

theorem eraseP_of_alone : (before ++ a :: after).eraseP (k · == k a) = before ++ after := by
  rw [List.eraseP_append_right _ (not_beq_of_alone h)]
  exact congrArg (before ++ ·) (List.eraseP_cons_of_pos (beq_self_eq_true _))

end Key

/-! ## Rows that are reached by name -/

/-- Whether a row of a table, with its place, is what every operation under its name acts on. -/
structure Table.Reaches {α : Type} [Named α] (t : Table α) (before : List α) (row : α)
    (after : List α) : Prop where
  /-- No other row has the name. -/
  alone : ∀ r ∈ before ++ after, Named.name r ≠ Named.name row
  /-- The row is found. -/
  get? : t.get? (Named.name row) = some row
  /-- The row is changed in its place. -/
  adjust : ∀ f : α → α,
    t.adjust (Named.name row) f = { t with rows := before ++ f row :: after }
  /-- Another row of the name takes its place. -/
  replace : ∀ row' : α, Named.name row' = Named.name row →
    t.replace row' = .ok { t with rows := before ++ row' :: after }
  /-- The row is taken out. -/
  remove : t.remove (Named.name row) = .ok (row, { t with rows := before ++ after })

/-- Whether every row of a table is reached by its name. -/
def Table.ByName {α : Type} [Named α] (t : Table α) : Prop :=
  ∀ before row after, t.rows = before ++ row :: after → t.Reaches before row after

theorem Table.byName_of_nodup {α : Type} [Named α] {t : Table α} (ht : t.names.Nodup) :
    t.ByName := by
  intro before row after hrows
  rw [names, hrows] at ht
  have halone := alone_of_nodup ht
  have hget : t.get? (Named.name row) = some row := by
    rw [Table.get?, hrows, find?_of_alone halone]
  have hadjust (f : α → α) :
      t.adjust (Named.name row) f = { t with rows := before ++ f row :: after } := by
    rw [Table.adjust, hrows, changeFirst_of_alone halone]
  refine ⟨halone, hget, hadjust, fun row' hname ↦ ?_, ?_⟩
  · rw [replace_eq_ok_iff, hname, put, hname, hadjust]
    exact ⟨mem_names_of_get? hget, rfl⟩
  · rw [remove_eq_ok_iff, without, hrows, eraseP_of_alone halone]
    exact ⟨hget, rfl⟩

/-- Whether a slot of an entity, with its place, is what is read and written under its attribute. -/
structure Entity.Reaches (e : Entity) (before : List Slot) (s : Slot) (after : List Slot) :
    Prop where
  /-- No other slot has the attribute. -/
  alone : ∀ r ∈ before ++ after, r.attr ≠ s.attr
  /-- The slot is found. -/
  slot? : e.slot? s.attr = some s
  /-- Another value is put into the slot. -/
  put : ∀ value, e.put s.attr value = { e with slots := before ++ { s with value } :: after }
  /-- Another kind is recorded in the slot. -/
  relabel : ∀ kind, e.relabel s.attr kind = { e with slots := before ++ { s with kind } :: after }

/-- Whether every slot of an entity is reached by its attribute. -/
def Entity.ByAttr (e : Entity) : Prop :=
  ∀ before s after, e.slots = before ++ s :: after → e.Reaches before s after

theorem Entity.byAttr_of_nodup {e : Entity} (he : e.attrs.Nodup) : e.ByAttr := by
  intro before s after hslots
  rw [attrs, hslots] at he
  have halone := alone_of_nodup he
  refine ⟨halone, ?_, fun value ↦ ?_, fun kind ↦ ?_⟩
  · rw [Entity.slot?, hslots, find?_of_alone halone]
  · rw [Entity.put, hslots, changeFirst_of_alone halone]
  · rw [Entity.relabel, hslots, changeFirst_of_alone halone]

/-! ## What operations lead to -/

namespace RuleSet

variable {w : RuleSet}

/-- **Every run.** Whatever operations led to a rule set, no entity has two slots of one attribute,
nor one action twice. -/
theorem Reachable.nodup_inside (h : w.Reachable) :
    ∀ e ∈ w.entities.rows, e.attrs.Nodup ∧ e.actions.Nodup := by
  induction h with
  | empty name => exact fun e he ↦ absurd he List.not_mem_nil
  | @after w op _ ih =>
    refine (step_after w op).forall_entities (S := fun slots ↦ (slots.map Slot.attr).Nodup) ih ?_
      nodup_eraseDups ?_ ?_
    · exact fun _ _ _ hslots ↦ (fits_of_checkSlots hslots).1
    · intro _ _ f _ _ _ _ m s after hm _ _ _
      exact (congrArg List.Nodup (m.attrs_put f.attr after)).mpr hm
    · intro name _ kind _ _ _ _ e he
      exact (congrArg List.Nodup (e.attrs_relabel name kind)).mpr (ih e he).1

/-- **Names are unique, and reach their rows.** Whatever operations led to a rule set, no two rows
of a table have one name, no entity has two slots of one attribute, and none has one action twice.
So what goes by name acts on the one row that has it. -/
theorem rows_by_name (h : w.Reachable) :
    (∀ kind, (w.namesOf kind).Nodup) ∧
      (∀ e ∈ w.entities.rows, e.attrs.Nodup ∧ e.actions.Nodup) ∧
      w.attributes.ByName ∧ w.actions.ByName ∧ w.entities.ByName ∧ w.events.ByName ∧
      ∀ e ∈ w.entities.rows, e.ByAttr := by
  have hinside := h.nodup_inside
  refine ⟨h.distinct, hinside, ?_, ?_, ?_, ?_, fun e he ↦ Entity.byAttr_of_nodup (hinside e he).1⟩
  · exact Table.byName_of_nodup (h.distinct .attr)
  · exact Table.byName_of_nodup (h.distinct .action)
  · exact Table.byName_of_nodup (h.distinct .entity)
  · exact Table.byName_of_nodup (h.distinct .event)

/-- A crew in which Dan was Bob before, asked for his actions with one of them twice, and stands
between two others. -/
def crew : RuleSet :=
  [.defineAttribute "age" .number, .defineAttribute "pay" .number,
    .defineAction "sail" [⟨"pay", .user, .add, .literal (.number (.ofInt 1)), none⟩],
    .defineEntity "Ann" [] [],
    .defineEntity "Bob" [⟨"age", .number, .number (.ofInt 30)⟩, ⟨"pay", .number, .number (.ofInt 2)⟩]
      ["sail", "sail"],
    .defineEntity "Cid" [] [], .modifyEntity "Bob" (some "Dan") none none,
    .modifyEntity "Ann" (some "Dan") none none].foldl after (.empty "crew")

theorem rows_by_name_crew :
    crew.Reachable ∧
      crew.entities.Reaches [⟨"Ann", [], []⟩]
        ⟨"Dan", [⟨"age", .number, .number (.ofInt 30)⟩, ⟨"pay", .number, .number (.ofInt 2)⟩],
          ["sail"]⟩ [⟨"Cid", [], []⟩] := by
  have hreachable : crew.Reachable := .foldl_after (.empty "crew") _
  obtain ⟨-, -, -, -, hentities, -⟩ := rows_by_name hreachable
  exact ⟨hreachable, hentities _ _ _ (by decide +kernel)⟩

end RuleSet

end Tabletop
