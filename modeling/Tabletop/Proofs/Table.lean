import Tabletop.Proofs.Checks
import Tabletop.Table

/-!
# The laws of tables

A table is searched from the front, so its operations are described by what they do to the first
row of a name. The names of the rows, in order, say which operations succeed; a change that keeps
the name of its row keeps all of them, and then look-ups of other names do not notice it.

None of these laws asks for unique names. Uniqueness says that the first row of a name is the only
one, and is kept by inserting because inserting asks for a vacant name.
-/

namespace Tabletop

variable {α β : Type}

/-! ## Changing the first row that fits -/

section ChangeFirst

variable {p q : α → Bool} {f g : α → α}

theorem changeFirst_cons_of_pos {a : α} {as : List α} (h : p a = true) :
    changeFirst p f (a :: as) = f a :: as := by
  rw [changeFirst, if_pos h]

theorem changeFirst_cons_of_neg {a : α} {as : List α} (h : ¬p a = true) :
    changeFirst p f (a :: as) = a :: changeFirst p f as := by
  rw [changeFirst, if_neg h]

theorem forall_mem_changeFirst {P : α → Prop} {as : List α} (has : ∀ a ∈ as, P a)
    (hf : ∀ a, as.find? p = some a → P (f a)) : ∀ a ∈ changeFirst p f as, P a := by
  induction as with
  | nil => exact has
  | cons a as ih =>
    obtain ⟨ha, has⟩ := List.forall_mem_cons.mp has
    by_cases hp : p a = true
    · rw [changeFirst_cons_of_pos hp, List.forall_mem_cons]
      exact ⟨hf a (List.find?_cons_of_pos hp), has⟩
    · rw [changeFirst_cons_of_neg hp, List.forall_mem_cons]
      exact ⟨ha, ih has fun b hb ↦ hf b (by rw [List.find?_cons_of_neg hp, hb])⟩

theorem map_changeFirst (k : α → β) (as : List α) (hf : ∀ a, p a = true → k (f a) = k a) :
    (changeFirst p f as).map k = as.map k := by
  induction as with
  | nil => rfl
  | cons a as ih =>
    by_cases hp : p a = true
    · rw [changeFirst_cons_of_pos hp, List.map_cons, List.map_cons, hf a hp]
    · rw [changeFirst_cons_of_neg hp, List.map_cons, List.map_cons, ih]

theorem find?_changeFirst_self (as : List α) (hf : ∀ a, p a = true → p (f a) = true) :
    (changeFirst p f as).find? p = (as.find? p).map f := by
  induction as with
  | nil => rfl
  | cons a as ih =>
    by_cases hp : p a = true
    · rw [changeFirst_cons_of_pos hp, List.find?_cons_of_pos (hf a hp), List.find?_cons_of_pos hp,
        Option.map_some]
    · rw [changeFirst_cons_of_neg hp, List.find?_cons_of_neg hp, List.find?_cons_of_neg hp, ih]

theorem find?_changeFirst_of_disjoint (as : List α)
    (h : ∀ a, p a = true → ¬q a = true ∧ ¬q (f a) = true) :
    (changeFirst p f as).find? q = as.find? q := by
  induction as with
  | nil => rfl
  | cons a as ih =>
    by_cases hp : p a = true
    · rw [changeFirst_cons_of_pos hp, List.find?_cons_of_neg (h a hp).1,
        List.find?_cons_of_neg (h a hp).2]
    · rw [changeFirst_cons_of_neg hp]
      by_cases hq : q a = true
      · rw [List.find?_cons_of_pos hq, List.find?_cons_of_pos hq]
      · rw [List.find?_cons_of_neg hq, List.find?_cons_of_neg hq, ih]

/-- The first member that fits is changed wherever it stands. -/
theorem changeFirst_append_cons {before after : List α} {a : α} (hbefore : ∀ b ∈ before, ¬p b = true)
    (ha : p a = true) : changeFirst p f (before ++ a :: after) = before ++ f a :: after := by
  induction before with
  | nil => exact changeFirst_cons_of_pos ha
  | cons b before ih =>
    obtain ⟨hb, hbefore⟩ := List.forall_mem_cons.mp hbefore
    rw [List.cons_append, changeFirst_cons_of_neg hb, ih hbefore, List.cons_append]

/-- If a key tells the members apart, changing the first of a key is changing every one of it. -/
theorem changeFirst_eq_map [BEq β] [LawfulBEq β] {k : α → β} {x : β} {as : List α}
    (has : (as.map k).Nodup) :
    changeFirst (k · == x) f as = as.map fun a ↦ if k a == x then f a else a := by
  induction as with
  | nil => rfl
  | cons a as ih =>
    obtain ⟨ha, has⟩ := List.nodup_cons.mp has
    by_cases hx : (k a == x) = true
    · -- behind the first one of its key there is no other
      have hrest : as.map (fun a ↦ if k a == x then f a else a) = as := by
        refine (List.map_congr_left fun b hb ↦ ?_).trans as.map_id
        have hne : ¬(k b == x) = true := fun hbx ↦
          ha (eq_of_beq hx ▸ eq_of_beq hbx ▸ List.mem_map_of_mem hb)
        rw [if_neg hne, id]
      rw [changeFirst, if_pos hx, List.map_cons, if_pos hx, hrest]
    · rw [changeFirst, if_neg hx, List.map_cons, if_neg hx, ih has]

/-- Two changes of one row are one change. -/
theorem changeFirst_changeFirst (as : List α) (hf : ∀ a, p a = true → p (f a) = true) :
    changeFirst p g (changeFirst p f as) = changeFirst p (g ∘ f) as := by
  induction as with
  | nil => rfl
  | cons a as ih =>
    by_cases hp : p a = true
    · rw [changeFirst_cons_of_pos hp, changeFirst_cons_of_pos hp, changeFirst_cons_of_pos (hf a hp),
        Function.comp_apply]
    · rw [changeFirst_cons_of_neg hp, changeFirst_cons_of_neg hp, changeFirst_cons_of_neg hp, ih]

/-- Changes of different rows may be made in either order. -/
theorem changeFirst_comm (as : List α) (hf : ∀ a, p a = true → ¬q a = true ∧ ¬q (f a) = true)
    (hg : ∀ a, q a = true → ¬p a = true ∧ ¬p (g a) = true) :
    changeFirst p f (changeFirst q g as) = changeFirst q g (changeFirst p f as) := by
  induction as with
  | nil => rfl
  | cons a as ih =>
    by_cases hp : p a = true
    · rw [changeFirst_cons_of_neg (hf a hp).1, changeFirst_cons_of_pos hp,
        changeFirst_cons_of_pos hp, changeFirst_cons_of_neg (hf a hp).2]
    · rw [changeFirst_cons_of_neg hp]
      by_cases hq : q a = true
      · rw [changeFirst_cons_of_pos hq, changeFirst_cons_of_pos hq,
          changeFirst_cons_of_neg (hg a hq).2]
      · rw [changeFirst_cons_of_neg hq, changeFirst_cons_of_neg hq, changeFirst_cons_of_neg hp, ih]

@[simp] theorem changeFirst_id (as : List α) : changeFirst p id as = as := by
  induction as with
  | nil => rfl
  | cons a as ih =>
    by_cases hp : p a = true
    · rw [changeFirst_cons_of_pos hp, id]
    · rw [changeFirst_cons_of_neg hp, ih]

/-- Only the row that is found is changed, so it is enough to know what becomes of it. -/
theorem changeFirst_congr {as : List α} (h : ∀ a, as.find? p = some a → f a = g a) :
    changeFirst p f as = changeFirst p g as := by
  induction as with
  | nil => rfl
  | cons a as ih =>
    by_cases hp : p a = true
    · rw [changeFirst_cons_of_pos hp, changeFirst_cons_of_pos hp,
        h a (List.find?_cons_of_pos hp)]
    · rw [changeFirst_cons_of_neg hp, changeFirst_cons_of_neg hp,
        ih fun b hb ↦ h b (by rw [List.find?_cons_of_neg hp, hb])]

end ChangeFirst

namespace Table

variable {t t' : Table α} {row : α} {name name' : String}

/-- The table with one more row at the end. -/
def push (t : Table α) (row : α) : Table α := { t with rows := t.rows ++ [row] }

@[simp] theorem rows_push : (t.push row).rows = t.rows ++ [row] := rfl

theorem forall_mem_push {P : α → Prop} (ht : ∀ a ∈ t.rows, P a) (h : P row) :
    ∀ a ∈ (t.push row).rows, P a := by
  intro a ha
  rcases List.mem_append.mp ha with ha | ha
  · exact ht a ha
  · exact List.mem_singleton.mp ha ▸ h

variable [Named α]

/-! ## Names -/

/-- The names of the rows, in their order. -/
def names (t : Table α) : List String := t.rows.map Named.name

/-- A name that stands in front of others is not among those that stand before it. -/
theorem name_not_mem_of_nodup {before after : List α} (h : t.names.Nodup)
    (hrows : t.rows = before ++ row :: after) : Named.name row ∉ before.map Named.name := by
  rw [names, hrows, List.map_append, List.map_cons] at h
  intro hmem
  exact (List.nodup_append.mp h).2.2 _ hmem _ List.mem_cons_self rfl

theorem get?_eq_some (h : t.get? name = some row) : row ∈ t.rows ∧ Named.name row = name :=
  ⟨List.mem_of_find?_eq_some h, by simpa using List.find?_some h⟩

theorem get?_eq_none_iff : t.get? name = none ↔ name ∉ t.names := by
  simp [get?, names, List.find?_eq_none]

theorem contains_iff : t.contains name = true ↔ name ∈ t.names := by
  rw [contains, Option.isSome_iff_ne_none, ne_eq, get?_eq_none_iff, not_not]

theorem contains_of_get? (h : t.get? name = some row) : t.contains name = true := by
  rw [contains, h, Option.isSome_some]

theorem mem_names_of_get? (h : t.get? name = some row) : name ∈ t.names :=
  contains_iff.mp (contains_of_get? h)

/-- With unique names every row is found under its name. -/
theorem get?_of_mem (ht : t.names.Nodup) (h : row ∈ t.rows) :
    t.get? (Named.name row) = some row := by
  rcases t with ⟨kind, rows⟩
  induction rows with
  | nil => exact absurd h List.not_mem_nil
  | cons a rows ih =>
    obtain ⟨ha, hrows⟩ := List.nodup_cons.mp ht
    rcases List.mem_cons.mp h with rfl | h
    · exact List.find?_cons_of_pos (by simp)
    · have hne : ¬(Named.name a == Named.name row) = true := by
        intro hc
        exact ha (eq_of_beq hc ▸ List.mem_map_of_mem h)
      exact (List.find?_cons_of_neg (p := (Named.name · == Named.name row)) hne).trans
        (ih hrows h)

/-- With unique names, a look-up does not depend on where the rows stand. -/
theorem get?_eq_of_perm (ht : t.names.Nodup) (h : t.rows.Perm t'.rows) :
    t'.get? name = t.get? name := by
  have hnames : t.names.Perm t'.names := h.map Named.name
  cases hrow : t.get? name with
  | none =>
    rw [get?_eq_none_iff] at hrow ⊢
    exact mt hnames.mem_iff.mpr hrow
  | some row =>
    obtain ⟨hmem, rfl⟩ := get?_eq_some hrow
    exact get?_of_mem (hnames.nodup_iff.mp ht) (h.mem_iff.mp hmem)

/-! ## Checks -/

theorem get_eq_ok_iff : t.get name = .ok row ↔ t.get? name = some row := need_eq_ok_iff

theorem ensureVacant_eq_ok_iff {u : Unit} : t.ensureVacant name = .ok u ↔ name ∉ t.names := by
  rw [ensureVacant, require_eq_ok_iff, Bool.not_eq_true', ← Bool.not_eq_true, contains_iff]

theorem ensureRenamable_eq_ok_iff {newName? : Option String} {u : Unit} :
    t.ensureRenamable name newName? = .ok u ↔ ∀ n ∈ newName?, n ≠ name → n ∉ t.names := by
  rw [ensureRenamable, option_forM_eq_ok_iff]
  simp only [ensureVacant_eq_ok_iff, Option.mem_def, Option.filter_eq_some_iff, bne_iff_ne, and_imp]

/-! ## Inserting -/

@[simp] theorem names_push : (t.push row).names = t.names ++ [Named.name row] := by
  simp [names]

theorem insert_eq_ok_iff :
    t.insert row = .ok t' ↔ Named.name row ∉ t.names ∧ t' = t.push row := by
  rw [insert, bind_eq_ok_iff]
  simp only [ensureVacant_eq_ok_iff, pure_eq_ok_iff, exists_const]
  exact and_congr_right fun _ ↦ eq_comm

theorem nodup_names_push (ht : t.names.Nodup) (h : Named.name row ∉ t.names) :
    (t.push row).names.Nodup := by
  rw [names_push]
  exact List.nodup_append.mpr ⟨ht, List.nodup_singleton _, by
    rintro a ha b hb rfl
    exact h (List.mem_singleton.mp hb ▸ ha)⟩

theorem get?_push_of_mem (h : name ∈ t.names) : (t.push row).get? name = t.get? name := by
  obtain ⟨a, ha⟩ := Option.isSome_iff_exists.mp (contains_iff.mpr h)
  rw [get?, rows_push, List.find?_append]
  change (t.get? name).or _ = _
  rw [ha, Option.some_or]

/-! ## Changing -/

section Adjust

variable {f g : α → α}

theorem names_adjust (hf : ∀ a, Named.name a = name → Named.name (f a) = name) :
    (t.adjust name f).names = t.names :=
  map_changeFirst _ _ fun a ha ↦ (hf a (eq_of_beq ha)).trans (eq_of_beq ha).symm

theorem get?_adjust_self (hf : ∀ a, Named.name a = name → Named.name (f a) = name) :
    (t.adjust name f).get? name = (t.get? name).map f :=
  find?_changeFirst_self _ fun a ha ↦ beq_iff_eq.mpr (hf a (eq_of_beq ha))

theorem get?_adjust_of_ne (hf : ∀ a, Named.name a = name → Named.name (f a) = name)
    (h : name' ≠ name) : (t.adjust name f).get? name' = t.get? name' := by
  refine find?_changeFirst_of_disjoint _ fun a ha ↦ ?_
  have hname : Named.name a = name := eq_of_beq ha
  simp [hname, hf a hname, h.symm]

theorem forall_mem_adjust {P : α → Prop} (ht : ∀ a ∈ t.rows, P a)
    (hf : ∀ a, t.get? name = some a → P (f a)) : ∀ a ∈ (t.adjust name f).rows, P a :=
  forall_mem_changeFirst ht hf

theorem adjust_adjust (hf : ∀ a, Named.name a = name → Named.name (f a) = name) :
    (t.adjust name f).adjust name g = t.adjust name (g ∘ f) := by
  rw [adjust, adjust, adjust]
  exact congrArg (Table.mk t.kind)
    (changeFirst_changeFirst _ fun a ha ↦ beq_iff_eq.mpr (hf a (eq_of_beq ha)))

theorem adjust_comm (hf : ∀ a, Named.name a = name → Named.name (f a) = name)
    (hg : ∀ a, Named.name a = name' → Named.name (g a) = name') (h : name ≠ name') :
    (t.adjust name' g).adjust name f = (t.adjust name f).adjust name' g := by
  rw [adjust, adjust, adjust, adjust, changeFirst_comm]
  · intro a ha
    have hname : Named.name a = name := eq_of_beq ha
    simp [hname, hf a hname, h]
  · intro a ha
    have hname : Named.name a = name' := eq_of_beq ha
    simp [hname, hg a hname, h.symm]

/-- A row may take its own place. -/
theorem adjust_of_get? (h : t.get? name = some row) : t.adjust name (fun _ ↦ row) = t := by
  have hid : changeFirst (Named.name · == name) (fun _ ↦ row) t.rows =
      changeFirst (Named.name · == name) id t.rows :=
    changeFirst_congr fun a ha ↦ Option.some.inj (h.symm.trans ha)
  rw [adjust, hid, changeFirst_id]

theorem mem_names_adjust (h : name' ∈ (t.adjust name fun _ ↦ row).names) :
    name' ∈ t.names ∨ name' = Named.name row := by
  obtain ⟨a, ha, rfl⟩ := List.mem_map.mp h
  refine forall_mem_adjust (P := fun a ↦ Named.name a ∈ t.names ∨ Named.name a = Named.name row)
    (fun b hb ↦ ?_) (fun _ _ ↦ ?_) a ha
  · exact .inl (List.mem_map_of_mem hb)
  · exact .inr rfl

/-- A row may take the place of another one under a vacant name, or under the name it has. -/
theorem nodup_names_adjust (ht : t.names.Nodup)
    (h : Named.name row ≠ name → Named.name row ∉ t.names) :
    (t.adjust name fun _ ↦ row).names.Nodup := by
  have hnames : (t.adjust name fun _ ↦ row).names =
      t.names.map fun n ↦ if n = name then Named.name row else n := by
    rw [adjust, names, changeFirst_eq_map ht, names, List.map_map, List.map_map]
    refine List.map_congr_left fun a _ ↦ ?_
    by_cases ha : Named.name a = name <;> simp [ha]
  rw [hnames]
  refine ht.map_on fun x hx y hy hxy ↦ ?_
  -- two names can only become one if one of them is the name that is taken
  by_cases hrow : Named.name row = name
  · rw [hrow] at hxy
    split at hxy <;> split at hxy <;> simp_all
  · have hx' : x ≠ Named.name row := fun hc ↦ h hrow (hc ▸ hx)
    have hy' : y ≠ Named.name row := fun hc ↦ h hrow (hc ▸ hy)
    split at hxy <;> split at hxy <;> simp_all

end Adjust

/-- A row takes the place of the one of its name. -/
def put (t : Table α) (row : α) : Table α := t.adjust (Named.name row) fun _ ↦ row

theorem replace_eq_ok_iff :
    t.replace row = .ok t' ↔ Named.name row ∈ t.names ∧ t' = t.put row := by
  rw [replace, bind_eq_ok_iff]
  simp only [discard_eq_ok_iff, get_eq_ok_iff, pure_eq_ok_iff, exists_const]
  rw [← Option.isSome_iff_exists]
  exact and_congr contains_iff eq_comm

@[simp] theorem kind_put : (t.put row).kind = t.kind := rfl

@[simp] theorem names_put : (t.put row).names = t.names := names_adjust fun _ _ ↦ rfl

theorem get?_put_self (h : Named.name row ∈ t.names) :
    (t.put row).get? (Named.name row) = some row := by
  obtain ⟨a, ha⟩ := Option.isSome_iff_exists.mp (contains_iff.mpr h)
  rw [put, get?_adjust_self fun _ _ ↦ rfl, ha, Option.map_some]

theorem get?_put_of_ne (h : name ≠ Named.name row) : (t.put row).get? name = t.get? name :=
  get?_adjust_of_ne (fun _ _ ↦ rfl) h

theorem put_put_self {row' : α} (h : Named.name row' = Named.name row) :
    (t.put row).put row' = t.put row' := by
  rw [put, put, put, h, adjust_adjust fun _ _ ↦ rfl]
  rfl

theorem put_comm {row' : α} (h : Named.name row' ≠ Named.name row) :
    (t.put row).put row' = (t.put row').put row :=
  adjust_comm (fun _ _ ↦ rfl) (fun _ _ ↦ rfl) h

theorem forall_mem_put {P : α → Prop} (ht : ∀ a ∈ t.rows, P a) (h : P row) :
    ∀ a ∈ (t.put row).rows, P a :=
  forall_mem_adjust ht fun _ _ ↦ h

theorem names_map {f : α → α} (hf : ∀ a, Named.name (f a) = Named.name a) :
    (t.map f).names = t.names := by
  rw [names, names, map, List.map_map]
  exact List.map_congr_left fun a _ ↦ hf a

/-! ## Removing -/

/-- The table without the row of a name. -/
def without (t : Table α) (name : String) : Table α :=
  { t with rows := t.rows.eraseP (Named.name · == name) }

theorem remove_eq_ok_iff :
    t.remove name = .ok (row, t') ↔ t.get? name = some row ∧ t' = t.without name := by
  rw [remove, bind_eq_ok_iff]
  simp only [get_eq_ok_iff, pure_eq_ok_iff, Prod.mk.injEq, eq_comm (a := t')]
  constructor
  · rintro ⟨a, ha, rfl, h⟩
    exact ⟨ha, h⟩
  · rintro ⟨ha, h⟩
    exact ⟨row, ha, rfl, h⟩

theorem names_without : (t.without name).names = t.names.erase name := by
  rw [List.erase_eq_eraseP', names, names, List.eraseP_map]
  rfl

/-- With unique names, a name that is taken out is gone. -/
theorem not_mem_names_without (ht : t.names.Nodup) : name ∉ (t.without name).names := by
  rw [names_without]
  exact ht.not_mem_erase

theorem nodup_names_without (h : t.names.Nodup) : (t.without name).names.Nodup :=
  h.sublist (List.eraseP_sublist.map Named.name)

theorem forall_mem_without {P : α → Prop} (h : ∀ a ∈ t.rows, P a) :
    ∀ a ∈ (t.without name).rows, P a :=
  fun a ha ↦ h a (List.mem_of_mem_eraseP ha)

end Table

end Tabletop
