import Tabletop.Proofs.Table

/-!
# Tables are dictionaries

A table keeps its rows in one list and searches it from the front. Seen from outside it is a
`Dictionary`: a map from names to rows, together with the names in the order in which they were put
in. `Dictionary.serve` says what has to be answered to a request, and `Table.serve` what a table
does answer.

## One table for each dictionary

That a table is searched from the front must not be noticed. With two rows of one name it would be:
taking one out would uncover the other. A `Dictionary` cannot list a name twice, and lists exactly
the names that have rows, so it determines a table with unique names, that of its rows in the order
of their names (`Dictionary.toTable`). Conversely such a table is determined by its names and by
what is found under them (`Dictionary.toTable_eq`), and therefore every request leads from the table
of a dictionary to the table of the dictionary after it (`Table.serve_toTable`). So all replies to
all requests are those of a dictionary, and so are the rows that are left (`Table.replies_empty`).
-/

namespace Tabletop

variable {α : Type} [Named α]

/-! ## What is found after a change -/

namespace Table

variable {t : Table α} {row : α} {name : String} {f : α → α}

/-- With unique names, the row that is found under a name is the one that has it. -/
theorem get?_eq_some_iff (ht : t.names.Nodup) :
    t.get? name = some row ↔ row ∈ t.rows ∧ Named.name row = name := by
  refine ⟨get?_eq_some, ?_⟩
  rintro ⟨hmem, rfl⟩
  exact get?_of_mem ht hmem

theorem get?_push (h : Named.name row ∉ t.names) :
    (t.push row).get? = Function.update t.get? (Named.name row) (some row) := by
  funext n
  rw [get?, rows_push, List.find?_append]
  change (t.get? n).or _ = _
  by_cases hn : n = Named.name row
  · rw [hn, Function.update_self, get?_eq_none_iff.mpr h, Option.none_or]
    exact List.find?_cons_of_pos (beq_self_eq_true _)
  · rw [Function.update_of_ne hn, List.find?_cons_of_neg (by simpa using Ne.symm hn),
      List.find?_nil, Option.or_none]

theorem get?_adjust (hf : ∀ a, Named.name a = name → Named.name (f a) = name) :
    (t.adjust name f).get? = Function.update t.get? name ((t.get? name).map f) := by
  funext n
  by_cases hn : n = name
  · rw [hn, Function.update_self, get?_adjust_self hf]
  · rw [Function.update_of_ne hn, get?_adjust_of_ne hf hn]

theorem get?_put (h : Named.name row ∈ t.names) :
    (t.put row).get? = Function.update t.get? (Named.name row) (some row) := by
  obtain ⟨a, ha⟩ := Option.isSome_iff_exists.mp (contains_iff.mpr h)
  rw [put, get?_adjust fun _ _ ↦ rfl, ha, Option.map_some]

theorem get?_map (hf : ∀ a, Named.name (f a) = Named.name a) :
    (t.map f).get? = fun n ↦ (t.get? n).map f := by
  funext n
  rw [get?, map, List.find?_map]
  simp only [Function.comp_def, hf]
  rfl

theorem get?_without (ht : t.names.Nodup) :
    (t.without name).get? = Function.update t.get? name none := by
  funext n
  by_cases hn : n = name
  · rw [hn, Function.update_self, get?_eq_none_iff]
    exact not_mem_names_without ht
  · rw [Function.update_of_ne hn]
    refine Option.ext fun row ↦ ?_
    rw [get?_eq_some_iff (nodup_names_without ht), get?_eq_some_iff ht]
    refine and_congr_left fun hrow ↦ List.mem_eraseP_of_neg ?_
    simpa [hrow] using hn

/-- With unique names, the rows are what is found under one name after the other. -/
theorem filterMap_names (ht : t.names.Nodup) : t.names.filterMap t.get? = t.rows := by
  rw [names, List.filterMap_map]
  calc t.rows.filterMap (t.get? ∘ Named.name)
    _ = t.rows.filterMap some := List.filterMap_congr fun a ha ↦ get?_of_mem ht ha
    _ = t.rows := List.filterMap_some

end Table

/-! ## Dictionaries -/

/-- A finite map from names to rows, with the names in the order in which they were put in. -/
structure Dictionary (α : Type) [Named α] where
  /-- The names, oldest first. -/
  order : List String
  /-- The row of a name. -/
  row? : String → Option α
  /-- No name is listed twice. -/
  nodup : order.Nodup
  /-- The names that are listed are those that have a row. -/
  mem_order : ∀ {name}, name ∈ order ↔ (row? name).isSome
  /-- A row stands under its own name. -/
  name_eq : ∀ {name row}, row? name = some row → Named.name row = name

/-- A change of what a row holds. Names stay. -/
structure Revision (α : Type) [Named α] where
  /-- The row after the change. -/
  apply : α → α
  /-- It has the name that it had. -/
  name_apply : ∀ a, Named.name (apply a) = Named.name a

namespace Dictionary

variable {d : Dictionary α} {row a : α} {row? : Option α} {name n : String} {kind : RowKind}

/-- A dictionary without rows. -/
def empty : Dictionary α where
  order := []
  row? _ := none
  nodup := List.nodup_nil
  mem_order := by simp
  name_eq := by simp

/-- If the row that is put under a name has it, every row still stands under its own name. -/
theorem name_eq_update (d : Dictionary α) (hrow : ∀ a, row? = some a → Named.name a = name)
    (h : Function.update d.row? name row? n = some a) : Named.name a = n := by
  by_cases hn : n = name
  · rw [hn, Function.update_self] at h
    rw [hn, hrow a h]
  · rw [Function.update_of_ne hn] at h
    exact d.name_eq h

/-- Puts a row behind all others. -/
def add (d : Dictionary α) (row : α) (h : Named.name row ∉ d.order) : Dictionary α where
  order := d.order ++ [Named.name row]
  row? := Function.update d.row? (Named.name row) (some row)
  nodup := List.nodup_append.mpr ⟨d.nodup, List.nodup_singleton _, by
    rintro n hn _ hrow rfl
    exact h (List.mem_singleton.mp hrow ▸ hn)⟩
  mem_order {n} := by by_cases hn : n = Named.name row <;> simp [hn, d.mem_order]
  name_eq := d.name_eq_update fun _ ha ↦ congrArg Named.name (Option.some.inj ha).symm

/-- Puts a row in the place of the one of its name. -/
def set (d : Dictionary α) (row : α) (h : Named.name row ∈ d.order) : Dictionary α where
  order := d.order
  row? := Function.update d.row? (Named.name row) (some row)
  nodup := d.nodup
  mem_order {n} := by by_cases hn : n = Named.name row <;> simp [hn, h, d.mem_order]
  name_eq := d.name_eq_update fun _ ha ↦ congrArg Named.name (Option.some.inj ha).symm

/-- Takes out the row of a name. The others keep their order. -/
def erase (d : Dictionary α) (name : String) : Dictionary α where
  order := d.order.erase name
  row? := Function.update d.row? name none
  nodup := d.nodup.erase name
  mem_order {n} := by
    rw [d.nodup.mem_erase_iff]
    by_cases hn : n = name <;> simp [hn, d.mem_order]
  name_eq := d.name_eq_update (by simp)

/-- Changes the row of a name in its place, if there is one. -/
def revise (d : Dictionary α) (name : String) (r : Revision α) : Dictionary α where
  order := d.order
  row? := Function.update d.row? name ((d.row? name).map r.apply)
  nodup := d.nodup
  mem_order {n} := by by_cases hn : n = name <;> simp [hn, d.mem_order]
  name_eq := d.name_eq_update fun _ ha ↦ by
    obtain ⟨old, hold, rfl⟩ := Option.map_eq_some_iff.mp ha
    rw [r.name_apply, d.name_eq hold]

/-- Changes every row in its place. -/
def reviseAll (d : Dictionary α) (r : Revision α) : Dictionary α where
  order := d.order
  row? n := (d.row? n).map r.apply
  nodup := d.nodup
  mem_order := by simp [d.mem_order]
  name_eq ha := by
    obtain ⟨old, hold, rfl⟩ := Option.map_eq_some_iff.mp ha
    rw [r.name_apply, d.name_eq hold]

/-! ## The table of a dictionary -/

/-- The table of the rows, in the order of their names. -/
def toTable (kind : RowKind) (d : Dictionary α) : Table α := ⟨kind, d.order.filterMap d.row?⟩

@[simp] theorem names_toTable : (d.toTable kind).names = d.order := by
  rw [Table.names, toTable, List.map_filterMap]
  calc d.order.filterMap (fun n ↦ (d.row? n).map Named.name)
    _ = d.order.filterMap some := List.filterMap_congr fun n hn ↦ by
      obtain ⟨row, hrow⟩ := Option.isSome_iff_exists.mp (d.mem_order.mp hn)
      rw [hrow, Option.map_some, d.name_eq hrow]
    _ = d.order := List.filterMap_some

theorem nodup_names_toTable : (d.toTable kind).names.Nodup := by
  rw [names_toTable]
  exact d.nodup

@[simp] theorem get?_toTable : (d.toTable kind).get? = d.row? := by
  funext n
  refine Option.ext fun row ↦ ?_
  rw [Table.get?_eq_some_iff nodup_names_toTable]
  constructor
  · rintro ⟨hmem, rfl⟩
    obtain ⟨n, -, hrow⟩ := List.mem_filterMap.mp hmem
    rwa [d.name_eq hrow]
  · intro hrow
    have hn : n ∈ d.order := d.mem_order.mpr (hrow ▸ rfl)
    exact ⟨List.mem_filterMap.mpr ⟨n, hn, hrow⟩, d.name_eq hrow⟩

/-- **The table of a dictionary is the only one** with its names, in order, and its rows under
them. -/
theorem toTable_eq {t : Table α} (hkind : t.kind = kind) (hnames : t.names = d.order)
    (hget : t.get? = d.row?) : d.toTable kind = t := by
  have ht : t.names.Nodup := hnames ▸ d.nodup
  rw [toTable, ← hkind, ← hnames, ← hget, Table.filterMap_names ht]

theorem length_toTable : (d.toTable kind).rows.length = d.order.length := by
  have hnames : (d.toTable kind).names = d.order := names_toTable
  rw [← hnames, Table.names, List.length_map]

theorem toTable_empty : (empty : Dictionary α).toTable kind = .empty kind := rfl

theorem toTable_add (h : Named.name row ∉ d.order) :
    (d.add row h).toTable kind = (d.toTable kind).push row := by
  refine toTable_eq rfl ?_ ?_
  · rw [Table.names_push, names_toTable]
    rfl
  · rw [Table.get?_push (by rwa [names_toTable]), get?_toTable]
    rfl

theorem toTable_set (h : Named.name row ∈ d.order) :
    (d.set row h).toTable kind = (d.toTable kind).put row := by
  refine toTable_eq rfl ?_ ?_
  · rw [Table.names_put, names_toTable]
    rfl
  · rw [Table.get?_put (by rwa [names_toTable]), get?_toTable]
    rfl

theorem toTable_erase (name : String) :
    (d.erase name).toTable kind = (d.toTable kind).without name := by
  refine toTable_eq rfl ?_ ?_
  · rw [Table.names_without, names_toTable]
    rfl
  · rw [Table.get?_without nodup_names_toTable, get?_toTable]
    rfl

theorem toTable_revise (name : String) (r : Revision α) :
    (d.revise name r).toTable kind = (d.toTable kind).adjust name r.apply := by
  have hr : ∀ a, Named.name a = name → Named.name (r.apply a) = name := fun a ha ↦
    (r.name_apply a).trans ha
  refine toTable_eq rfl ?_ ?_
  · rw [Table.names_adjust hr, names_toTable]
    rfl
  · rw [Table.get?_adjust hr, get?_toTable]
    rfl

theorem toTable_reviseAll (r : Revision α) :
    (d.reviseAll r).toTable kind = (d.toTable kind).map r.apply := by
  refine toTable_eq rfl ?_ ?_
  · rw [Table.names_map r.name_apply, names_toTable]
    rfl
  · rw [Table.get?_map r.name_apply, get?_toTable]
    rfl

end Dictionary

/-! ## Requests and replies -/

namespace Table

/-- What a table is asked to do. -/
inductive Request (α : Type) [Named α] where
  /-- Put in a row. -/
  | insert (row : α)
  /-- Put a row in the place of the one of its name. -/
  | replace (row : α)
  /-- Take out the row of a name. -/
  | remove (name : String)
  /-- Make sure that no row has the name. -/
  | ensureVacant (name : String)
  /-- Look up a name. -/
  | get (name : String)
  /-- Ask for a name. -/
  | contains (name : String)
  /-- Count the rows. -/
  | length
  /-- List the rows. -/
  | list
  /-- Look up a name and change the row that is found. -/
  | revise (name : String) (r : Revision α)
  /-- Change every row. -/
  | reviseAll (r : Revision α)

/-- What a table replies. -/
inductive Reply (α : Type) where
  /-- It is done. -/
  | done
  /-- The row that was put in or taken out, or was found, if there was one. -/
  | row? (row? : Option α)
  /-- Whether it is so. -/
  | truth (b : Bool)
  /-- How many there are. -/
  | count (n : Nat)
  /-- The rows in order. -/
  | rows (rows : List α)
deriving DecidableEq

/-- Does what is asked: the reply, and the table after it. -/
def serve (t : Table α) : Request α → Except RuleError (Reply α × Table α)
  | .insert row => do
    let t ← t.insert row
    return (.row? t.rows.getLast?, t)
  | .replace row => do
    let t ← t.replace row
    return (.done, t)
  | .remove name => do
    let (row, t) ← t.remove name
    return (.row? (some row), t)
  | .ensureVacant name => do
    t.ensureVacant name
    return (.done, t)
  | .get name => .ok (.row? (t.get? name), t)
  | .contains name => .ok (.truth (t.contains name), t)
  | .length => .ok (.count t.rows.length, t)
  | .list => .ok (.rows t.rows, t)
  | .revise name r => .ok (.row? (t.get? name), t.adjust name r.apply)
  | .reviseAll r => .ok (.done, t.map r.apply)

end Table

/-- Does what is asked as a dictionary has to: the reply, and the dictionary after it. The kind is
that of the rows, for messages. -/
def Dictionary.serve (kind : RowKind) (d : Dictionary α) :
    Table.Request α → Except RuleError (Table.Reply α × Dictionary α)
  | .insert row =>
    if h : Named.name row ∈ d.order then .error (.duplicateName kind (Named.name row))
    else .ok (.row? (some row), d.add row h)
  | .replace row =>
    if h : Named.name row ∈ d.order then .ok (.done, d.set row h)
    else .error (.notFound kind (Named.name row))
  | .remove name =>
    match d.row? name with
    | some row => .ok (.row? (some row), d.erase name)
    | none => .error (.notFound kind name)
  | .ensureVacant name =>
    if name ∈ d.order then .error (.duplicateName kind name) else .ok (.done, d)
  | .get name => .ok (.row? (d.row? name), d)
  | .contains name => .ok (.truth (name ∈ d.order), d)
  | .length => .ok (.count d.order.length, d)
  | .list => .ok (.rows (d.order.filterMap d.row?), d)
  | .revise name r => .ok (.row? (d.row? name), d.revise name r)
  | .reviseAll r => .ok (.done, d.reviseAll r)

/-- The replies to one request after the other, and what there is in the end. A request that fails
changes nothing. -/
def replies {σ ρ β ε : Type} (serve : σ → ρ → Except ε (β × σ)) (s : σ) :
    List ρ → List (Except ε β) × σ
  | [] => ([], s)
  | request :: requests =>
    match serve s request with
    | .ok (reply, s') => (replies serve s' requests).map (.ok reply :: ·) id
    | .error e => (replies serve s requests).map (.error e :: ·) id

/-! ## Tables serve as dictionaries -/

namespace Table

variable {t : Table α} {row : α} {name : String} {kind : RowKind}

theorem ensureVacant_eq :
    t.ensureVacant name =
      if name ∈ t.names then .error (.duplicateName t.kind name) else .ok () := by
  rw [ensureVacant, require]
  by_cases h : name ∈ t.names
  · rw [if_pos h, contains_iff.mpr h]
    rfl
  · rw [if_neg h, Bool.eq_false_iff.mpr (mt contains_iff.mp h)]
    rfl

theorem insert_eq :
    t.insert row =
      if Named.name row ∈ t.names then .error (.duplicateName t.kind (Named.name row))
      else .ok (t.push row) := by
  rw [insert, ensureVacant_eq]
  split <;> rfl

theorem replace_eq :
    t.replace row =
      if Named.name row ∈ t.names then .ok (t.put row)
      else .error (.notFound t.kind (Named.name row)) := by
  split
  · rename_i h
    exact replace_eq_ok_iff.mpr ⟨h, rfl⟩
  · rename_i h
    rw [replace, get, get?_eq_none_iff.mpr h]
    rfl

theorem remove_eq :
    t.remove name = match t.get? name with
      | some row => .ok (row, t.without name)
      | none => .error (.notFound t.kind name) := by
  rw [remove, get]
  cases t.get? name <;> rfl

/-- **One request.** -/
theorem serve_toTable (kind : RowKind) (d : Dictionary α) (request : Request α) :
    (d.toTable kind).serve request =
      (d.serve kind request).map (Prod.map id (Dictionary.toTable kind)) := by
  cases request with
  | insert row =>
    rw [serve, insert_eq, Dictionary.names_toTable, Dictionary.serve]
    split
    · rfl
    · rename_i h
      change Except.ok _ = Except.ok _
      rw [rows_push, List.getLast?_concat, ← Dictionary.toTable_add h]
      rfl
  | replace row =>
    rw [serve, replace_eq, Dictionary.names_toTable, Dictionary.serve]
    split
    · rename_i h
      rw [← Dictionary.toTable_set h]
      rfl
    · rfl
  | remove name =>
    rw [serve, remove_eq, Dictionary.get?_toTable, Dictionary.serve]
    cases d.row? name with
    | some row =>
      rw [← Dictionary.toTable_erase]
      rfl
    | none => rfl
  | ensureVacant name =>
    rw [serve, ensureVacant_eq, Dictionary.names_toTable, Dictionary.serve]
    split <;> rfl
  | get name =>
    rw [serve, Dictionary.get?_toTable]
    rfl
  | contains name =>
    have hcontains : (d.toTable kind).contains name = decide (name ∈ d.order) := by
      rw [Bool.eq_iff_iff, contains_iff, Dictionary.names_toTable, decide_eq_true_iff]
    rw [serve, hcontains]
    rfl
  | length =>
    rw [serve, Dictionary.length_toTable]
    rfl
  | list => rfl
  | revise name r =>
    rw [serve, Dictionary.get?_toTable, ← Dictionary.toTable_revise]
    rfl
  | reviseAll r =>
    rw [serve, ← Dictionary.toTable_reviseAll]
    rfl

/-- **All requests.** -/
theorem replies_toTable (kind : RowKind) (d : Dictionary α) (requests : List (Request α)) :
    replies serve (d.toTable kind) requests =
      (replies (Dictionary.serve kind) d requests).map id (Dictionary.toTable kind) := by
  induction requests generalizing d with
  | nil => rfl
  | cons request requests ih =>
    rw [replies, replies, serve_toTable]
    rcases d.serve kind request with e | ⟨reply, d'⟩
    · exact congrArg (Prod.map (.error e :: ·) id) (ih d)
    · exact congrArg (Prod.map (.ok reply :: ·) id) (ih d')

/-- **A table is a dictionary that keeps the order of its names.** Whatever is asked of a table that
was empty, it replies as the dictionary does, and in the end it holds the rows of the dictionary in
the order of their names. -/
theorem replies_empty (kind : RowKind) (requests : List (Request α)) :
    replies serve (.empty kind) requests =
      (replies (Dictionary.serve kind) .empty requests).map id (Dictionary.toTable kind) := by
  rw [← Dictionary.toTable_empty, replies_toTable]

end Table

end Tabletop
