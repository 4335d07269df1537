import Tabletop.Files.Ledger
import Tabletop.Proofs.Table

/-!
# The laws of ledgers

Pages that are known stay those that are stored when both are changed alike (`IsPartOf.change`).

The rows and the index of a ledger together are a map from names to texts, `Stores`: the index
ascends, and each of its entries leads to a row of its name, which has the text. Adding, revising
and removing a row change the map at one name. They find the row by the index and change it by its
number, which no other entry has: entries of different names lead to rows of different numbers.
-/

namespace Tabletop

namespace Ledger

/-! ## Pages -/

namespace Pages

variable {known ps : Pages} {page : Page} {part : Part}

theorem get?_put (ps : Pages) (page : Page) (part : Part) :
    (ps.put page).get? part = if part = page.part then some page else ps.get? part := by
  cases page <;> cases part <;> rfl

/-- What is known are the head and some of the pages. -/
structure IsPartOf (known ps : Pages) : Prop where
  head : known.head = ps.head
  pages : ∀ part page, known.get? part = some page → ps.get? part = some page

theorem IsPartOf.refl (ps : Pages) : ps.IsPartOf ps := ⟨rfl, fun _ _ h ↦ h⟩

/-- A page that is stored can be made known. -/
theorem IsPartOf.learn (h : known.IsPartOf ps) (hpage : ps.get? page.part = some page) :
    (known.put page).IsPartOf ps where
  head := by cases page <;> exact h.head
  pages part page' hpage' := by
    rw [get?_put] at hpage'
    split at hpage'
    · rename_i hpart
      rw [hpart, hpage, hpage']
    · exact h.pages part page' hpage'

theorem IsPartOf.put (h : known.IsPartOf ps) (page : Page) :
    (known.put page).IsPartOf (ps.put page) where
  head := by cases page <;> exact h.head
  pages part page' hpage' := by
    rw [get?_put] at hpage' ⊢
    split at hpage' <;> rename_i hpart
    · rw [if_pos hpart, hpage']
    · rw [if_neg hpart]
      exact h.pages part page' hpage'

theorem IsPartOf.putAll (h : known.IsPartOf ps) (pages : List Page) :
    (known.putAll pages).IsPartOf (ps.putAll pages) := by
  induction pages generalizing known ps with
  | nil => exact h
  | cons page pages ih => exact ih (h.put page)

/-- A change that is made both to what is known and to what is stored. -/
theorem IsPartOf.change (h : known.IsPartOf ps) (pages : List Page) :
    (known.change pages).IsPartOf (ps.change pages) where
  head := by simp only [Pages.change, h.head]
  pages part page hpage := by
    have hget : ∀ (ps : Pages), (ps.change pages).get? part = (ps.putAll pages).get? part := by
      intro ps
      cases part <;> rfl
    rw [hget] at hpage ⊢
    exact (h.putAll pages).pages part page hpage

end Pages

/-! ## Rows and the index -/

variable {rows : List Row} {index : Index} {row : Row} {name text : String} {number : Nat}
  {texts : String → Option String}

theorem number_of_rowOf (h : rowOf number rows = some row) : row.number = number :=
  eq_of_beq (List.find?_some (p := fun row : Row ↦ row.number == number) h)

theorem number_lt_nextNumber (h : row ∈ rows) : row.number < nextNumber rows := by
  induction rows with
  | nil => exact absurd h List.not_mem_nil
  | cons first rows ih =>
    rw [nextNumber, List.foldr_cons, ← nextNumber]
    rcases List.mem_cons.mp h with rfl | h
    · exact lt_of_lt_of_le (Nat.lt_succ_self _) (le_max_left _ _)
    · exact lt_of_lt_of_le (ih h) (le_max_right _ _)

theorem rowOf_nextNumber : rowOf (nextNumber rows) rows = none :=
  List.find?_eq_none.mpr fun row hrow ↦ by
    simpa using (number_lt_nextNumber hrow).ne

theorem mem_insertName (h : ∀ entry ∈ index, entry.1 ≠ name) {entry : String × Nat} :
    entry ∈ insertName name number index ↔ entry = (name, number) ∨ entry ∈ index := by
  induction index with
  | nil => simp [insertName]
  | cons first index ih =>
    obtain ⟨hfirst, hindex⟩ := List.forall_mem_cons.mp h
    rw [insertName, if_neg hfirst]
    split
    · rw [List.mem_cons]
    · rw [List.mem_cons, ih hindex, List.mem_cons, or_left_comm]

theorem pairwise_insertName (hindex : index.Pairwise (·.1 < ·.1))
    (h : ∀ entry ∈ index, entry.1 ≠ name) :
    (insertName name number index).Pairwise (·.1 < ·.1) := by
  induction index with
  | nil => exact List.pairwise_singleton _ _
  | cons first index ih =>
    obtain ⟨hfirst, hrest⟩ := List.pairwise_cons.mp hindex
    obtain ⟨hne, hnames⟩ := List.forall_mem_cons.mp h
    rw [insertName, if_neg hne]
    split
    · rename_i hlt
      refine List.pairwise_cons.mpr ⟨fun entry hentry ↦ ?_, hindex⟩
      rcases List.mem_cons.mp hentry with rfl | hentry
      · exact hlt
      · exact lt_trans hlt (hfirst entry hentry)
    · rename_i hlt
      refine List.pairwise_cons.mpr ⟨fun entry hentry ↦ ?_, ih hrest hnames⟩
      rcases (mem_insertName hnames).mp hentry with rfl | hentry
      · exact lt_of_le_of_ne (not_lt.mp hlt) hne
      · exact hfirst entry hentry

/-- Rows and an index that keep these texts by name. -/
structure Stores (texts : String → Option String) (rows : List Row) (index : Index) : Prop where
  ascending : index.Pairwise (·.1 < ·.1)
  row : ∀ name number, (name, number) ∈ index →
    ∃ row, rowOf number rows = some row ∧ row.name = name ∧ texts name = some row.text
  entry : ∀ name, (texts name).isSome → ∃ number, (name, number) ∈ index

namespace Stores

theorem empty : Stores (fun _ ↦ none) [] [] where
  ascending := .nil
  row _ _ h := absurd h List.not_mem_nil
  entry _ h := absurd h (by simp)

theorem mem_names_iff (h : Stores texts rows index) :
    name ∈ index.map Prod.fst ↔ (texts name).isSome := by
  rw [List.mem_map]
  constructor
  · rintro ⟨⟨_, number⟩, hentry, rfl⟩
    obtain ⟨row, -, -, htext⟩ := h.row _ _ hentry
    exact Option.isSome_iff_exists.mpr ⟨_, htext⟩
  · intro hname
    obtain ⟨number, hentry⟩ := h.entry name hname
    exact ⟨(name, number), hentry, rfl⟩

theorem lookup_eq_some_iff (h : Stores texts rows index) :
    index.lookup name = some number ↔ (name, number) ∈ index := by
  have hindex := h.ascending
  clear h
  induction index with
  | nil => simp
  | cons first index ih =>
    obtain ⟨name', number'⟩ := first
    obtain ⟨hfirst, hrest⟩ := List.pairwise_cons.mp hindex
    rw [List.lookup_cons, List.mem_cons, Prod.mk.injEq]
    by_cases hname : name = name'
    · subst hname
      have hnot : (name, number) ∉ index := fun hmem ↦ absurd (hfirst _ hmem) (lt_irrefl name)
      simp [hnot, eq_comm]
    · rw [beq_eq_false_iff_ne.mpr hname]
      simp [hname, ih hrest]

theorem lookup_eq_none_iff (h : Stores texts rows index) :
    index.lookup name = none ↔ texts name = none := by
  constructor
  · intro hlookup
    by_contra htext
    obtain ⟨number, hentry⟩ := h.entry name (Option.isSome_iff_ne_none.mpr htext)
    exact absurd (h.lookup_eq_some_iff.mpr hentry) (by simp [hlookup])
  · intro htext
    by_contra hlookup
    obtain ⟨number, hlookup⟩ := Option.ne_none_iff_exists'.mp hlookup
    obtain ⟨row, -, -, hrow⟩ := h.row name number (h.lookup_eq_some_iff.mp hlookup)
    exact absurd (htext.symm.trans hrow) (by simp)

theorem added (h : Stores texts rows index) (hname : texts name = none) (text : String)
    (isDated : Bool) :
    Stores (Function.update texts name (some text))
      (rows ++ [⟨nextNumber rows, name, text, isDated⟩])
      (insertName name (nextNumber rows) index) := by
  have hnot : ∀ entry ∈ index, entry.1 ≠ name := by
    rintro ⟨_, number⟩ hentry rfl
    obtain ⟨row, -, -, htext⟩ := h.row _ number hentry
    exact absurd (hname.symm.trans htext) (by simp)
  refine ⟨pairwise_insertName h.ascending hnot, fun name' number hentry ↦ ?_, fun name' hname' ↦ ?_⟩
  · rcases (mem_insertName hnot).mp hentry with hnew | hentry
    · obtain ⟨rfl, rfl⟩ := Prod.mk.inj hnew
      refine ⟨⟨nextNumber rows, name', text, isDated⟩, ?_, rfl, Function.update_self _ _ _⟩
      rw [rowOf, List.find?_append, ← rowOf, rowOf_nextNumber, Option.none_or]
      exact List.find?_cons_of_pos (by simp)
    · obtain ⟨row, hrow, hrowName, htext⟩ := h.row name' number hentry
      refine ⟨row, ?_, hrowName, ?_⟩
      · rw [rowOf, List.find?_append, ← rowOf, hrow, Option.some_or]
      · rwa [Function.update_of_ne (hnot _ hentry)]
  · by_cases heq : name' = name
    · exact ⟨_, (mem_insertName hnot).mpr (.inl (by rw [heq]))⟩
    · rw [Function.update_of_ne heq] at hname'
      obtain ⟨number, hentry⟩ := h.entry name' hname'
      exact ⟨number, (mem_insertName hnot).mpr (.inr hentry)⟩

/-- Entries of different names lead to rows of different numbers. -/
theorem number_ne (h : Stores texts rows index) (hrow : rowOf number rows = some row)
    {name' : String} {number' : Nat} (hentry : (name', number') ∈ index)
    (hname : name' ≠ row.name) : number' ≠ number := by
  rintro rfl
  obtain ⟨row', hrow', rfl, -⟩ := h.row name' number' hentry
  exact hname (congrArg Row.name (Option.some.inj (hrow'.symm.trans hrow)))

theorem revised (h : Stores texts rows index) (hentry : (name, number) ∈ index)
    (hrow : rowOf number rows = some row) (text : String) (isDated : Bool) :
    Stores (Function.update texts name (some text))
      (changeFirst (·.number == row.number) (fun _ ↦ { row with text, isDated }) rows) index := by
  obtain ⟨row', hrow', hname, -⟩ := h.row name number hentry
  obtain rfl := Option.some.inj (hrow.symm.trans hrow')
  have hnumber := number_of_rowOf hrow
  refine ⟨h.ascending, fun name' number' hentry' ↦ ?_, fun name' hname' ↦ ?_⟩
  · by_cases heq : name' = name
    · obtain rfl : number = number' := Option.some.inj
        ((h.lookup_eq_some_iff.mpr hentry).symm.trans (heq ▸ h.lookup_eq_some_iff.mpr hentry'))
      refine ⟨{ row with text, isDated }, ?_, heq ▸ hname, by rw [heq, Function.update_self]⟩
      rw [hnumber, rowOf, find?_changeFirst_self _ fun _ _ ↦ by simp, ← rowOf, hrow]
      rfl
    · obtain ⟨row', hrow', hname', htext⟩ := h.row name' number' hentry'
      refine ⟨row', ?_, hname', by rwa [Function.update_of_ne heq]⟩
      have hne := h.number_ne hrow hentry' (hname ▸ heq)
      rw [rowOf, find?_changeFirst_of_disjoint, ← rowOf, hrow']
      intro a ha
      have ha : a.number = row.number := eq_of_beq ha
      simp [ha, hnumber, hne.symm]
  · by_cases heq : name' = name
    · exact ⟨number, heq ▸ hentry⟩
    · rw [Function.update_of_ne heq] at hname'
      exact h.entry name' hname'

theorem removed (h : Stores texts rows index) (hentry : (name, number) ∈ index)
    (hrow : rowOf number rows = some row) :
    Stores (Function.update texts name none) (rows.filter (·.number != row.number))
      (index.filter (·.1 != row.name)) := by
  obtain ⟨row', hrow', hname, -⟩ := h.row name number hentry
  obtain rfl := Option.some.inj (hrow.symm.trans hrow')
  have hnumber := number_of_rowOf hrow
  refine ⟨h.ascending.filter _, fun name' number' hentry' ↦ ?_, fun name' hname' ↦ ?_⟩
  · obtain ⟨hentry', hne⟩ := List.mem_filter.mp hentry'
    have hne : name' ≠ row.name := by simpa using hne
    obtain ⟨row', hrow', hname', htext⟩ := h.row name' number' hentry'
    refine ⟨row', ?_, hname', by rwa [Function.update_of_ne (hname ▸ hne)]⟩
    have hkept := h.number_ne hrow hentry' hne
    rw [rowOf, List.find?_filter, ← hrow', rowOf]
    congr 1
    funext a
    by_cases ha : a.number = number'
    · simp [ha, hnumber, hkept]
    · simp [ha]
  · by_cases heq : name' = name
    · rw [heq, Function.update_self] at hname'
      exact absurd hname' (by simp)
    · rw [Function.update_of_ne heq] at hname'
      obtain ⟨number', hentry'⟩ := h.entry name' hname'
      exact ⟨number', List.mem_filter.mpr ⟨hentry', by simpa [hname] using heq⟩⟩

end Stores

end Ledger

end Tabletop
