import Tabletop.Proofs.Library.OpenLedger
import Tabletop.Proofs.Library.Shelf

/-!
# Ledgers stand for shelves

A ledger whose rows and index keep the texts of a shelf goes on doing so, whatever the library is
asked to do (`backs`).
-/

namespace Tabletop

namespace LedgerLibrary

open Filing FileTree OpenLedger

variable {title path name : String} {p : Place} {k : FileKey} {ps : Ledger.Pages} {o : OpenLedger}
  {s : Shelf} {l : Library}

/-- A ledger that is ready, and keeps the texts of a shelf. -/
structure Shelves (s : Shelf) (ps : Ledger.Pages) : Prop where
  head : ∃ h, ps.head = some h
  version : ps.version = some Ledger.currentVersion
  stores : ∃ rows index, ps.rows = some rows ∧ ps.index = some index ∧
    Ledger.Stores (fun name ↦ s.lookup name) rows index

theorem shelves_empty : Shelves ∅ (({} : Ledger.Pages).change Ledger.empty) :=
  ⟨⟨1, rfl⟩, rfl, [], [], rfl, rfl, Ledger.Stores.empty⟩

/-- The shelf after rows and index are written. -/
theorem Shelves.write (h : Shelves s ps) {s' : Shelf} {rows : List Ledger.Row}
    {index : Ledger.Index} (hstores : Ledger.Stores (fun name ↦ s'.lookup name) rows index) :
    Shelves s' (ps.change [.rows rows, .index index]) :=
  ⟨⟨_, rfl⟩, h.version, rows, index, rfl, rfl, hstores⟩

/-- The shelf after rows are written. -/
theorem Shelves.write_rows (h : Shelves s ps) {s' : Shelf} {rows : List Ledger.Row}
    {index : Ledger.Index} (hindex : ps.index = some index)
    (hstores : Ledger.Stores (fun name ↦ s'.lookup name) rows index) :
    Shelves s' (ps.change [.rows rows]) :=
  ⟨⟨_, rfl⟩, h.version, rows, index, rfl, hindex, hstores⟩

/-- The trees where the ledger is closed: it may not have been made yet. -/
def IsClosed (path : String) (s : Shelf) (t : FileTree) : Prop :=
  (s = ∅ ∧ ∃ p, t.HasRoomForLedger path p) ∨ ∃ k ps, Shelves s ps ∧ t.HasLedger path k (.ledger ps)

/-- The trees where the ledger is open. -/
def IsOpen (title path : String) (s : Shelf) (l : Library) (t : FileTree) : Prop :=
  ∃ o k ps, l = .ledger title o ∧ Shelves s ps ∧ o.Started path k ps t

/-! ## Opening and closing -/

/-- A blank file becomes a ledger. -/
theorem gives_prepare_blank :
    Gives (o.Rests path k (.text "") {}) (prepare o) (.ok ())
      (o.Started path k (({} : Ledger.Pages).change Ledger.empty)) := by
  have hstart : Gives (o.Rests path k (.text "") {}) o.start (.ok false)
      (o.Rests path k (.text "") {}) := by
    refine gives_start ?_
    rw [ite_self]
    exact gives_readHead_blank rfl (by decide)
  exact hstart.bind (gives_ensureWritable.bind
    (gives_write (List.cons_ne_nil _ _) (Ledger.Pages.IsPartOf.refl {})))

theorem gives_prepare (h : Shelves s ps) :
    Gives (o.Rests path k (.ledger ps) {}) (prepare o) (.ok ()) (o.Started path k ps) := by
  obtain ⟨_, hhead⟩ := h.head
  exact (gives_start_of_unknown hhead).bind ((gives_version h.version).bind (Gives.lift (.ok ())))

theorem perform_attach {t t₁ : FileTree} {n : Node} {ps : Ledger.Pages}
    (hattach : t.perform (OpenLedger.attach title (.file path {})) = (.ok o, t₁))
    (ht₁ : o.Rests path k n {} t₁)
    (hprepare : Gives (o.Rests path k n {}) (prepare o) (.ok ()) (o.Started path k ps))
    (hps : Shelves s ps) :
    ∃ l t', t.perform (Library.attach (.ledger title (.file path {}))) = (.ok l, t') ∧
      IsOpen title path s l t' := by
  obtain ⟨t', hprepare, ht'⟩ := hprepare t₁ ht₁
  refine ⟨.ledger title o, t', ?_, o, k, ps, rfl, hps, ht'⟩
  have hlibrary : t.perform (attach title (.file path {})) = (.ok o, t') :=
    (perform_bind_of_ok hattach _).trans
      (perform_bind_of_ok (perform_tryCatch_of_ok hprepare _) _)
  exact perform_bind_of_ok hlibrary _

/-! ## Using it -/

/-- What is done to the pages of a ledger that has been used is done to a library that is open. -/
theorem gives_of_started {α : Type} {x : Filing α} {r : Except LibraryError α} {s' : Shelf}
    (h : ∀ {o k ps head rows index}, l = .ledger title o → Shelves s ps → ps.head = some head →
      ps.rows = some rows → ps.index = some index →
      Ledger.Stores (fun name ↦ s.lookup name) rows index →
      ∃ ps', Shelves s' ps' ∧ Gives (o.Started path k ps) x r (o.Started path k ps')) :
    Gives (IsOpen title path s l) x r (IsOpen title path s' l) := by
  rintro t ⟨o, k, ps, hl, hps, ht⟩
  obtain ⟨head, hhead⟩ := hps.head
  obtain ⟨rows, index, hrows, hindex, hstores⟩ := hps.stores
  obtain ⟨ps', hps', hx⟩ := h hl hps hhead hrows hindex hstores
  obtain ⟨t', hperform, ht'⟩ := hx t ht
  exact ⟨t', hperform, o, k, ps', hl, hps', ht'⟩

theorem gives_ensureUsable {P : FileTree → Prop} (hname : isUsableName name = true) :
    Gives P (liftM (ensureUsableName name) : Filing Unit) (.ok ()) P := by
  rw [ensureUsableName, hname]
  exact Gives.lift (.ok ())

theorem gives_list :
    Gives (IsOpen title path s l) l.list (.ok (s.names.map fun name ↦ ⟨name, title ++ "#" ++ name⟩))
      (IsOpen title path s l) := by
  refine gives_of_started ?_
  rintro o k ps head rows index rfl hps hhead - hindex hstores
  have hnames : index.map Prod.fst = s.names := by
    refine Shelf.eq_names (fun n ↦ hstores.mem_names_iff) ?_ ?_
    · exact List.pairwise_map.mpr (hstores.ascending.imp ne_of_lt)
    · exact List.pairwise_map.mpr (hstores.ascending.imp le_of_lt)
  refine ⟨ps, hps, (gives_startReady hhead).bind ((gives_index hindex).bind ?_)⟩
  rw [← hnames, List.map_map]
  exact Gives.pure _

theorem gives_load (hname : isUsableName name = true) :
    Gives (IsOpen title path s l) (l.load name)
      (need (.notFound name) (s.lookup name) >>= ruleSetOfText title) (IsOpen title path s l) := by
  refine gives_of_started ?_
  rintro o k ps head rows index rfl hps hhead hrows hindex hstores
  refine ⟨ps, hps, (gives_ensureUsable hname).bind ((gives_startReady hhead).bind
    ((gives_index hindex).bind ?_))⟩
  cases hlookup : index.lookup name with
  | none =>
    rw [hstores.lookup_eq_none_iff.mp hlookup]
    exact (Gives.lift (.error (.notFound name))).bind_error
  | some number =>
    obtain ⟨row, hrow, -, htext⟩ := hstores.row name number (hstores.lookup_eq_some_iff.mp hlookup)
    rw [htext]
    refine (Gives.lift (.ok number)).bind ((gives_row hrows hrow).bind ?_)
    exact Gives.lift (ruleSetOfText title row.text)

theorem gives_added (hps : Shelves s ps) {rows : List Ledger.Row} {index : Ledger.Index}
    {text : String} (hstores : Ledger.Stores (fun name ↦ s.lookup name) rows index)
    (hname : s.lookup name = none) :
    ∃ ps', Shelves (s.insert name text) ps' ∧
      Gives (o.Started path k ps) (o.write (Ledger.added rows index name text true)) (.ok ())
        (o.Started path k ps') := by
  have hadded := hstores.added hname text true
  rw [← Shelf.lookup_insert_eq_update] at hadded
  exact ⟨_, hps.write hadded, gives_write_of_started (List.cons_ne_nil _ _)⟩

/-- A row that has the text already stays as it is, and otherwise gets it. -/
theorem gives_revised (hps : Shelves s ps) {rows : List Ledger.Row} {index : Ledger.Index}
    {row : Ledger.Row} {number : Nat} {text : String} (hindex : ps.index = some index)
    (hstores : Ledger.Stores (fun name ↦ s.lookup name) rows index)
    (hentry : (name, number) ∈ index) (hrow : Ledger.rowOf number rows = some row)
    (htext : s.lookup name = some row.text) :
    ∃ ps', Shelves (s.insert name text) ps' ∧
      Gives (o.Started path k ps) (o.write (Ledger.revised rows row text)) (.ok ())
        (o.Started path k ps') := by
  by_cases hsame : row = { row with text, isDated := true }
  · have hsame' : row.text = text := congrArg Ledger.Row.text hsame
    rw [Ledger.revised, if_pos hsame, Shelf.insert_of_lookup (hsame' ▸ htext)]
    exact ⟨ps, hps, gives_write_nil⟩
  · have hrevised := hstores.revised hentry hrow text true
    rw [← Shelf.lookup_insert_eq_update] at hrevised
    rw [Ledger.revised, if_neg hsame]
    exact ⟨_, hps.write_rows hindex hrevised, gives_write_of_started (List.cons_ne_nil _ _)⟩

theorem gives_save {w : RuleSet} (hname : isUsableName w.name = true) :
    Gives (IsOpen title path s l) (l.save w) (.ok ())
      (IsOpen title path (s.insert w.name w.text) l) := by
  refine gives_of_started ?_
  rintro o k ps head rows index rfl hps hhead hrows hindex hstores
  cases hlookup : index.lookup w.name with
  | none =>
    obtain ⟨ps', hps', hwrite⟩ := gives_added hps hstores (hstores.lookup_eq_none_iff.mp hlookup)
    refine ⟨ps', hps', (gives_ensureUsable hname).bind ((gives_startChange hhead).bind
      ((gives_rows hrows).bind ((gives_index hindex).bind ?_)))⟩
    rw [hlookup]
    exact hwrite
  | some number =>
    have hentry := hstores.lookup_eq_some_iff.mp hlookup
    obtain ⟨row, hrow, -, htext⟩ := hstores.row w.name number hentry
    obtain ⟨ps', hps', hwrite⟩ := gives_revised hps hindex hstores hentry hrow htext
    refine ⟨ps', hps', (gives_ensureUsable hname).bind ((gives_startChange hhead).bind
      ((gives_rows hrows).bind ((gives_index hindex).bind ?_)))⟩
    rw [hlookup]
    exact (gives_row hrows hrow).bind hwrite

theorem gives_delete {text : String} (hname : isUsableName name = true)
    (htext : s.lookup name = some text) :
    Gives (IsOpen title path s l) (l.delete name) (.ok ())
      (IsOpen title path (s.erase name) l) := by
  refine gives_of_started ?_
  rintro o k ps head rows index rfl hps hhead hrows hindex hstores
  cases hlookup : index.lookup name with
  | none => exact absurd (hstores.lookup_eq_none_iff.mp hlookup) (by simp [htext])
  | some number =>
    have hentry := hstores.lookup_eq_some_iff.mp hlookup
    obtain ⟨row, hrow, hrowName, -⟩ := hstores.row name number hentry
    have hremoved := hstores.removed hentry hrow
    rw [← Shelf.lookup_erase_eq_update] at hremoved
    refine ⟨_, hps.write hremoved, (gives_ensureUsable hname).bind ((gives_startChange hhead).bind
      ((gives_index hindex).bind ?_))⟩
    rw [hlookup]
    refine (Gives.lift (.ok number)).bind ((gives_row hrows hrow).bind ((gives_rows hrows).bind ?_))
    exact gives_write_of_started (List.cons_ne_nil _ _)

theorem gives_delete_missing (hname : isUsableName name = true) (hmissing : s.lookup name = none) :
    Gives (IsOpen title path s l) (l.delete name) (.error (.notFound name))
      (IsOpen title path s l) := by
  refine gives_of_started ?_
  rintro o k ps head rows index rfl hps hhead hrows hindex hstores
  refine ⟨ps, hps, (gives_ensureUsable hname).bind ((gives_startChange hhead).bind
    ((gives_index hindex).bind ?_))⟩
  rw [hstores.lookup_eq_none_iff.mpr hmissing]
  exact (Gives.lift (.error (.notFound name))).bind_error

theorem gives_detach : Gives (IsOpen title path s l) l.detach (.ok ()) (IsClosed path s) := by
  rintro t ⟨o, k, ps, rfl, hps, ht⟩
  obtain ⟨t', hdetach, ht'⟩ := OpenLedger.gives_detach t ht
  exact ⟨t', hdetach, .inr ⟨k, ps, hps, ht'⟩⟩

/-- **A ledger stands for a shelf.** -/
theorem backs (title path : String) :
    Library.Backs (.ledger title (.file path {})) (fun _ ↦ True) (IsClosed path)
      (IsOpen title path) where
  attach := by
    rintro s t (⟨rfl, p, ht⟩ | ⟨k, ps, hps, ht⟩)
    · obtain ⟨o, t₁, hattach, ht₁⟩ := perform_attach_new ht title
      exact perform_attach hattach ht₁ gives_prepare_blank shelves_empty
    · obtain ⟨o, t₁, hattach, ht₁⟩ := OpenLedger.perform_attach ht title
      exact perform_attach hattach ht₁ (gives_prepare hps) hps
  detach := gives_detach
  list := ⟨_, gives_list⟩
  load hname := ⟨title, gives_load hname⟩
  save hname _ := gives_save hname
  delete hname htext := gives_delete hname htext
  delete_missing hname hmissing := gives_delete_missing hname hmissing

end LedgerLibrary

end Tabletop
