import Tabletop.Library.LedgerChange
import Tabletop.Proofs.Files.Ledger
import Tabletop.Proofs.Files.LedgerPlace
import Tabletop.Proofs.Library.Filing

/-!
# Ledgers with nothing in their way

What an open ledger does as long as no file beside it matters: `Rests` says so of the files, and
which ledger it is and what is known of it. The first use makes the head known, and from then on
what is known is part of what is stored (`Started`), since pages are read as they are stored
(`gives_page`), and written both to the file and to what is known (`gives_write`).
-/

namespace Tabletop

namespace FileTree.HasLedger

variable {t : FileTree} {path : String} {k : FileKey} {n : Node}

theorem pagesOf (h : t.HasLedger path k n) : t.pagesOf k = n.toPages := by
  rw [FileTree.pagesOf, h.file]
  rfl

theorem otherLog (h : t.HasLedger path k n) (o : OpenLedger) : o.otherLog? k t = none := by
  rw [OpenLedger.otherLog?, List.findSome?_eq_none_iff]
  intro c? hc
  cases c? with
  | none => rfl
  | some c =>
    have hmem : some c ∈ t.opened :=
      (List.mem_or_eq_of_mem_set hc).resolve_right (Option.some_ne_none c)
    rw [Option.bind_some]
    split
    · exact h.unlogged c hmem ‹_›
    · rfl

end FileTree.HasLedger

namespace OpenLedger

open Filing FileTree

/-- A ledger is open on a file with nothing in its way, and what is known of its pages. -/
structure Rests (o : OpenLedger) (path : String) (k : FileKey) (n : Node) (known : Ledger.Pages)
    (t : FileTree) : Prop extends t.HasLedger path k n where
  connection : t.opened[o.number]? = some (some ⟨some k, true, .all, known, none⟩)

variable {α : Type} {o : OpenLedger} {path s : String} {k : FileKey} {n : Node}
  {known ps : Ledger.Pages} {x : Filing α}

/-! ## Looking at the connection -/

theorem gives_connection :
    Gives (o.Rests path k n known) o.connection (.ok ⟨some k, true, .all, known, none⟩)
      (o.Rests path k n known) := by
  intro t ht
  refine ⟨t, ?_, ht⟩
  simp [OpenLedger.connection, ht.connection, need]

theorem perform_ensure (t : FileTree) {condition : Bool} (fault : LedgerFault)
    (h : condition = true) : t.perform (ensure fault condition) = (.ok (), t) := by
  subst h
  rfl

theorem gives_ensure {P : FileTree → Prop} {condition : Bool} (fault : LedgerFault)
    (h : condition = true) : Gives P (ensure fault condition) (.ok ()) P :=
  fun t ht ↦ ⟨t, perform_ensure t fault h, ht⟩

theorem gives_know (f : Ledger.Pages → Ledger.Pages) :
    Gives (o.Rests path k n known) (o.know f) (.ok ()) (o.Rests path k n (f known)) := by
  intro t ht
  refine ⟨_, rfl, ht.with_opened ?_, ?_⟩
  · intro c hc hhome
    rw [List.modify_eq_set, ht.connection] at hc
    rcases List.mem_or_eq_of_mem_set hc with hc | hc
    · exact ht.unlogged c hc hhome
    · obtain rfl := Option.some.inj hc
      rfl
  · simp [ht.connection]

/-! ## Starting a use -/

theorem gives_settleJournal (c : Connection) :
    Gives (o.Rests path k n known) (o.settleJournal c k) (.ok ()) (o.Rests path k n known) := by
  refine Gives.get_bind fun t ht ↦ ?_
  have hjournal : t.isTaken (Place.journal k.place) = false := by rw [isTaken, ht.journal]; rfl
  simp only [hjournal]
  exact fun t' ht' ↦ ⟨t', rfl, ht' ▸ ht⟩

theorem gives_settleLog (c : Connection) :
    Gives (o.Rests path k n known) (o.settleLog c k) (.ok ()) (o.Rests path k n known) := by
  refine Gives.get_bind fun t ht ↦ ?_
  have hlog : t.isTaken (Place.log k.place) = false := by rw [isTaken, ht.log]; rfl
  simp only [hlog]
  exact fun t' ht' ↦ ⟨t', rfl, ht' ▸ ht⟩

theorem gives_refresh :
    Gives (o.Rests path k n known) (o.refresh k) (.ok ())
      (o.Rests path k n (if known.head = n.toPages.head then known else {})) := by
  refine Gives.get_bind fun t ht ↦ ?_
  rw [ht.pagesOf]
  exact (gives_know _).mono (fun t' ht' ↦ ht' ▸ ht) fun _ h ↦ h

/-- A use starts by reading the head, if what is known goes with it. -/
theorem gives_start {isReady : Bool} {known' : Ledger.Pages}
    (hread : Gives (o.Rests path k n (if known.head = n.toPages.head then known else {}))
      (o.readHead k) (.ok isReady) (o.Rests path k n known')) :
    Gives (o.Rests path k n known) o.start (.ok isReady) (o.Rests path k n known') := by
  refine gives_connection.bind ?_
  dsimp only
  refine (gives_settleJournal _).bind (gives_refresh.bind ((gives_settleLog _).bind ?_))
  exact gives_connection.bind ((Gives.pure _).bind hread)

/-- A head that is known only has to be that of a whole file. -/
theorem gives_readHead_of_known {h : Nat} (hknown : known.head = some h) :
    Gives (o.Rests path k (.ledger ps) known) (o.readHead k) (.ok true)
      (o.Rests path k (.ledger ps) known) := by
  refine Gives.get_bind fun t ht ↦ ?_
  refine (gives_connection.mono (fun t' ht' ↦ ht' ▸ ht) fun _ h ↦ h).bind ?_
  simp only [hknown, ht.file]
  exact (gives_ensure _ (by rfl)).bind (Gives.pure _)

theorem gives_readHead {h : Nat} (hknown : known.head = none) (hhead : ps.head = some h) :
    Gives (o.Rests path k (.ledger ps) known) (o.readHead k) (.ok true)
      (o.Rests path k (.ledger ps) { known with head := some h }) := by
  refine Gives.get_bind fun t ht ↦ ?_
  refine (gives_connection.mono (fun t' ht' ↦ ht' ▸ ht) fun _ h ↦ h).bind ?_
  simp only [hknown, ht.file, hhead]
  exact (Gives.lift (.ok h)).bind ((gives_know _).bind (Gives.pure _))

/-- A blank file is not ready. -/
theorem gives_readHead_blank (hknown : known.head = none) (hblank : s.utf8ByteSize ≤ 1) :
    Gives (o.Rests path k (.text s) known) (o.readHead k) (.ok false)
      (o.Rests path k (.text s) known) := by
  refine Gives.get_bind fun t ht ↦ ?_
  refine (gives_connection.mono (fun t' ht' ↦ ht' ▸ ht) fun _ h ↦ h).bind ?_
  simp only [hknown, ht.file]
  exact (gives_ensure _ (by simp [Node.isBlank, Node.bytes, hblank])).bind (Gives.pure _)

/-! ## Between uses -/

/-- A ledger is open, and has been used: what is known of it is part of what is stored. -/
def Started (o : OpenLedger) (path : String) (k : FileKey) (ps : Ledger.Pages) (t : FileTree) :
    Prop :=
  ∃ known, known.IsPartOf ps ∧ o.Rests path k (.ledger ps) known t

theorem Rests.started {t : FileTree} (ht : o.Rests path k (.ledger ps) known t)
    (hknown : known.IsPartOf ps) : o.Started path k ps t := ⟨known, hknown, ht⟩

/-- What an operation does whatever part is known. -/
theorem gives_of_known {r : Except LibraryError α} {Q : FileTree → Prop}
    (h : ∀ known, known.IsPartOf ps → Gives (o.Rests path k (.ledger ps) known) x r Q) :
    Gives (o.Started path k ps) x r Q := fun t ⟨known, hknown, ht⟩ ↦ h known hknown t ht

/-- **The first use.** Nothing is known yet. -/
theorem gives_start_of_unknown {h : Nat} (hhead : ps.head = some h) :
    Gives (o.Rests path k (.ledger ps) {}) o.start (.ok true) (o.Started path k ps) := by
  have hstart : Gives (o.Rests path k (.ledger ps) {}) o.start (.ok true)
      (o.Rests path k (.ledger ps) { head := some h }) := by
    refine gives_start ?_
    rw [ite_self]
    exact gives_readHead rfl hhead
  refine hstart.mono (fun _ ht ↦ ht) fun t ht ↦ ht.started ⟨hhead.symm, fun part page hpage ↦ ?_⟩
  cases part <;> exact absurd hpage (by simp [Ledger.Pages.get?])

/-- **All other uses.** -/
theorem gives_start_of_started {h : Nat} (hhead : ps.head = some h) :
    Gives (o.Started path k ps) o.start (.ok true) (o.Started path k ps) := by
  refine gives_of_known fun known hknown ↦ ?_
  have hstart : Gives (o.Rests path k (.ledger ps) known) o.start (.ok true)
      (o.Rests path k (.ledger ps) known) := by
    refine gives_start ?_
    rw [if_pos (show known.head = (Node.ledger ps).toPages.head from hknown.head)]
    exact gives_readHead_of_known (hknown.head.trans hhead)
  exact hstart.mono (fun _ ht ↦ ht) fun t ht ↦ ht.started hknown

theorem gives_startReady {h : Nat} (hhead : ps.head = some h) :
    Gives (o.Started path k ps) o.startReady (.ok ()) (o.Started path k ps) :=
  (gives_start_of_started hhead).bind (gives_ensure _ rfl)

theorem gives_ensureWritable :
    Gives (o.Rests path k n known) o.ensureWritable (.ok ()) (o.Rests path k n known) := by
  refine Gives.get_bind fun t ht ↦ ?_
  refine (gives_connection.mono (fun t' ht' ↦ ht' ▸ ht) fun _ h ↦ h).bind ?_
  exact gives_ensure _ rfl

theorem gives_startChange {h : Nat} (hhead : ps.head = some h) :
    Gives (o.Started path k ps) o.startChange (.ok ()) (o.Started path k ps) := by
  refine gives_of_known fun known hknown ↦ gives_connection.bind ?_
  refine ((gives_start_of_started hhead).mono (fun _ ht ↦ ht.started hknown) fun _ h ↦ h).bind ?_
  exact gives_of_known fun known' hknown' ↦
    gives_ensureWritable.mono (fun _ h ↦ h) fun _ ht ↦ ht.started hknown'

/-! ## Reading pages -/

theorem gives_learn {page : Ledger.Page} (hpage : ps.get? page.part = some page) :
    Gives (o.Started path k ps) (o.learn page.part) (.ok ()) fun t ↦
      ∃ known, known.IsPartOf ps ∧ known.get? page.part = some page ∧
        o.Rests path k (.ledger ps) known t := by
  refine gives_of_known fun known hknown ↦ Gives.get_bind fun t ht ↦ ?_
  refine (gives_connection.mono (fun t' ht' ↦ ht' ▸ ht) fun _ h ↦ h).bind ?_
  cases hpart : known.get? page.part with
  | some page' =>
    obtain rfl : page' = page := Option.some.inj ((hknown.pages _ _ hpart).symm.trans hpage)
    exact fun t' ht' ↦ ⟨t', rfl, known, hknown, hpart, ht'⟩
  | none =>
    have hstored : storedPage t ⟨some k, true, .all, known, none⟩ page.part = .ok page := by
      simp [storedPage, ht.pagesOf, Node.toPages, hpage, need]
    simp only [hstored]
    refine (Gives.lift (.ok page)).bind ((gives_know _).mono (fun _ h ↦ h) fun t' ht' ↦ ?_)
    refine ⟨known.put page, hknown.learn hpage, ?_, ht'⟩
    rw [Ledger.Pages.get?_put, if_pos rfl]

/-- **A page is read as it is stored.** -/
theorem gives_page (page : Ledger.Page) {get? : Ledger.Pages → Option α} {a : α}
    (hpage : ps.get? page.part = some page)
    (hget : ∀ known : Ledger.Pages, known.get? page.part = some page → get? known = some a) :
    Gives (o.Started path k ps) (o.page page.part get?) (.ok a) (o.Started path k ps) := by
  refine (gives_learn hpage).bind ?_
  rintro t ⟨known, hknown, hlearnt, ht⟩
  obtain ⟨t', hperform, ht'⟩ := gives_connection t ht
  refine ⟨t', ?_, ht'.started hknown⟩
  rw [perform_bind_of_ok hperform, hget known hlearnt]
  rfl

theorem gives_version {v : Int} (h : ps.version = some v) :
    Gives (o.Started path k ps) o.version (.ok v) (o.Started path k ps) :=
  gives_page (.version v) (by simp [Ledger.Pages.get?, Ledger.Page.part, h])
    (by simp [Ledger.Pages.get?, Ledger.Page.part])

theorem gives_rows {rows : List Ledger.Row} (h : ps.rows = some rows) :
    Gives (o.Started path k ps) o.rows (.ok rows) (o.Started path k ps) :=
  gives_page (.rows rows) (by simp [Ledger.Pages.get?, Ledger.Page.part, h])
    (by simp [Ledger.Pages.get?, Ledger.Page.part])

theorem gives_index {index : Ledger.Index} (h : ps.index = some index) :
    Gives (o.Started path k ps) o.index (.ok index) (o.Started path k ps) :=
  gives_page (.index index) (by simp [Ledger.Pages.get?, Ledger.Page.part, h])
    (by simp [Ledger.Pages.get?, Ledger.Page.part])

theorem gives_row {rows : List Ledger.Row} {number : Nat} {row : Ledger.Row}
    (h : ps.rows = some rows) (hrow : Ledger.rowOf number rows = some row) :
    Gives (o.Started path k ps) (o.row number) (.ok row) (o.Started path k ps) := by
  refine (gives_rows h).bind ?_
  rw [hrow]
  exact (Gives.lift (.ok row)).bind (Gives.pure row)

/-! ## Writing pages -/

theorem gives_passJournal :
    Gives (o.Rests path k n known) (passJournal k) (.ok ()) (o.Rests path k n known) := by
  refine Gives.get_bind fun t ht ↦ ?_
  have hlost : isLost t k = false := by rw [isLost, ht.isThere]; rfl
  have hfolder : t.isFolder (Place.journal k.place) = false := by
    rw [isFolder, ht.journal]
    rfl
  simp only [hlost, hfolder, ht.room, unlink_of_none ht.journal]
  refine (gives_ensure _ rfl).bind ((gives_ensure _ rfl).bind ?_)
  exact fun t' ht' ↦ ⟨t, rfl, ht⟩

theorem Rests.putFile {t : FileTree} (ht : o.Rests path k n known t) {n' : Node}
    (hn' : n' ≠ .folder) : o.Rests path k n' known (t.putFile k n') := by
  refine ⟨ht.toHasLedger.putFile hn', ?_⟩
  rw [FileTree.putFile, if_neg (by simp [ht.isThere])]
  exact ht.connection

/-- **Pages that are written are stored**, and what is known is part of them again. -/
theorem gives_write {pages : List Ledger.Page} (hpages : pages ≠ [])
    (hknown : known.IsPartOf n.toPages) :
    Gives (o.Rests path k n known) (o.write pages) (.ok ())
      (o.Started path k (n.toPages.change pages)) := by
  have hempty : pages.isEmpty = false := by simpa using hpages
  refine gives_connection.bind ?_
  simp only [writeFile, hempty]
  refine gives_passJournal.bind (Gives.get_bind fun t ht ↦ ?_)
  rw [ht.otherLog]
  refine (gives_ensure _ rfl).bind ?_
  rintro t rfl
  have hput : o.Rests path k (.ledger (n.toPages.change pages)) known
      (t.putFile k (.ledger (n.toPages.change pages))) := ht.putFile (by simp)
  obtain ⟨t₁, hperform, ht₁⟩ := gives_know (·.change pages) _ hput
  refine ⟨t₁, ?_, ht₁.started (hknown.change pages)⟩
  rw [← hperform, ← ht.pagesOf]
  rfl

theorem gives_write_of_started {pages : List Ledger.Page} (hpages : pages ≠ []) :
    Gives (o.Started path k ps) (o.write pages) (.ok ()) (o.Started path k (ps.change pages)) :=
  gives_of_known fun _ hknown ↦ gives_write (n := .ledger ps) hpages hknown

/-- Nothing is written, but it could have been. -/
theorem gives_write_nil :
    Gives (o.Started path k ps) (o.write []) (.ok ()) (o.Started path k ps) := by
  refine gives_of_known fun known hknown ↦ gives_connection.bind ?_
  refine Gives.get_bind fun t ht ↦ ?_
  rw [ht.otherLog]
  refine (gives_ensure _ rfl).bind ?_
  rintro t' rfl
  exact ⟨t', rfl, ht.started hknown⟩

/-! ## Opening and closing -/

theorem perform_connect {t : FileTree} (ht : t.HasLedger path k n) :
    ∃ o t', t.perform (connect ⟨some k, true, .all, {}, none⟩) = (.ok o, t') ∧
      o.Rests path k n {} t' := by
  refine ⟨_, _, rfl, ht.with_opened ?_, ?_⟩
  · intro c hc hhome
    rcases List.mem_append.mp hc with hc | hc
    · exact ht.unlogged c hc hhome
    · obtain rfl := Option.some.inj (List.mem_singleton.mp hc)
      rfl
  · exact List.getElem?_concat_length

/-- A file that is there is opened. -/
theorem perform_attach {t : FileTree} (ht : t.HasLedger path k n) (title : String) :
    ∃ o t', t.perform (attach title (.file path {})) = (.ok o, t') ∧ o.Rests path k n {} t' := by
  have hfile : (n != .folder) = true := by simpa using ht.isFile
  obtain ⟨o, t', hconnect, ht'⟩ := perform_connect ht
  refine ⟨o, t', ?_, ht'⟩
  rw [← hconnect, attach, perform_get_bind, perform_lift_bind_of_ok (need_eq_ok_iff.mpr ht.leads)]
  refine (perform_bind_of_ok (perform_ensure t _ rfl) _).trans ?_
  rw [ht.node, ht.key]
  exact perform_bind_of_ok (perform_ensure t _ (by simp [hfile])) _

/-- A file that is not there is made, and left blank. -/
theorem perform_attach_new {t : FileTree} {p : Place} (ht : t.HasRoomForLedger path p)
    (title : String) :
    ∃ o t', t.perform (attach title (.file path {})) = (.ok o, t') ∧
      o.Rests path (t.keyAt p) (.text "") {} t' := by
  have hleads : t.ledgerPlace? path = some p :=
    ledgerPlace?_mono (fun _ ↦ hasRoom_of_put ht.isNew) rfl ht.leads
  obtain ⟨o, t', hconnect, ht'⟩ := perform_connect ht.put
  refine ⟨o, t', ?_, ht'⟩
  rw [← hconnect, attach, perform_get_bind, perform_lift_bind_of_ok (need_eq_ok_iff.mpr hleads)]
  refine (perform_bind_of_ok (perform_ensure t _ rfl) _).trans ?_
  rw [ht.isNew]
  exact perform_bind_of_ok (perform_ensure t _ (by simp [ht.folder])) _

theorem gives_detach :
    Gives (o.Started path k ps) o.detach (.ok ()) (·.HasLedger path k (.ledger ps)) := by
  refine gives_of_known fun known hknown ↦ gives_connection.bind ?_
  rintro t ht
  refine ⟨_, rfl, ht.with_opened fun c hc hhome ↦ ?_⟩
  have hmem : some c ∈ t.opened :=
    (List.mem_or_eq_of_mem_set hc).resolve_right (Option.some_ne_none c)
  exact ht.unlogged c hmem hhome

end OpenLedger

end Tabletop
