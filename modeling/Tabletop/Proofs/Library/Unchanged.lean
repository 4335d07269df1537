import Tabletop.Proofs.Library.Shelf
import Tabletop.Proofs.Library.Trouble

/-!
# What a library leaves unchanged

Two states of the files hold the same rule sets for a library if the library lists the same then,
and has the same text under every name (`Library.SameStore`). So it is after an operation that only
reads, and after one that fails, as long as the files and the ledger themselves can be used.

A folder is only looked at before anything can fail without trouble. A ledger is put to use first,
which may change its files but happens once; what it says after that stays the same
(`OpenLedger.Shows`).
-/

namespace Tabletop

open FileTree

/-! ## The rule sets of a library -/

namespace Library

open Filing

/-- Reads the text that is stored under a name. -/
def textOf (l : Library) (name : String) : Filing String :=
  match l with
  | folder root => do
    FolderLibrary.ensureStored root name
    Filing.read (FolderLibrary.gamePath root name)
  | ledger _ o => do
    ensureUsableName name
    o.startReady
    let index ← o.index
    let number ← need (LibraryError.notFound name) (index.lookup name)
    let row ← o.row number
    return row.text

/-- A rule set is loaded from its text. -/
theorem load_eq (l : Library) (name : String) :
    ∃ path, l.load name = l.textOf name >>= fun text ↦ liftM (ruleSetOfText path text) := by
  cases l with
  | folder root =>
    exact ⟨FolderLibrary.gamePath root name, by
      simp only [load, FolderLibrary.load, loadFrom, textOf, bind_assoc]
      rfl⟩
  | ledger title o =>
    exact ⟨title, by simp only [load, LedgerLibrary.load, textOf, bind_assoc, pure_bind]⟩

/-- The files hold the same rule sets for a library: it lists the same, and has the same text under
every name. -/
structure SameStore (l : Library) (t t' : FileTree) : Prop where
  list : (t'.perform l.list).1 = (t.perform l.list).1
  text : ∀ name, (t'.perform (l.textOf name)).1 = (t.perform (l.textOf name)).1

namespace SameStore

variable {l : Library} {t t' t'' : FileTree}

@[refl] theorem refl (l : Library) (t : FileTree) : l.SameStore t t := ⟨rfl, fun _ ↦ rfl⟩

theorem trans (h : l.SameStore t t') (h' : l.SameStore t' t'') : l.SameStore t t'' :=
  ⟨h'.list.trans h.list, fun name ↦ (h'.text name).trans (h.text name)⟩

/-- The same rule set is loaded under every name. -/
theorem load (h : l.SameStore t t') (name : String) :
    (t'.perform (l.load name)).1 = (t.perform (l.load name)).1 := by
  obtain ⟨path, hload⟩ := l.load_eq name
  have htext := h.text name
  rw [hload, perform_bind, perform_bind]
  generalize t'.perform (l.textOf name) = p', t.perform (l.textOf name) = p at htext ⊢
  obtain ⟨result, t₁⟩ := p
  obtain ⟨result', t₂⟩ := p'
  obtain rfl : result' = result := htext
  cases result' <;> rfl

end SameStore

/-! ## Ledgers -/

section Ledger

open OpenLedger

variable {α : Type} {o : OpenLedger} {t t' t₁ t₂ : FileTree} {title name : String}
  {shown : Ledger.Part → Except LedgerFault Ledger.Page} {rest : Unit → Filing α}
  {r : Except LibraryError α}

theorem perform_startReady (h : t.perform o.start = (.ok true, t₁)) :
    t.perform o.startReady = (.ok (), t₁) := by
  rw [startReady, perform_bind_of_ok h]
  rfl

/-- Once the ledger is ready, the result is that of the pages. -/
theorem fst_perform_startReady_bind (hstart : t.perform o.start = (.ok true, t₁))
    (h₁ : o.Shows shown t₁) (hrest : Reads (o.Shows shown) (rest ()) r) :
    (t.perform (o.startReady >>= rest)).1 = r := by
  obtain ⟨t₂, hperform, -⟩ := hrest t₁ h₁
  rw [perform_bind_of_ok (perform_startReady hstart), hperform]

theorem reads_listing : Reads (o.Shows shown)
    (do
      let index ← o.index
      return index.map fun (name, _) ↦ (⟨name, title ++ "#" ++ name⟩ : Entry))
    (do
      let index ← readFrom (·.index) (shown .index)
      return index.map fun (name, _) ↦ ⟨name, title ++ "#" ++ name⟩) :=
  reads_index.bind fun _ _ ↦ .lift (.ok _)

theorem reads_text : Reads (o.Shows shown)
    (do
      let index ← o.index
      let number ← need (LibraryError.notFound name) (index.lookup name)
      let row ← o.row number
      return row.text)
    (do
      let index ← readFrom (·.index) (shown .index)
      let number ← need (LibraryError.notFound name) (index.lookup name)
      let row ← readRow shown number
      return row.text) :=
  reads_index.bind fun _ _ ↦ (Reads.lift _).bind fun _ _ ↦
    (reads_row _).bind fun _ _ ↦ .lift (.ok _)

/-- A ledger whose pages say the same holds the same rule sets. -/
theorem sameStore_of_shows (title : String) (hstart : t.perform o.start = (.ok true, t₁))
    (h₁ : o.Shows shown t₁) (h₂ : o.Shows shown t₂) : (ledger title o).SameStore t t₂ where
  list := (fst_perform_startReady_bind h₂.perform_start h₂ reads_listing).trans
    (fst_perform_startReady_bind hstart h₁ reads_listing).symm
  text name := by
    change (t₂.perform (liftM (ensureUsableName name) >>= fun _ ↦ o.startReady >>= _)).1 =
      (t.perform (liftM (ensureUsableName name) >>= fun _ ↦ o.startReady >>= _)).1
    cases hname : ensureUsableName name with
    | error e => rfl
    | ok u =>
      exact (fst_perform_startReady_bind h₂.perform_start h₂ reads_text).trans
        (fst_perform_startReady_bind hstart h₁ reads_text).symm

/-- A ledger that is only read holds the same rule sets after that, unless there is trouble. -/
theorem sameStore_of_reads (title : String) {answer : Except LibraryError α}
    {r : (Ledger.Part → Except LedgerFault Ledger.Page) → Except LibraryError α}
    (hrest : ∀ shown, Reads (o.Shows shown) (rest ()) (r shown))
    (h : t.perform (o.startReady >>= rest) = (answer, t')) (hcalm : IsCalm answer) :
    (ledger title o).SameStore t t' := by
  rw [startReady] at h
  rcases hstart : t.perform o.start with ⟨e | isReady, t₁⟩
  · rw [perform_bind_of_error (perform_bind_of_error hstart _)] at h
    obtain ⟨rfl, -⟩ := Prod.mk.inj h
    exact absurd (failsByTrouble_start hstart) (by simp [hcalm e rfl])
  · cases isReady with
    | false =>
      rw [perform_bind_of_error (perform_bind_of_ok hstart _)] at h
      obtain ⟨rfl, -⟩ := Prod.mk.inj h
      exact absurd hcalm (not_isCalm_ledger _)
    | true =>
      obtain ⟨shown, h₁⟩ := exists_shows_of_start hstart
      obtain ⟨t₂, hperform, h₂⟩ := hrest shown t₁ h₁
      rw [← startReady, perform_bind_of_ok (perform_startReady hstart), hperform] at h
      obtain ⟨rfl, rfl⟩ := Prod.mk.inj h
      exact sameStore_of_shows title hstart h₁ (h₂ hcalm)

/-- A change of a ledger that fails for want of what is asked for. -/
theorem sameStore_of_startChange (title : String) {e : LibraryError}
    (h : t.perform (do
      o.startChange
      let index ← o.index
      let number ← need (LibraryError.notFound name) (index.lookup name)
      let row ← o.row number
      o.write (Ledger.removed (← o.rows) index row)) = (.error e, t'))
    (he : e.isTrouble = false) : (ledger title o).SameStore t t' := by
  have hcalm : e.isTrouble ≠ true := Bool.eq_false_iff.mp he
  obtain h | ⟨_, t₁, hstart, h⟩ := perform_bind_eq_error_iff.mp h
  · exact absurd (failsByTrouble_startChange h) hcalm
  have hstart := start_of_startChange hstart
  obtain ⟨shown, h₁⟩ := exists_shows_of_start hstart
  obtain h | ⟨index, t₂, hindex, h⟩ := perform_bind_eq_error_iff.mp h
  · exact absurd (failsByTrouble_page _ _ h) hcalm
  obtain ⟨_, hperform, h₂⟩ := reads_index t₁ h₁
  obtain ⟨hresult, rfl⟩ := Prod.mk.inj (hperform.symm.trans hindex)
  have h₂ := h₂ (hresult ▸ isCalm_ok index)
  obtain h | ⟨number, t₃, -, h⟩ := perform_bind_eq_error_iff.mp h
  · -- nothing is stored under the name
    obtain rfl := (Prod.mk.inj h).2
    exact sameStore_of_shows title hstart h₁ h₂
  · refine absurd ?_ hcalm
    exact FailsByTrouble.bind (failsByTrouble_row number) (fun _ ↦
      .bind (failsByTrouble_page _ _) fun _ ↦ failsByTrouble_write _) h

end Ledger

/-! ## Operations -/

variable {l : Library} {t t' : FileTree} {name : String} {e : LibraryError}

theorem sameStore_of_looks {α : Type} {x : Filing α} {answer : Except LibraryError α}
    (hx : Looks x) (h : t.perform x = (answer, t')) : l.SameStore t t' := by
  have ht := hx t
  rw [h] at ht
  rw [show t' = t from ht]

theorem looks_ensureStored (root name : String) : Looks (FolderLibrary.ensureStored root name) :=
  (Looks.lift _).bind fun _ ↦ (looks_has _).bind fun _ ↦ .lift _

/-- An operation that looks first, and then fails by trouble only. -/
theorem sameStore_of_looks_bind {α β : Type} {x : Filing α} {f : α → Filing β} (hx : Looks x)
    (hf : ∀ a, FailsByTrouble (f a)) (h : t.perform (x >>= f) = (.error e, t'))
    (he : e.isTrouble = false) : l.SameStore t t' := by
  obtain h | ⟨a, t₁, -, h⟩ := perform_bind_eq_error_iff.mp h
  · exact sameStore_of_looks hx h
  · exact absurd (hf a h) (Bool.eq_false_iff.mp he)

/-- **Listing changes nothing that is stored.** -/
theorem sameStore_of_list {answer : Except LibraryError (List Entry)}
    (h : t.perform l.list = (answer, t')) (hcalm : IsCalm answer) : l.SameStore t t' := by
  cases l with
  | folder root => exact sameStore_of_looks ((looks_read _).bind fun _ ↦ .lift _) h
  | ledger title o => exact sameStore_of_reads title (fun _ ↦ reads_listing) h hcalm

theorem sameStore_of_textOf {answer : Except LibraryError String}
    (h : t.perform (l.textOf name) = (answer, t')) (hcalm : IsCalm answer) : l.SameStore t t' := by
  cases l with
  | folder root =>
    exact sameStore_of_looks ((looks_ensureStored root name).bind fun _ ↦ looks_read _) h
  | ledger title o =>
    change t.perform (liftM (ensureUsableName name) >>= fun _ ↦ o.startReady >>= _) = _ at h
    cases hname : ensureUsableName name with
    | error e =>
      rw [perform_lift_bind_of_error hname] at h
      obtain rfl := (Prod.mk.inj h).2
      rfl
    | ok u =>
      rw [perform_lift_bind_of_ok hname] at h
      exact sameStore_of_reads title (fun _ ↦ reads_text) h hcalm

/-- **Loading changes nothing that is stored.** -/
theorem sameStore_of_load {answer : Except LibraryError RuleSet}
    (h : t.perform (l.load name) = (answer, t')) (hcalm : IsCalm answer) : l.SameStore t t' := by
  obtain ⟨path, hload⟩ := l.load_eq name
  rw [hload] at h
  rcases htext : t.perform (l.textOf name) with ⟨e | text, t₁⟩
  · rw [perform_bind_of_error htext] at h
    obtain ⟨rfl, rfl⟩ := Prod.mk.inj h
    refine sameStore_of_textOf htext fun e' he ↦ ?_
    exact hcalm e' (congrArg Except.error (Except.error.inj he))
  · rw [perform_bind_of_ok htext, perform_lift] at h
    obtain rfl := (Prod.mk.inj h).2
    exact sameStore_of_textOf htext (isCalm_ok text)

/-- **A rule set that is not saved** changes nothing that is stored. -/
theorem sameStore_of_save_error {w : RuleSet} (h : t.perform (l.save w) = (.error e, t'))
    (he : e.isTrouble = false) : l.SameStore t t' := by
  cases l with
  | folder root =>
    exact sameStore_of_looks_bind (.lift _) (fun _ ↦
      .bind (failsByTrouble_write _ _) fun _ ↦ failsByTrouble_rebuildIndex root) h he
  | ledger title o =>
    refine sameStore_of_looks_bind (.lift _) (fun _ ↦ ?_) h he
    refine .bind OpenLedger.failsByTrouble_startChange fun _ ↦
      .bind (OpenLedger.failsByTrouble_page _ _) fun _ ↦
        .bind (OpenLedger.failsByTrouble_page _ _) fun index ↦ ?_
    split
    · exact OpenLedger.failsByTrouble_write _
    · exact .bind (OpenLedger.failsByTrouble_row _) fun _ ↦ OpenLedger.failsByTrouble_write _

/-- **A rule set that is not deleted** changes nothing that is stored. -/
theorem sameStore_of_delete_error (h : t.perform (l.delete name) = (.error e, t'))
    (he : e.isTrouble = false) : l.SameStore t t' := by
  cases l with
  | folder root =>
    exact sameStore_of_looks_bind (looks_ensureStored root name) (fun _ ↦
      .bind (failsByTrouble_remove _) fun _ ↦ failsByTrouble_rebuildIndex root) h he
  | ledger title o =>
    obtain h | ⟨_, t₁, hname, h⟩ := perform_bind_eq_error_iff.mp h
    · exact sameStore_of_looks (.lift _) h
    · obtain rfl := (Prod.mk.inj hname).2
      exact sameStore_of_startChange title h he

end Library

end Tabletop
