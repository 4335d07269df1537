import Tabletop.Library.Basic
import Tabletop.Proofs.Library.Reading

/-!
# Failing by trouble

Most steps of an operation on a library fail only if files or the ledger cannot be used
(`Filing.FailsByTrouble`). What is left are the few that ask whether a name is usable, whether
something is stored under it, and whether a text describes a rule set.
-/

namespace Tabletop

open FileTree

/-! ## Operations that only look -/

namespace Filing

variable {α β : Type} {x : Filing α} {f : α → Filing β} {t t' : FileTree}

/-- An operation that leaves the files alone. -/
def Looks (x : Filing α) : Prop := ∀ t : FileTree, (t.perform x).2 = t

theorem Looks.lift (y : Except LibraryError α) : Looks (liftM y : Filing α) := fun _ ↦ rfl

theorem Looks.bind (hx : Looks x) (hf : ∀ a, Looks (f a)) : Looks (x >>= f) := fun t ↦ by
  have hxt := hx t
  rw [perform_bind]
  generalize t.perform x = p at hxt ⊢
  rcases p with ⟨e | a, t₁⟩
  · exact hxt
  · exact (hf a t₁).trans hxt

theorem Looks.get_bind {f : FileTree → Filing β} (h : ∀ t, Looks (f t)) : Looks (get >>= f) :=
  fun t ↦ h t t

theorem looks_read (path : String) : Looks (FileAccess.read path) := .get_bind fun _ ↦ .lift _

theorem looks_list (path : String) : Looks (FileAccess.list path) := .get_bind fun _ ↦ .lift _

theorem looks_has (path : String) : Looks (FileAccess.has path) := .get_bind fun _ ↦ .lift (.ok _)

theorem looks_loadFrom (path : String) : Looks (loadFrom path) :=
  (looks_read path).bind fun _ ↦ .lift _

/-! ## Operations that fail by trouble only -/

/-- An operation that does not fail unless files or the ledger cannot be used. -/
def FailsByTrouble (x : Filing α) : Prop :=
  ∀ ⦃t : FileTree⦄ ⦃e t'⦄, t.perform x = (.error e, t') → e.isTrouble = true

namespace FailsByTrouble

theorem pure (a : α) : FailsByTrouble (Pure.pure a : Filing α) := fun _ _ _ h ↦
  nomatch (Prod.mk.inj h).1

theorem set (t : FileTree) : FailsByTrouble (MonadStateOf.set t : Filing PUnit) := fun _ _ _ h ↦
  nomatch (Prod.mk.inj h).1

theorem lift {y : Except LibraryError α} (h : ∀ e, y = .error e → e.isTrouble = true) :
    FailsByTrouble (liftM y : Filing α) := fun _ e _ hy ↦ h e (Prod.mk.inj hy).1

theorem bind (hx : FailsByTrouble x) (hf : ∀ a, FailsByTrouble (f a)) :
    FailsByTrouble (x >>= f) := fun t e t' h ↦ by
  obtain h | ⟨a, t₁, -, h⟩ := perform_bind_eq_error_iff.mp h
  · exact hx h
  · exact hf a h

theorem get_bind {f : FileTree → Filing β} (h : ∀ t, FailsByTrouble (f t)) :
    FailsByTrouble (get >>= f) := fun t _ _ ht ↦ h t ht

/-- A look at a file fails because of the file. -/
theorem file {path : String} (y : Except FileError α) :
    FailsByTrouble (liftM (y.mapError (LibraryError.file path)) : Filing α) :=
  .lift fun e h ↦ by
    obtain ⟨cause, -, rfl⟩ := mapError_eq_error_iff.mp h
    rfl

end FailsByTrouble

theorem failsByTrouble_write (path text : String) :
    FailsByTrouble (FileAccess.write path text) :=
  .get_bind fun _ ↦ .bind (.file _) fun t ↦ .set t

theorem failsByTrouble_remove (path : String) : FailsByTrouble (FileAccess.remove path) :=
  .get_bind fun _ ↦ .bind (.file _) fun t ↦ .set t

theorem failsByTrouble_list (path : String) : FailsByTrouble (FileAccess.list path) :=
  .get_bind fun _ ↦ .file _

theorem failsByTrouble_rebuildIndex (root : String) :
    FailsByTrouble (FolderLibrary.rebuildIndex root) :=
  (failsByTrouble_list _).bind fun _ ↦ failsByTrouble_write _ _

end Filing

namespace OpenLedger

open Filing

variable {α : Type} {o : OpenLedger} {t t' : FileTree}

theorem failsByTrouble_ensure (fault : LedgerFault) (condition : Bool) :
    FailsByTrouble (ensure fault condition) :=
  .lift fun _ h ↦ (require_eq_error_iff.mp h).2 ▸ rfl

theorem failsByTrouble_need (fault : LedgerFault) (a? : Option α) :
    FailsByTrouble (liftM (need (LibraryError.ledger fault) a?) : Filing α) :=
  .lift fun _ h ↦ (need_eq_error_iff.mp h).2 ▸ rfl

theorem failsByTrouble_connection : FailsByTrouble o.connection :=
  .get_bind fun _ ↦ failsByTrouble_need _ _

theorem failsByTrouble_remember (f : Connection → Connection) :
    FailsByTrouble (o.remember f) := fun _ _ _ h ↦ nomatch (Prod.mk.inj h).1

theorem failsByTrouble_settleJournal (c : Connection) (k : FileKey) :
    FailsByTrouble (o.settleJournal c k) := by
  refine .get_bind fun t ↦ ?_
  dsimp only
  split
  · split
    · exact .set _
    · refine .bind (failsByTrouble_ensure _ _) fun _ ↦ ?_
      split
      · exact .pure ()
      · exact .bind (failsByTrouble_ensure _ _) fun _ ↦
          .bind (failsByTrouble_ensure _ _) fun _ ↦ .set _
  · exact .pure ()

theorem failsByTrouble_useLog (k : FileKey) : FailsByTrouble (o.useLog k) := by
  refine .get_bind fun t ↦ ?_
  dsimp only
  split
  · exact .bind (.set _) fun _ ↦ failsByTrouble_remember _
  · exact failsByTrouble_remember _

theorem failsByTrouble_settleLog (c : Connection) (k : FileKey) :
    FailsByTrouble (o.settleLog c k) := by
  refine .get_bind fun t ↦ ?_
  dsimp only
  split
  · split
    · exact .bind (failsByTrouble_ensure _ _) fun _ ↦ .set _
    · exact .bind (failsByTrouble_ensure _ _) fun _ ↦
        .bind (failsByTrouble_ensure _ _) fun _ ↦ failsByTrouble_useLog k
  · exact .pure ()

theorem failsByTrouble_refreshFromLog (u : LogUse) : FailsByTrouble (o.refreshFromLog u) := by
  refine .get_bind fun t ↦ .bind (failsByTrouble_ensure _ _) fun _ ↦ ?_
  dsimp only
  split
  · exact failsByTrouble_remember _
  · exact .pure ()

theorem failsByTrouble_readHead (k : FileKey) : FailsByTrouble (o.readHead k) := by
  refine .get_bind fun t ↦ .bind failsByTrouble_connection fun c ↦ ?_
  dsimp only
  split
  · exact .bind (failsByTrouble_ensure _ _) fun _ ↦ .pure true
  · exact .bind (failsByTrouble_need _ _) fun _ ↦
      .bind (failsByTrouble_remember _) fun _ ↦ .pure true
  · exact fun _ _ _ h ↦ Except.error.inj (Prod.mk.inj h).1 ▸ rfl
  · exact .bind (failsByTrouble_ensure _ _) fun _ ↦ .pure false

theorem failsByTrouble_startFile (c : Connection) (k : FileKey) :
    FailsByTrouble (o.startFile c k) := by
  refine .bind ?_ fun _ ↦ .bind (.get_bind fun _ ↦ failsByTrouble_remember _) fun _ ↦
    .bind ?_ fun _ ↦ .bind failsByTrouble_connection fun c' ↦
      .bind ?_ fun _ ↦ failsByTrouble_readHead k
  · split
    · exact failsByTrouble_settleJournal c k
    · exact .pure ()
  · split
    · exact .pure ()
    · exact failsByTrouble_settleLog c k
  · cases c'.log with
    | none => exact .pure ()
    | some u => exact failsByTrouble_refreshFromLog u

theorem failsByTrouble_start : FailsByTrouble o.start := by
  intro t e t' h
  obtain hconnection | ⟨c, t₁, hconnection, hrest⟩ := perform_bind_eq_error_iff.mp h
  · exact failsByTrouble_connection hconnection
  obtain ⟨hc, rfl⟩ := perform_connection_eq_ok hconnection
  cases hhome : c.home with
  | none =>
    rw [hhome] at hrest
    exact nomatch (Prod.mk.inj hrest).1
  | some k =>
    cases hlog : c.log with
    | none =>
      rw [perform_start_of_unlogged hc hhome hlog] at h
      exact failsByTrouble_startFile c k h
    | some u =>
      rw [hhome, hlog] at hrest
      exact FailsByTrouble.bind (failsByTrouble_refreshFromLog u)
        (fun _ ↦ failsByTrouble_readHead k) hrest

theorem failsByTrouble_page (part : Ledger.Part) (get? : Ledger.Pages → Option α) :
    FailsByTrouble (o.page part get?) := by
  refine .bind (.get_bind fun t ↦ .bind failsByTrouble_connection fun c ↦ ?_) fun _ ↦
    .bind failsByTrouble_connection fun _ ↦ failsByTrouble_need _ _
  split
  · refine .bind (.lift fun e h ↦ ?_) fun _ ↦ failsByTrouble_remember _
    obtain ⟨fault, -, rfl⟩ := mapError_eq_error_iff.mp h
    rfl
  · exact .pure ()

theorem failsByTrouble_row (number : Nat) : FailsByTrouble (o.row number) :=
  .bind (failsByTrouble_page _ _) fun _ ↦ failsByTrouble_need _ _

theorem failsByTrouble_ensureWritable : FailsByTrouble o.ensureWritable :=
  .get_bind fun _ ↦ .bind failsByTrouble_connection fun _ ↦ failsByTrouble_ensure _ _

theorem failsByTrouble_passJournal (k : FileKey) : FailsByTrouble (passJournal k) :=
  .get_bind fun _ ↦ .bind (failsByTrouble_ensure _ _) fun _ ↦
    .bind (failsByTrouble_ensure _ _) fun _ ↦ .set _

theorem failsByTrouble_writeFile (k : FileKey) (pages : List Ledger.Page) :
    FailsByTrouble (o.writeFile k pages) := by
  rw [writeFile]
  split
  · exact .get_bind fun _ ↦ .bind (failsByTrouble_ensure _ _) fun _ ↦ .pure ()
  · exact .bind (failsByTrouble_passJournal k) fun _ ↦ .get_bind fun _ ↦
      .bind (failsByTrouble_ensure _ _) fun _ ↦ .get_bind fun _ ↦
        .bind (.set _) fun _ ↦ failsByTrouble_remember _

theorem failsByTrouble_writeLog (u : LogUse) (pages : List Ledger.Page) :
    FailsByTrouble (o.writeLog u pages) := by
  rw [writeLog]
  split
  · exact .pure ()
  · exact .get_bind fun t ↦ .bind (.set _) fun _ ↦ failsByTrouble_remember _

theorem failsByTrouble_write (pages : List Ledger.Page) : FailsByTrouble (o.write pages) := by
  refine .bind failsByTrouble_connection fun c ↦ ?_
  split
  · exact failsByTrouble_remember _
  · exact failsByTrouble_writeFile _ pages
  · exact failsByTrouble_writeLog _ pages

theorem failsByTrouble_startChange : FailsByTrouble o.startChange := by
  refine .bind failsByTrouble_connection fun before ↦ .bind failsByTrouble_start fun isReady ↦ ?_
  split
  · exact failsByTrouble_ensureWritable
  · refine .bind failsByTrouble_connection fun c ↦ ?_
    dsimp only
    split
    · refine .bind failsByTrouble_ensureWritable fun _ ↦ .bind ?_ fun _ ↦
        .bind (failsByTrouble_ensure _ _) fun _ ↦ failsByTrouble_ensureWritable
      cases c.home with
      | none => exact .pure ()
      | some k => exact failsByTrouble_passJournal k
    · exact .bind (failsByTrouble_ensure _ _) fun _ ↦ failsByTrouble_ensureWritable

theorem looks_ensureWritable : Looks o.ensureWritable :=
  .get_bind fun _ ↦ .bind (.get_bind fun _ ↦ .lift _) fun _ ↦ .lift _

/-- A change is not started unless the ledger is ready. -/
theorem start_of_startChange (h : t.perform o.startChange = (.ok (), t')) :
    t.perform o.start = (.ok true, t') := by
  obtain ⟨before, t₁, hconnection, hrest⟩ := perform_bind_eq_ok_iff.mp h
  obtain ⟨-, rfl⟩ := perform_connection_eq_ok hconnection
  obtain ⟨isReady, t₂, hstart, h⟩ := perform_bind_eq_ok_iff.mp hrest
  split at h
  · rename_i hready
    have hlooks := looks_ensureWritable (o := o) t₂
    rw [h] at hlooks
    rw [hstart, hready, ← hlooks]
  · -- it is an error that the ledger is not ready, after whatever else is done
    obtain ⟨c, t₃, -, h⟩ := perform_bind_eq_ok_iff.mp h
    dsimp only at h
    split at h
    · obtain ⟨_, t₄, -, h⟩ := perform_bind_eq_ok_iff.mp h
      obtain ⟨_, t₅, -, h⟩ := perform_bind_eq_ok_iff.mp h
      exact absurd (perform_ensure_bind_eq_ok_iff.mp h).1 Bool.false_ne_true
    · exact absurd (perform_ensure_bind_eq_ok_iff.mp h).1 Bool.false_ne_true

end OpenLedger

end Tabletop
