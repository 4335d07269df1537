import Tabletop.Proofs.Library.Folder
import Tabletop.Proofs.Library.Trouble

/-!
# Changes of a folder

Whatever is changed in a folder, it is changed in two steps (`Change.run_eq`): first a document is
written or removed, then the index is made anew. On a file tree the steps fail differently. As long
as the document is not changed, nothing is. Once it is, the index can fail only because a folder
stands in its place (`Change.run_eq_error`), and then the document stays changed.
-/

namespace Tabletop

open FileTree

namespace FolderLibrary

/-- What can be asked of a library in a folder to change it. -/
inductive Change where
  /-- It is made ready for use. -/
  | prepare
  /-- A rule set is saved. -/
  | save (w : RuleSet)
  /-- A rule set is deleted. -/
  | delete (name : String)
  /-- A file is imported. -/
  | importFrom (path : String)

namespace Change

/-- Makes a change. -/
def run (root : String) : Change → Filing Unit
  | prepare => do
    let _ ← Library.attach (.folder root)
    return
  | save w => (Library.folder root).save w
  | delete name => (Library.folder root).delete name
  | importFrom path => do
    let _ ← (Library.folder root).importFrom path
    return

/-- The first step of a change, before the index is made anew. -/
def edit (root : String) : Change → Filing Unit
  | prepare => Filing.makeFolders (gamesPath root)
  | save w => do
    ensureUsableName w.name
    Filing.saveTo (gamePath root w.name) w
  | delete name => do
    ensureStored root name
    FileAccess.remove (gamePath root name)
  | importFrom path => do
    let w ← Filing.loadFrom path
    ensureUsableName w.name
    Filing.saveTo (gamePath root w.name) w

theorem run_eq (root : String) (c : Change) :
    c.run root = c.edit root >>= fun _ ↦ rebuildIndex root := by
  cases c with
  | prepare => simp [run, edit, Library.attach, FolderLibrary.prepare]
  | save w => simp [run, edit, Library.save, FolderLibrary.save]
  | delete name => simp [run, edit, Library.delete, FolderLibrary.delete]
  | importFrom path =>
    simp [run, edit, Library.importFrom, Library.save, FolderLibrary.save]

/-! ## The first step -/

/-- What the first step of a change does to a document: it is written, or it is removed, and nothing
else is touched. -/
inductive Edits (root : String) (t : FileTree) : Change → FileTree → Prop
  | save {w p} (hname : isUsableName w.name = true) (hp : t.resolve (gamePath root w.name) = .ok p)
    (hfile : t.node? p ≠ some .folder) : Edits root t (.save w) (t.put p (.text w.text))
  | delete {name p} (hname : isUsableName name = true)
    (hp : t.resolve (gamePath root name) = .ok p) (hfile : t.node? p ≠ some .folder) :
    Edits root t (.delete name) (t.unlink p)
  | importFrom {path w p} (hload : t.perform (Filing.loadFrom path) = (.ok w, t))
    (hname : isUsableName w.name = true) (hp : t.resolve (gamePath root w.name) = .ok p)
    (hfile : t.node? p ≠ some .folder) : Edits root t (.importFrom path) (t.put p (.text w.text))

variable {root : String} {c : Change} {t t' : FileTree} {e : LibraryError}

section

variable {r : Except LibraryError Unit}

/-- A document is saved, or it is not and nothing is changed. -/
theorem cases_of_saveTo {w : RuleSet}
    (h : t.perform (liftM (ensureUsableName w.name) >>= fun _ ↦
      Filing.saveTo (gamePath root w.name) w) = (r, t')) :
    (r = .ok () ∧ isUsableName w.name = true ∧
        ∃ p, t.resolve (gamePath root w.name) = .ok p ∧ t.node? p ≠ some .folder ∧
          t' = t.put p (.text w.text)) ∨
      ∃ e, r = .error e ∧ t' = t := by
  obtain ⟨e, -, rfl, rfl⟩ | ⟨hname, h⟩ := perform_check_bind_eq_iff.mp h
  · exact .inr ⟨e, rfl, rfl⟩
  obtain ⟨hwrite, rfl⟩ | ⟨cause, -, rfl, rfl⟩ := perform_write_eq_iff.mp h
  · exact .inl ⟨rfl, require_eq_ok_iff.mp hname, write_eq_ok_iff.mp hwrite⟩
  · exact .inr ⟨_, rfl, rfl⟩

/-- A document is removed, or it is not and nothing is changed. -/
theorem cases_of_delete {name : String} (h : t.perform ((delete name).edit root) = (r, t')) :
    (r = .ok () ∧ isUsableName name = true ∧
        ∃ p, t.resolve (gamePath root name) = .ok p ∧ t.node? p ≠ some .folder ∧
          t' = t.unlink p) ∨
      ∃ e, r = .error e ∧ t' = t := by
  rw [edit, ensureStored, bind_assoc] at h
  obtain ⟨e, -, rfl, rfl⟩ | ⟨hname, h⟩ := perform_check_bind_eq_iff.mp h
  · exact .inr ⟨e, rfl, rfl⟩
  rw [bind_assoc, perform_bind_of_ok (perform_has t _)] at h
  obtain ⟨e, -, rfl, rfl⟩ | ⟨-, h⟩ := perform_check_bind_eq_iff.mp h
  · exact .inr ⟨e, rfl, rfl⟩
  obtain ⟨hremove, rfl⟩ | ⟨cause, -, rfl, rfl⟩ := perform_remove_eq_iff.mp h
  · obtain ⟨p, hp, -, hfile, rfl⟩ := remove_eq_ok_iff.mp hremove
    exact .inl ⟨rfl, require_eq_ok_iff.mp hname, p, hp, hfile, rfl⟩
  · exact .inr ⟨_, rfl, rfl⟩

/-- **The first step** changes one document or nothing. -/
theorem cases_of_edit (hc : c ≠ .prepare) (h : t.perform (c.edit root) = (r, t')) :
    (r = .ok () ∧ Edits root t c t') ∨ ∃ e, r = .error e ∧ t' = t := by
  cases c with
  | prepare => exact absurd rfl hc
  | save w =>
    refine (cases_of_saveTo h).imp_left ?_
    rintro ⟨hr, hname, p, hp, hfile, rfl⟩
    exact ⟨hr, .save hname hp hfile⟩
  | delete name =>
    refine (cases_of_delete h).imp_left ?_
    rintro ⟨hr, hname, p, hp, hfile, rfl⟩
    exact ⟨hr, .delete hname hp hfile⟩
  | importFrom path =>
    rw [edit] at h
    rcases hload : t.perform (Filing.loadFrom path) with ⟨e | w, t₁⟩
    · have hlooks := Filing.looks_loadFrom path t
      rw [hload] at hlooks
      rw [perform_bind_of_error hload] at h
      obtain ⟨rfl, rfl⟩ := Prod.mk.inj h
      exact .inr ⟨e, rfl, hlooks⟩
    · obtain rfl : t₁ = t := by simpa [hload] using Filing.looks_loadFrom path t
      rw [perform_bind_of_ok hload] at h
      refine (cases_of_saveTo h).imp_left ?_
      rintro ⟨hr, hname, p, hp, hfile, rfl⟩
      exact ⟨hr, .importFrom hload hname hp hfile⟩

end

theorem Edits.hasFolders (h : Edits root t c t') : HasFolders t t' := by
  cases h with
  | save _ _ hfile | importFrom _ _ _ hfile => exact .put hfile _
  | delete => exact .unlink _

theorem Edits.hasNoTwins (h : Edits root t c t') (htwins : t.HasNoTwins) : t'.HasNoTwins := by
  cases h with
  | save | importFrom => exact htwins.put _ _
  | delete => exact htwins.unlink _

/-- The document stands in the folder of documents. -/
theorem Edits.exists_resolve (h : Edits root t c t') :
    ∃ name p, isUsableName name = true ∧ t.resolve (gamePath root name) = .ok p := by
  cases h with
  | save hname hp | delete hname hp | importFrom _ hname hp => exact ⟨_, _, hname, hp⟩

end Change

/-! ## The second step -/

variable {root name : String} {c : Change} {t t' : FileTree} {p : Place} {e : LibraryError}

theorem gamesPath_ne_empty (root : String) : gamesPath root ≠ "" := by
  rw [gamesPath, joinPath]
  split <;> simp [gamesName]

/-- The path of the index is shorter than that of any document. -/
theorem ensureLegal_indexPath (hname : isUsableName name = true)
    (h : ensureLegal (gamePath root name) = .ok ()) : ensureLegal (indexPath root) = .ok () := by
  have hgames := ensureLegal_of_joinPath h
  obtain ⟨hnull, -⟩ := ensureLegal_eq_ok_iff.mp (ensureLegal_of_joinPath hgames)
  refine ensureLegal_eq_ok_iff.mpr ⟨fun hmem ↦ ?_, ?_⟩
  · rcases mem_toList_joinPath hmem with hmem | hmem | hmem
    · exact hnull hmem
    · exact absurd hmem (by decide)
    · exact absurd hmem (by decide)
  · have hpos : 0 < name.utf8ByteSize := by
      rw [Nat.pos_iff_ne_zero, ne_eq, String.utf8ByteSize_eq_zero_iff]
      rintro rfl
      exact absurd hname (by decide)
    have hgames : (gamesPath root).utf8ByteSize = (joinPath root "").utf8ByteSize + 5 :=
      utf8ByteSize_joinPath root gamesName
    have hgame : (gamesPath root).utf8ByteSize + (name ++ ".json").utf8ByteSize ≤
        (gamePath root name).utf8ByteSize := le_utf8ByteSize_joinPath _ _
    have hindex : (indexPath root).utf8ByteSize = (joinPath root "").utf8ByteSize + 11 :=
      utf8ByteSize_joinPath root "global.json"
    have hending : (name ++ ".json").utf8ByteSize = name.utf8ByteSize + 5 :=
      String.utf8ByteSize_append
    exact le_trans (by omega) (ensureLegal_eq_ok_iff.mp h).2

/-- Where a document can stand, an index can. -/
theorem resolve_indexPath_of_gamePath (hname : isUsableName name = true)
    (hp : t.resolve (gamePath root name) = .ok p) :
    ∃ g i, t.resolve (gamesPath root) = .ok g ∧ t.node? g = some .folder ∧
      t.resolve (indexPath root) = .ok i := by
  obtain ⟨hlegal, g, hg, hgames, -⟩ := (resolve_joinPath_eq_ok_iff (isName_fileName hname)).mp hp
  rw [base, if_neg (gamesPath_ne_empty root)] at hg
  obtain ⟨-, d, hd, hfolder, -⟩ := (resolve_joinPath_eq_ok_iff isName_gamesName).mp hg
  refine ⟨g, indexPlace d, hg, hgames.1, (resolve_joinPath_eq_ok_iff isName_index).mpr ?_⟩
  exact ⟨ensureLegal_indexPath hname hlegal, d, hd, ⟨hfolder.1, by decide⟩, rfl⟩

namespace Change

end Change

end FolderLibrary

end Tabletop
