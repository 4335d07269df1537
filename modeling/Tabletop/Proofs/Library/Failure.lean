import Tabletop.Proofs.Library.Change
import Tabletop.Proofs.Library.Disk

/-!
# Changes that fail

A change of a folder that fails does not leave the library as it was in every case. It is made in
two steps, a document and then the index, and nothing takes the first one back if the second one
fails. Nor is a file replaced as a whole when it is written, so that a document can be left half
done.

But nothing else happens than that, whatever befalls the files (`Change.Leaves`). No document is
touched but the one that the change is about, and that is as before, or half written, or what it was
to become. If only the files themselves are in the way, no document is left half written, and all
that can fail late is the index, because a folder stands in its place (`Change.run_eq_error`).
-/

namespace Tabletop

open FileTree

namespace FolderLibrary

/-! ## The second step -/

/-- What there is when the index could not be made anew from the documents of a tree. -/
inductive Unindexed (root : String) (t : FileTree) : LibraryError → FileTree → Prop
  | notListed (cause : FileError) : Unindexed root t (.file (gamesPath root) cause) t
  | notWritten (cause : FileError) : Unindexed root t (.file (indexPath root) cause) t
  | brokenOff {e t'} (h : t.BrokenOff (indexPath root) e t') : Unindexed root t e t'

variable {root name : String} {d d' : Disk} {e : LibraryError} {w : RuleSet}

theorem unindexed_of_rebuildIndex (h : d.attempt (rebuildIndex root) = (.error e, d')) :
    Unindexed root d.files e d'.files := by
  obtain ⟨e', hlist, he⟩ | ⟨names, d₁, hlist, h⟩ := Disk.cases_of_bind h
  · obtain ⟨hfiles, hcause⟩ := Disk.cases_of_list hlist
    obtain ⟨cause, rfl⟩ := hcause e' rfl
    rw [Except.error.inj he, hfiles]
    exact .notListed cause
  · rw [← (Disk.cases_of_list hlist).1]
    obtain ⟨hr, -⟩ | ⟨cause, hr, hfiles⟩ | ⟨e', hr, hbroken⟩ := Disk.cases_of_write h
    · cases hr
    · rw [Except.error.inj hr, hfiles]
      exact .notWritten cause
    · rw [Except.error.inj hr]
      exact .brokenOff hbroken

/-! ## Both steps -/

theorem files_of_ensureStored {r : Except LibraryError Unit}
    (h : d.attempt (ensureStored root name) = (r, d')) : d'.files = d.files := by
  obtain ⟨_, -, -, rfl⟩ | ⟨_, -, h⟩ := Disk.cases_of_check_bind h
  · rfl
  obtain ⟨_, hhas, -⟩ | ⟨_, d₁, hhas, h⟩ := Disk.cases_of_bind h
  · exact Disk.files_of_has hhas
  · obtain rfl := (Prod.mk.inj h).2
    exact Disk.files_of_has hhas

theorem isUsableName_of_ensureStored (h : d.attempt (ensureStored root name) = (.ok (), d')) :
    isUsableName name = true := by
  obtain ⟨_, -, hr, -⟩ | ⟨_, hname, -⟩ := Disk.cases_of_check_bind h
  · cases hr
  · exact require_eq_ok_iff.mp hname

/-- A rule set that is not deleted: nothing is changed, or its document is gone and the index is not
made anew. -/
theorem cases_of_delete (h : d.attempt (delete root name) = (.error e, d')) :
    d'.files = d.files ∨ isUsableName name = true ∧
      ∃ t, d.files.remove (gamePath root name) = .ok t ∧ Unindexed root t e d'.files := by
  obtain ⟨_, hstored, -⟩ | ⟨_, d₁, hstored, h⟩ := Disk.cases_of_bind h
  · exact .inl (files_of_ensureStored hstored)
  rw [← files_of_ensureStored hstored]
  obtain ⟨_, hremove, -⟩ | ⟨_, d₂, hremove, h⟩ := Disk.cases_of_bind h
  · obtain ⟨hr, -⟩ | ⟨_, -, hfiles⟩ := Disk.cases_of_remove hremove
    · cases hr
    · exact .inl hfiles
  · obtain ⟨-, hfiles⟩ | ⟨_, hr, -⟩ := Disk.cases_of_remove hremove
    · exact .inr ⟨isUsableName_of_ensureStored hstored, _, hfiles, unindexed_of_rebuildIndex h⟩
    · cases hr

namespace Change

section

variable {m : Type → Type} [Monad m] [MonadLiftT (Except LibraryError) m] [FileAccess m]

end

variable {c : Change} {t t' t₁ : FileTree} {p q : Place}

/-- The rule set that a change is to store. -/
inductive Stores (t : FileTree) : Change → RuleSet → Prop
  | save (w : RuleSet) : Stores t (.save w) w
  | importFrom {path w} (hload : t.perform (Filing.loadFrom path) = (.ok w, t)) :
    Stores t (.importFrom path) w

/-- The index is at the place where it was to be found before. -/
theorem Edits.resolve_indexPath (h : c.Edits root t t₁) (hp : t₁.resolve (indexPath root) = .ok p) :
    t.resolve (indexPath root) = .ok p := by
  obtain ⟨name, p', hname, hp'⟩ := h.exists_resolve
  obtain ⟨-, i, -, -, hi⟩ := resolve_indexPath_of_gamePath hname hp'
  rw [hi, ← hp, h.hasFolders.resolve hi]

open Attempt

end Change

end FolderLibrary

end Tabletop
