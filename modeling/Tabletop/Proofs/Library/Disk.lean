import Tabletop.Library.Disk
import Tabletop.Proofs.Library.Trouble

/-!
# Attempting operations on files

What single operations do on a disk. Whatever befalls one of them, it does what it does on a file
tree, or it fails and leaves the files as they are; only a file that is being written can be left
half done (`cases_of_write`).

A disk where nothing befalls the operations is no other than its file tree. That is shown of one
step after another (`Follows`): an operation that is written for any files that can be accessed does
the same on such a disk as on the tree.
-/

namespace Tabletop

open FileTree

/-- A file that was made or emptied to be written, and is left with some content. -/
inductive FileTree.BrokenOff (t : FileTree) (path : String) : LibraryError → FileTree → Prop
  | intro {p left} (cause : FileError) (hp : t.resolve path = .ok p)
    (hfile : t.node? p ≠ some .folder) (hleft : left ≠ .folder) :
    BrokenOff t path (.file path cause) (t.put p left)

namespace Disk

variable {α β : Type} {d d' : Disk} {path text : String}

theorem attempt_bind (d : Disk) (x : Attempt α) (f : α → Attempt β) :
    d.attempt (x >>= f) = match d.attempt x with
      | (.ok a, d') => d'.attempt (f a)
      | (.error e, d') => (.error e, d') := by
  simp only [attempt, ExceptT.run, StateT.run, bind, ExceptT.bind, ExceptT.mk, StateT.bind, Id.run]
  rcases x d with ⟨_ | _, _⟩ <;> rfl

/-- Either the first step fails, or the second one follows. -/
theorem cases_of_bind {x : Attempt α} {f : α → Attempt β} {r : Except LibraryError β}
    (h : d.attempt (x >>= f) = (r, d')) :
    (∃ e, d.attempt x = (.error e, d') ∧ r = .error e) ∨
      ∃ a d₁, d.attempt x = (.ok a, d₁) ∧ d₁.attempt (f a) = (r, d') := by
  rw [attempt_bind] at h
  rcases hx : d.attempt x with ⟨e | a, d₁⟩
  · rw [hx] at h
    obtain ⟨rfl, rfl⟩ := Prod.mk.inj h
    exact .inl ⟨e, rfl, rfl⟩
  · rw [hx] at h
    exact .inr ⟨a, d₁, rfl, h⟩

/-- A check, and what comes after it. -/
theorem cases_of_check_bind {y : Except LibraryError α} {f : α → Attempt β}
    {r : Except LibraryError β} (h : d.attempt (liftM y >>= f) = (r, d')) :
    (∃ e, y = .error e ∧ r = .error e ∧ d' = d) ∨
      ∃ a, y = .ok a ∧ d.attempt (f a) = (r, d') := by
  cases y with
  | error e => exact .inl ⟨e, rfl, (Prod.mk.inj h).1.symm, (Prod.mk.inj h).2.symm⟩
  | ok a => exact .inr ⟨a, rfl, h⟩

/-! ## Single operations -/

theorem attempt_nextMishap?_bind (d : Disk) (f : Option Mishap → Attempt β) :
    d.attempt (Attempt.nextMishap? >>= f) =
      Disk.attempt ⟨d.files, d.mishaps.tail⟩ (f d.mishaps.head?.join) := rfl

theorem perform_of_onFiles {x : Filing α} {r : Except LibraryError α}
    (h : d.attempt (Attempt.onFiles x) = (r, d')) : d.files.perform x = (r, d'.files) := by
  obtain ⟨rfl, rfl⟩ := Prod.mk.inj h
  rfl

/-- An operation is performed as on a tree, or it is refused. -/
theorem cases_of_access {x : Filing α} {r : Except LibraryError α}
    (h : d.attempt (Attempt.access path x) = (r, d')) :
    d.files.perform x = (r, d'.files) ∨
      ∃ cause, r = .error (.file path cause) ∧ d'.files = d.files := by
  rw [Attempt.access, attempt_nextMishap?_bind] at h
  generalize d.mishaps.head?.join = mishap? at h
  rcases mishap? with _ | mishap
  · have hperform := perform_of_onFiles h
    exact .inl hperform
  · obtain ⟨rfl, rfl⟩ := Prod.mk.inj h
    exact .inr ⟨mishap.cause, rfl, rfl⟩

/-- What is only looked at stays as it is, refused or not. -/
theorem files_of_access {x : Filing α} {r : Except LibraryError α} (hx : Filing.Looks x)
    (h : d.attempt (Attempt.access path x) = (r, d')) : d'.files = d.files := by
  obtain hperform | ⟨_, -, hfiles⟩ := cases_of_access h
  · have hlooks := hx d.files
    rw [hperform] at hlooks
    exact hlooks
  · exact hfiles

theorem files_of_has {r : Except LibraryError Bool}
    (h : d.attempt (FileAccess.has path) = (r, d')) : d'.files = d.files := by
  change d.attempt (Attempt.has path) = _ at h
  rw [Attempt.has, attempt_nextMishap?_bind] at h
  generalize d.mishaps.head?.join = mishap? at h
  rcases mishap? with _ | mishap
  · exact (Prod.mk.inj (perform_of_onFiles h)).2.symm
  · exact (congrArg Disk.files (Prod.mk.inj h).2).symm

theorem cases_of_list {r : Except LibraryError (List String)}
    (h : d.attempt (FileAccess.list path) = (r, d')) :
    d'.files = d.files ∧ ∀ e, r = .error e → ∃ cause, e = .file path cause := by
  refine ⟨files_of_access (Filing.looks_list path) h, fun e he ↦ ?_⟩
  obtain hperform | ⟨cause, hr, -⟩ := cases_of_access h
  · obtain ⟨hlist, -⟩ := Prod.mk.inj ((perform_list d.files path).symm.trans hperform)
    obtain ⟨cause, -, rfl⟩ := mapError_eq_error_iff.mp (hlist.trans he)
    exact ⟨cause, rfl⟩
  · exact ⟨cause, Except.error.inj (he.symm.trans hr)⟩

/-- A file is removed, or it is not and nothing is changed. -/
theorem cases_of_remove {r : Except LibraryError Unit}
    (h : d.attempt (FileAccess.remove path) = (r, d')) :
    (r = .ok () ∧ d.files.remove path = .ok d'.files) ∨ ∃ e, r = .error e ∧ d'.files = d.files := by
  obtain hperform | ⟨cause, hr, hfiles⟩ := cases_of_access h
  · obtain ⟨hremove, hr⟩ | ⟨cause, -, hr, hfiles⟩ := perform_remove_eq_iff.mp hperform
    · exact .inl ⟨hr, hremove⟩
    · exact .inr ⟨_, hr, hfiles⟩
  · exact .inr ⟨_, hr, hfiles⟩

/-- **A file is written**, or it is not and nothing is changed, or it is left half done. -/
theorem cases_of_write {r : Except LibraryError Unit}
    (h : d.attempt (FileAccess.write path text) = (r, d')) :
    (r = .ok () ∧ d.files.write path (.text text) = .ok d'.files) ∨
      (∃ cause, r = .error (.file path cause) ∧ d'.files = d.files) ∨
      ∃ e, r = .error e ∧ d.files.BrokenOff path e d'.files := by
  change d.attempt (Attempt.write path text) = _ at h
  rw [Attempt.write, attempt_nextMishap?_bind] at h
  -- nothing befalls the operation, or one of the two sorts of mishaps
  generalize d.mishaps.head?.join = mishap? at h
  rcases mishap? with _ | ⟨cause⟩ | ⟨cause, left, hleft⟩
  · obtain ⟨hwrite, hr⟩ | ⟨cause, -, hr, hfiles⟩ := perform_write_eq_iff.mp (perform_of_onFiles h)
    · exact .inl ⟨hr, hwrite⟩
    · exact .inr (.inl ⟨cause, hr, hfiles⟩)
  · obtain ⟨rfl, rfl⟩ := Prod.mk.inj h
    exact .inr (.inl ⟨cause, rfl, rfl⟩)
  · obtain ⟨e, hput, rfl⟩ | ⟨_, d₁, hput, h⟩ := cases_of_bind h
    · -- there is nothing that could be made or emptied
      obtain ⟨-, he⟩ | ⟨cause, -, he, hfiles⟩ := perform_put_eq_iff.mp (perform_of_onFiles hput)
      · cases he
      · exact .inr (.inl ⟨cause, he, hfiles⟩)
    · obtain ⟨rfl, rfl⟩ := Prod.mk.inj h
      obtain ⟨hwrite, -⟩ | ⟨_, -, he, -⟩ := perform_put_eq_iff.mp (perform_of_onFiles hput)
      · obtain ⟨p, hp, hfile, hfiles⟩ := write_eq_ok_iff.mp hwrite
        rw [hfiles]
        exact .inr (.inr ⟨_, rfl, .intro cause hp hfile hleft⟩)
      · cases he

end Disk

/-! ## Disks where nothing befalls -/

namespace Attempt

variable {α β : Type} {x : Filing α} {y : Attempt α} {f : α → Filing β} {g : α → Attempt β}

/-- An attempt does the same as an operation on files, if nothing befalls it. -/
def Follows (y : Attempt α) (x : Filing α) : Prop :=
  ∀ t, Disk.attempt ⟨t, []⟩ y = ((t.perform x).1, ⟨(t.perform x).2, []⟩)

theorem Follows.lift (r : Except LibraryError α) : Follows (liftM r) (liftM r) := fun _ ↦ rfl

theorem Follows.bind (hy : Follows y x) (hg : ∀ a, Follows (g a) (f a)) :
    Follows (y >>= g) (x >>= f) := fun t ↦ by
  rw [Disk.attempt_bind, hy t, perform_bind]
  rcases t.perform x with ⟨e | a, t₁⟩
  · rfl
  · exact hg a t₁

end Attempt

end Tabletop
