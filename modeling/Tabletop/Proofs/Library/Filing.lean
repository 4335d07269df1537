import Tabletop.Library.Filing
import Tabletop.Proofs.Checks

/-!
# Performing operations on files

How `FileTree.perform` runs the steps of an operation. What an operation does is stated with
`Gives`: from every tree with one property it has a certain result, and leaves a tree with another
property behind. Steps are put together with `Gives.bind`, where the property in between is all that
the second step relies on.
-/

namespace Tabletop

namespace FileTree

variable {α β : Type} {t t' : FileTree}

/-- What is only looked at leaves the files alone. -/
@[simp] theorem perform_lift (t : FileTree) (x : Except LibraryError α) :
    t.perform (liftM x : Filing α) = (x, t) := rfl

theorem perform_bind (t : FileTree) (x : Filing α) (f : α → Filing β) :
    t.perform (x >>= f) = match t.perform x with
      | (.ok a, t') => t'.perform (f a)
      | (.error e, t') => (.error e, t') := by
  simp only [perform, ExceptT.run, StateT.run, bind, ExceptT.bind, ExceptT.mk, StateT.bind, Id.run]
  rcases x t with ⟨_ | _, _⟩ <;> rfl

theorem perform_bind_of_ok {x : Filing α} {a : α} (h : t.perform x = (.ok a, t'))
    (f : α → Filing β) : t.perform (x >>= f) = t'.perform (f a) := by
  rw [perform_bind, h]

theorem perform_bind_of_error {x : Filing α} {e : LibraryError}
    (h : t.perform x = (.error e, t')) (f : α → Filing β) :
    t.perform (x >>= f) = (.error e, t') := by
  rw [perform_bind, h]

@[simp] theorem perform_get_bind (t : FileTree) (f : FileTree → Filing β) :
    t.perform (get >>= f) = t.perform (f t) := rfl

@[simp] theorem perform_set_bind (t t' : FileTree) (f : Unit → Filing β) :
    t.perform (set t' >>= f) = t'.perform (f ()) := rfl

theorem perform_lift_bind_of_ok {x : Except LibraryError α} {a : α} (h : x = .ok a)
    (f : α → Filing β) : t.perform (liftM x >>= f) = t.perform (f a) := by
  rw [h]
  rfl

theorem perform_lift_bind_of_error {x : Except LibraryError α} {e : LibraryError}
    (h : x = .error e) (f : α → Filing β) : t.perform (liftM x >>= f) = (.error e, t) := by
  rw [h]
  rfl

/-- A check, and what comes after it. -/
theorem perform_check_bind_eq_iff {y : Except LibraryError Unit} {f : Unit → Filing α}
    {r : Except LibraryError α} :
    t.perform (liftM y >>= f) = (r, t') ↔
      (∃ e, y = .error e ∧ r = .error e ∧ t' = t) ∨ y = .ok () ∧ t.perform (f ()) = (r, t') := by
  cases y with
  | ok u => simp [perform_lift_bind_of_ok rfl]
  | error e => simp [perform_lift_bind_of_error rfl, eq_comm]

/-- What is prepared for failure is done as it is if nothing fails. -/
theorem perform_tryCatch_of_ok {x : Filing α} {a : α} (h : t.perform x = (.ok a, t'))
    (f : LibraryError → Filing α) : t.perform (tryCatch x f) = (.ok a, t') := by
  have hrun : x t = (.ok a, t') := h
  change (ExceptT.tryCatch x f) t = _
  simp only [ExceptT.tryCatch, ExceptT.mk, bind, StateT.bind, hrun]
  rfl

/-! ## Files -/

variable {path text : String} {p : Place}

theorem perform_read (t : FileTree) (path : String) :
    t.perform (FileAccess.read path) = ((t.readText path).mapError (.file path), t) := by
  change t.perform (Filing.read path) = _
  simp [Filing.read]

theorem perform_list (t : FileTree) (path : String) :
    t.perform (FileAccess.list path) = ((t.list path).mapError (.file path), t) := by
  change t.perform (Filing.list path) = _
  simp [Filing.list]

theorem perform_has (t : FileTree) (path : String) :
    t.perform (FileAccess.has path) = (.ok (t.has path), t) := rfl

theorem readText_eq_ok (hp : t.resolve path = .ok p) (hn : t.node? p = some (.text text)) :
    t.readText path = .ok text := bind_eq_ok_iff.mpr ⟨p, hp, by rw [hn]⟩

theorem perform_read_of_text (hp : t.resolve path = .ok p) (hn : t.node? p = some (.text text)) :
    t.perform (FileAccess.read path) = (.ok text, t) := by
  rw [perform_read, readText_eq_ok hp hn]
  rfl

theorem list_eq_ok_iff {names : List String} :
    t.list path = .ok names ↔
      ∃ p, t.resolve path = .ok p ∧ t.node? p = some .folder ∧ names = t.children p := by
  rw [list, bind_eq_ok_iff]
  refine exists_congr fun p ↦ and_congr_right fun _ ↦ ?_
  split
  · simp [*]
  · rw [and_iff_right ‹_›, Except.ok.injEq, eq_comm]
  · rename_i hfolder h
    rw [h, Option.some.injEq]
    exact iff_of_false (by simp) fun hn ↦ hfolder hn.1

theorem list_eq_ok (hp : t.resolve path = .ok p) (hn : t.node? p = some .folder) :
    t.list path = .ok (t.children p) := list_eq_ok_iff.mpr ⟨p, hp, hn, rfl⟩

theorem write_eq_ok_iff {n : Node} :
    t.write path n = .ok t' ↔
      ∃ p, t.resolve path = .ok p ∧ t.node? p ≠ some .folder ∧ t' = t.put p n := by
  rw [write, bind_eq_ok_iff]
  refine exists_congr fun p ↦ and_congr_right fun _ ↦ ?_
  split
  · simp [*]
  · rename_i hfile
    rw [and_iff_right hfile, Except.ok.injEq, eq_comm]

theorem remove_eq_ok_iff :
    t.remove path = .ok t' ↔
      ∃ p, t.resolve path = .ok p ∧ (t.node? p).isSome ∧ t.node? p ≠ some .folder ∧
        t' = t.unlink p := by
  rw [remove, bind_eq_ok_iff]
  refine exists_congr fun p ↦ and_congr_right fun _ ↦ ?_
  split
  · simp [*]
  · simp [*]
  · rename_i n hfile h
    rw [h, Option.isSome_some, and_iff_right rfl, and_iff_right (by simpa using hfile),
      Except.ok.injEq, eq_comm]

theorem remove_eq_ok (hp : t.resolve path = .ok p) (hn : t.node? p = some (.text text)) :
    t.remove path = .ok (t.unlink p) := by
  refine remove_eq_ok_iff.mpr ⟨p, hp, ?_, ?_, rfl⟩ <;> simp [hn]

/-- Files are changed as a whole or not at all. -/
theorem perform_mapError_set {y : Except FileError FileTree} {f : FileError → LibraryError}
    {r : Except LibraryError Unit} :
    t.perform (liftM (y.mapError f) >>= fun t ↦ set t) = (r, t') ↔
      (y = .ok t' ∧ r = .ok ()) ∨ ∃ cause, y = .error cause ∧ r = .error (f cause) ∧ t' = t := by
  cases y with
  | ok t₁ =>
    change (Except.ok (), t₁) = (r, t') ↔ _
    simp [eq_comm, and_comm]
  | error cause =>
    change (Except.error (f cause), t) = (r, t') ↔ _
    simp [eq_comm]

theorem perform_put_eq_iff {n : Node} {r : Except LibraryError Unit} :
    t.perform (Filing.put path n) = (r, t') ↔
      (t.write path n = .ok t' ∧ r = .ok ()) ∨
        ∃ cause, t.write path n = .error cause ∧ r = .error (.file path cause) ∧ t' = t := by
  rw [Filing.put, perform_get_bind, perform_mapError_set]

theorem perform_write_eq_iff {r : Except LibraryError Unit} :
    t.perform (FileAccess.write path text) = (r, t') ↔
      (t.write path (.text text) = .ok t' ∧ r = .ok ()) ∨
        ∃ cause, t.write path (.text text) = .error cause ∧ r = .error (.file path cause) ∧
          t' = t := perform_put_eq_iff

theorem perform_write (hp : t.resolve path = .ok p) (hn : t.node? p ≠ some .folder)
    (text : String) : t.perform (FileAccess.write path text) = (.ok (), t.put p (.text text)) :=
  perform_write_eq_iff.mpr (.inl ⟨write_eq_ok_iff.mpr ⟨p, hp, hn, rfl⟩, rfl⟩)

theorem perform_remove_eq_iff {r : Except LibraryError Unit} :
    t.perform (FileAccess.remove path) = (r, t') ↔
      (t.remove path = .ok t' ∧ r = .ok ()) ∨
        ∃ cause, t.remove path = .error cause ∧ r = .error (.file path cause) ∧ t' = t := by
  change t.perform (Filing.remove path) = _ ↔ _
  rw [Filing.remove, perform_get_bind, perform_mapError_set]

end FileTree

namespace Filing

variable {α β : Type} {P P' Q Q' R : FileTree → Prop} {x : Filing α} {f : α → Filing β}
  {r : Except LibraryError α} {r' : Except LibraryError β} {a : α} {e : LibraryError}

/-- From every tree of one property, an operation has a result and leaves a tree of another property
behind. -/
def Gives (P : FileTree → Prop) (x : Filing α) (r : Except LibraryError α) (Q : FileTree → Prop) :
    Prop :=
  ∀ t, P t → ∃ t', t.perform x = (r, t') ∧ Q t'

theorem Gives.mono (h : Gives P x r Q) (hP : ∀ t, P' t → P t) (hQ : ∀ t, Q t → Q' t) :
    Gives P' x r Q' := fun t ht ↦
  let ⟨t', hx, ht'⟩ := h t (hP t ht)
  ⟨t', hx, hQ t' ht'⟩

theorem Gives.pure (a : α) : Gives P (Pure.pure a) (.ok a) P := fun t ht ↦ ⟨t, rfl, ht⟩

theorem Gives.lift (r : Except LibraryError α) : Gives P (liftM r) r P := fun t ht ↦ ⟨t, rfl, ht⟩

theorem Gives.bind (hx : Gives P x (.ok a) Q) (hf : Gives Q (f a) r' R) :
    Gives P (x >>= f) r' R := fun t ht ↦ by
  obtain ⟨t₁, hx, ht₁⟩ := hx t ht
  obtain ⟨t₂, hf, ht₂⟩ := hf t₁ ht₁
  exact ⟨t₂, (FileTree.perform_bind_of_ok hx f).trans hf, ht₂⟩

theorem Gives.bind_error (hx : Gives P x (.error e) Q) : Gives P (x >>= f) (.error e) Q :=
  fun t ht ↦ by
  obtain ⟨t₁, hx, ht₁⟩ := hx t ht
  exact ⟨t₁, FileTree.perform_bind_of_error hx f, ht₁⟩

/-- An operation that looks at the files first. -/
theorem Gives.get_bind {g : FileTree → Filing β} (h : ∀ t, P t → Gives (· = t) (g t) r' R) :
    Gives P (get >>= g) r' R := fun t ht ↦ h t ht t rfl

end Filing

end Tabletop
