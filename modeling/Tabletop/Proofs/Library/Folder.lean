import Tabletop.Proofs.Library.Index
import Tabletop.Proofs.Library.Shelf

/-!
# Folders stand for shelves

A folder whose documents are the texts of a shelf stays one, whatever the library is asked to do
(`backs`). The index plays no part in this, only that a file can be written in its place: every
change ends by making it anew from the documents, and so it lists the shelf (`gives_rebuildIndex`).
-/

namespace Tabletop

/-- An empty folder at the place that a path leads to. -/
structure FileTree.HasEmptyFolder (t : FileTree) (path : String) (d : Place) : Prop where
  leads : t.resolve path = .ok d
  folder : t.node? d = some .folder
  empty : ∀ names, names ≠ [] → t.node? (d ++ names) = none

namespace FolderLibrary

open Filing FileTree

variable {root name text : String} {d q : Place} {t : FileTree} {s : Shelf} {l : Library}

/-- A name with which the file of a rule set can be made. -/
def Fits (root name : String) : Prop :=
  ensureLegal (gamePath root name) = .ok () ∧ (fileName name).utf8ByteSize ≤ maxNameBytes

/-- The place of the documents. -/
def gamesPlace (d : Place) : Place := d ++ [gamesName]

/-- The place of the index. -/
def indexPlace (d : Place) : Place := d ++ ["global.json"]

/-- The place of the document of a rule set. -/
def gamePlace (d : Place) (name : String) : Place := gamesPlace d ++ [fileName name]

/-- A folder whose documents are the texts of a shelf. -/
structure Shelves (root : String) (d : Place) (s : Shelf) (t : FileTree) : Prop where
  leads : t.resolve root = .ok d
  folder : t.node? d = some .folder
  games : t.node? (gamesPlace d) = some .folder
  index : t.node? (indexPlace d) ≠ some .folder
  document : ∀ name, t.node? (gamePlace d name) = (s.lookup name).map .text
  nodup : (t.children (gamesPlace d)).Nodup
  usable : ∀ name, (s.lookup name).isSome → isUsableName name = true ∧ Fits root name

/-- The trees where the library is closed: it may not have been made yet. -/
def IsClosed (root : String) (d : Place) (s : Shelf) (t : FileTree) : Prop :=
  (s = ∅ ∧ t.HasEmptyFolder root d) ∨ Shelves root d s t

/-- The trees where the library is open: the index lists what is on the shelf. -/
def IsOpen (root : String) (d : Place) (s : Shelf) (l : Library) (t : FileTree) : Prop :=
  l = .folder root ∧ Shelves root d s t ∧
    t.node? (indexPlace d) = some (.text (indexText (s.names.map entry)))

/-! ## Where things are -/

theorem isName_gamesName : IsName gamesName :=
  ⟨by decide, by decide, by decide, by decide⟩

theorem isName_index : IsName "global.json" :=
  ⟨by decide, by decide, by decide, by decide⟩

theorem ensureLegal_gamesPath (hroot : t.resolve root = .ok d)
    (h : ensureLegal (indexPath root) = .ok ()) : ensureLegal (gamesPath root) = .ok () := by
  obtain ⟨hnull, -⟩ := ensureLegal_eq_ok_iff.mp (resolve_eq_ok_iff.mp hroot).1
  refine ensureLegal_eq_ok_iff.mpr ⟨fun hmem ↦ ?_, ?_⟩
  · rcases mem_toList_joinPath hmem with hmem | hmem | hmem
    · exact hnull hmem
    · exact absurd hmem (by decide)
    · exact absurd hmem (by decide)
  · exact (utf8ByteSize_joinPath_le (by decide)).trans (ensureLegal_eq_ok_iff.mp h).2

theorem gamePlace_injective (d : Place) : Function.Injective (gamePlace d) := fun a b h ↦ by
  have hfile : [fileName a] = [fileName b] := List.append_cancel_left h
  exact fileName_injective (List.singleton_inj.mp hfile)

/-- Documents stand deeper than everything else. -/
theorem gamePlace_ne (d : Place) (name : String) :
    gamePlace d name ≠ d ∧ gamePlace d name ≠ gamesPlace d ∧ gamePlace d name ≠ indexPlace d := by
  refine ⟨?_, ?_, ?_⟩ <;>
  · intro h
    have := congrArg List.length h
    simp [gamePlace, gamesPlace, indexPlace] at this

theorem indexPlace_ne (d : Place) : indexPlace d ≠ d ∧ indexPlace d ≠ gamesPlace d := by
  refine ⟨?_, ?_⟩
  · simp [indexPlace]
  · intro h
    have hname := List.append_cancel_left h
    exact absurd hname (by decide)

namespace Shelves

theorem resolve_indexPath (h : Shelves root d s t) (hroot : ensureLegal (indexPath root) = .ok ()) :
    t.resolve (indexPath root) = .ok (indexPlace d) :=
  (resolve_joinPath_iff h.leads isName_index).mpr ⟨hroot, ⟨h.folder, by decide⟩, rfl⟩

theorem resolve_gamesPath (h : Shelves root d s t) (hroot : ensureLegal (indexPath root) = .ok ()) :
    t.resolve (gamesPath root) = .ok (gamesPlace d) :=
  (resolve_joinPath_iff h.leads isName_gamesName).mpr
    ⟨ensureLegal_gamesPath h.leads hroot, ⟨h.folder, by decide⟩, rfl⟩

theorem resolve_gamePath_iff (h : Shelves root d s t)
    (hroot : ensureLegal (indexPath root) = .ok ()) (hname : isUsableName name = true) :
    t.resolve (gamePath root name) = .ok q ↔ Fits root name ∧ q = gamePlace d name := by
  rw [gamePath, resolve_joinPath_iff (h.resolve_gamesPath hroot) (isName_fileName hname),
    and_iff_right h.games, Fits, and_assoc]
  rfl

/-- The path of a document leads to the text that is on the shelf. -/
theorem resolve_gamePath (h : Shelves root d s t) (hroot : ensureLegal (indexPath root) = .ok ())
    (hlookup : s.lookup name = some text) :
    t.resolve (gamePath root name) = .ok (gamePlace d name) ∧
      t.node? (gamePlace d name) = some (.text text) := by
  obtain ⟨hname, hfits⟩ := h.usable name (by simp [hlookup])
  refine ⟨(h.resolve_gamePath_iff hroot hname).mpr ⟨hfits, rfl⟩, ?_⟩
  rw [h.document, hlookup, Option.map_some]

/-- A file stands where a document belongs if its text is on the shelf. -/
theorem has_gamePath (h : Shelves root d s t) (hroot : ensureLegal (indexPath root) = .ok ())
    (hname : isUsableName name = true) :
    t.has (gamePath root name) = (s.lookup name).isSome := by
  have hnode : (t.node? (gamePlace d name)).isSome = (s.lookup name).isSome := by
    rw [h.document, Option.isSome_map]
  rw [FileTree.has]
  cases hresolve : t.resolve (gamePath root name) with
  | ok q =>
    obtain ⟨-, rfl⟩ := (h.resolve_gamePath_iff hroot hname).mp hresolve
    exact hnode
  | error e =>
    -- the name is too long, and such names are not on the shelf
    cases hlookup : s.lookup name with
    | none => rfl
    | some text =>
      exact absurd (hresolve.symm.trans (h.resolve_gamePath hroot hlookup).1) (by simp)

/-- The entries of the documents are those of the names on the shelf. -/
theorem entriesOf_children (h : Shelves root d s t) :
    entriesOf (t.children (gamesPlace d)) = s.names.map entry := by
  have hmem : ∀ name, name ∈ (t.children (gamesPlace d)).filterMap stem? ↔ name ∈ s.names := by
    intro name
    rw [Shelf.mem_names, List.mem_filterMap]
    have hnode := h.document name
    constructor
    · rintro ⟨file, hfile, hstem⟩
      obtain ⟨rfl, -⟩ := stem?_eq_some_iff.mp hstem
      rw [mem_children, ← gamePlace, hnode, Option.isSome_map] at hfile
      exact hfile
    · intro hname
      have hne : name ≠ "" := by
        rintro rfl
        exact absurd (h.usable "" hname).1 (by decide)
      refine ⟨fileName name, ?_, stem?_eq_some_iff.mpr ⟨rfl, hne⟩⟩
      rw [mem_children, ← gamePlace, hnode, Option.isSome_map]
      exact hname
  have hperm := (List.perm_ext_iff_of_nodup (nodup_filterMap_stem? h.nodup)
    (Finset.sort_nodup _ _)).mpr hmem
  exact entriesOf_eq hperm Shelf.pairwise_names

/-! ## Writing -/

/-- Folders stay, and documents are changed as the shelf is. -/
theorem change {t' : FileTree} {s' : Shelf} (h : Shelves root d s t) (hfolders : HasFolders t t')
    (hindex : t'.node? (indexPlace d) ≠ some .folder)
    (hdocument : ∀ name, t'.node? (gamePlace d name) = (s'.lookup name).map .text)
    (hnodup : (t'.children (gamesPlace d)).Nodup)
    (husable : ∀ name, (s'.lookup name).isSome → isUsableName name = true ∧ Fits root name) :
    Shelves root d s' t' :=
  ⟨hfolders.resolve h.leads, hfolders.folders d h.folder, hfolders.folders _ h.games, hindex,
    hdocument, hnodup, husable⟩

theorem node?_gamePlace_ne (h : Shelves root d s t) (name : String) :
    t.node? (gamePlace d name) ≠ some .folder := by
  rw [h.document]
  cases s.lookup name <;> simp

/-- The index is written. -/
theorem put_index (h : Shelves root d s t) (text : String) :
    Shelves root d s (t.put (indexPlace d) (.text text)) := by
  refine h.change (HasFolders.put h.index _) ?_ (fun name ↦ ?_) (nodup_children_put h.nodup)
    h.usable
  · rw [node?_put_self (by simp [indexPlace])]
    simp
  · rw [node?_put_of_ne (gamePlace_ne d name).2.2, h.document]

/-- A document is written. -/
theorem put_document (h : Shelves root d s t) (hname : isUsableName name = true)
    (hfits : Fits root name) (text : String) :
    Shelves root d (s.insert name text) (t.put (gamePlace d name) (.text text)) := by
  refine h.change (HasFolders.put (h.node?_gamePlace_ne name) _) ?_ (fun name' ↦ ?_)
    (nodup_children_put h.nodup) fun name' hname' ↦ ?_
  · rw [node?_put_of_ne (gamePlace_ne d name).2.2.symm]
    exact h.index
  · by_cases heq : name' = name
    · rw [heq, node?_put_self (by simp [gamePlace]), Finmap.lookup_insert, Option.map_some]
    · rw [node?_put_of_ne ((gamePlace_injective d).ne heq), h.document,
        Finmap.lookup_insert_of_ne s heq]
  · by_cases heq : name' = name
    · exact heq ▸ ⟨hname, hfits⟩
    · rw [Finmap.lookup_insert_of_ne s heq] at hname'
      exact h.usable name' hname'

/-- A document is removed. -/
theorem unlink_document (h : Shelves root d s t) (name : String) :
    Shelves root d (s.erase name) (t.unlink (gamePlace d name)) := by
  refine h.change (HasFolders.unlink _) ?_ (fun name' ↦ ?_) (nodup_children_unlink h.nodup)
    fun name' hname' ↦ ?_
  · rw [node?_unlink_of_ne (gamePlace_ne d name).2.2.symm]
    exact h.index
  · by_cases heq : name' = name
    · rw [heq, node?_unlink_self (by simp [gamePlace]) (h.node?_gamePlace_ne name),
        Finmap.lookup_erase, Option.map_none]
    · rw [node?_unlink_of_ne ((gamePlace_injective d).ne heq), h.document,
        Finmap.lookup_erase_ne heq]
  · by_cases heq : name' = name
    · rw [heq, Finmap.lookup_erase] at hname'
      exact absurd hname' (by simp)
    · rw [Finmap.lookup_erase_ne heq] at hname'
      exact h.usable name' hname'

end Shelves

/-- The folder of documents is made. -/
theorem shelves_put_games (h : t.HasEmptyFolder root d) :
    Shelves root d ∅ (t.put (gamesPlace d) .folder) := by
  have hgames : t.node? (gamesPlace d) = none := h.empty _ (List.cons_ne_nil _ _)
  have hindex : t.node? (indexPlace d) = none := h.empty _ (List.cons_ne_nil _ _)
  have hempty : ∀ file, t.node? (gamesPlace d ++ [file]) = none := fun file ↦ by
    rw [gamesPlace, List.append_assoc]
    exact h.empty _ (List.cons_ne_nil _ _)
  have hfolders : HasFolders t (t.put (gamesPlace d) .folder) := .put (by simp [hgames]) _
  refine ⟨hfolders.resolve h.leads, hfolders.folders d h.folder,
    node?_put_self (by simp [gamesPlace]), ?_, fun name ↦ ?_, nodup_children_put ?_,
    fun name hname ↦ ?_⟩
  · rw [node?_put_of_ne (indexPlace_ne d).2, hindex]
    simp
  · rw [node?_put_of_ne (gamePlace_ne d name).2.1, Finmap.lookup_empty]
    exact hempty _
  · have hnil : t.children (gamesPlace d) = [] := by
      refine List.eq_nil_iff_forall_not_mem.mpr fun file hfile ↦ ?_
      rw [mem_children, hempty] at hfile
      exact absurd hfile (by simp)
    rw [hnil]
    exact List.nodup_nil
  · rw [Finmap.lookup_empty] at hname
    exact absurd hname (by simp)

/-! ## Operations -/

/-- What is in the folder of documents is written into the index. -/
theorem perform_rebuildIndex {g : Place} (hg : t.resolve (gamesPath root) = .ok g)
    (hgames : t.node? g = some .folder) :
    t.perform (rebuildIndex root) =
      t.perform (FileAccess.write (indexPath root) (indexText (entriesOf (t.children g)))) := by
  rw [rebuildIndex, perform_bind, perform_list, list_eq_ok hg hgames]
  rfl

section Operations

variable (hroot : ensureLegal (indexPath root) = .ok ())

include hroot

/-- **The index is made anew.** Then the library is open. -/
theorem gives_rebuildIndex :
    Gives (Shelves root d s) (rebuildIndex root) (.ok ()) (IsOpen root d s (.folder root)) := by
  intro t ht
  refine ⟨_, ?_, rfl, ht.put_index (indexText (s.names.map entry)),
    node?_put_self (by simp [indexPlace])⟩
  rw [perform_rebuildIndex (ht.resolve_gamesPath hroot) ht.games, ht.entriesOf_children]
  exact perform_write (ht.resolve_indexPath hroot) ht.index _

theorem perform_prepare (ht : IsClosed root d s t) :
    ∃ t', t.perform (prepare root) = (.ok (), t') ∧ IsOpen root d s (.folder root) t' := by
  have hmade : ∃ t₁, t.perform (Filing.makeFolders (gamesPath root)) = (.ok (), t₁) ∧
      Shelves root d s t₁ := by
    rcases ht with ⟨rfl, ht⟩ | ht
    · have hmake := (makeFolders_joinPath ht.leads ht.folder isName_gamesName (by decide)
        (ensureLegal_gamesPath ht.leads hroot)).1 (ht.empty _ (List.cons_ne_nil _ _))
      refine ⟨_, ?_, shelves_put_games ht⟩
      rw [Filing.makeFolders, perform_get_bind, gamesPath, hmake]
      rfl
    · have hmake := (makeFolders_joinPath ht.leads ht.folder isName_gamesName (by decide)
        (ensureLegal_gamesPath ht.leads hroot)).2 ht.games
      refine ⟨t, ?_, ht⟩
      rw [Filing.makeFolders, perform_get_bind, gamesPath, hmake]
      rfl
  obtain ⟨t₁, hmade, ht₁⟩ := hmade
  obtain ⟨t', hindex, ht'⟩ := gives_rebuildIndex hroot t₁ ht₁
  exact ⟨t', (perform_bind_of_ok hmade _).trans hindex, ht'⟩

theorem gives_list :
    Gives (IsOpen root d s l) l.list (.ok (s.names.map entry)) (IsOpen root d s l) := by
  rintro t ⟨rfl, ht, hindex⟩
  refine ⟨t, ?_, rfl, ht, hindex⟩
  refine (perform_bind_of_ok (perform_read_of_text (ht.resolve_indexPath hroot) hindex) _).trans ?_
  rw [entriesOfText_indexText]
  rfl

/-- A document is there if its text is on the shelf. -/
theorem perform_ensureStored (ht : Shelves root d s t) (hname : isUsableName name = true) :
    t.perform (ensureStored root name) =
      (require (.notFound name) (s.lookup name).isSome, t) := by
  have hensure : ensureUsableName name = .ok () := require_eq_ok_iff.mpr hname
  rw [ensureStored, perform_lift_bind_of_ok hensure, perform_bind_of_ok (perform_has t _),
    ht.has_gamePath hroot hname]
  rfl

theorem gives_load (hname : isUsableName name = true) :
    Gives (IsOpen root d s l) (l.load name)
      (need (.notFound name) (s.lookup name) >>= ruleSetOfText (gamePath root name))
      (IsOpen root d s l) := by
  rintro t ⟨rfl, ht, hindex⟩
  refine ⟨t, ?_, rfl, ht, hindex⟩
  have hstored := perform_ensureStored hroot ht hname
  cases hlookup : s.lookup name with
  | none =>
    rw [hlookup] at hstored
    exact perform_bind_of_error hstored _
  | some text =>
    rw [hlookup] at hstored
    obtain ⟨hresolve, hdocument⟩ := ht.resolve_gamePath hroot hlookup
    refine (perform_bind_of_ok hstored _).trans ?_
    exact (perform_bind_of_ok (perform_read_of_text hresolve hdocument) _).trans (perform_lift t _)

theorem gives_save {w : RuleSet} (hname : isUsableName w.name = true) (hfits : Fits root w.name) :
    Gives (IsOpen root d s l) (l.save w) (.ok ()) (IsOpen root d (s.insert w.name w.text) l) := by
  rintro t ⟨rfl, ht, -⟩
  have hensure : ensureUsableName w.name = .ok () := require_eq_ok_iff.mpr hname
  have hresolve := (ht.resolve_gamePath_iff hroot hname).mpr ⟨hfits, rfl⟩
  obtain ⟨t', hrebuild, ht'⟩ := gives_rebuildIndex hroot _ (ht.put_document hname hfits w.text)
  refine ⟨t', ?_, ht'⟩
  change t.perform (save root w) = _
  rw [save, perform_lift_bind_of_ok hensure, saveTo,
    perform_bind_of_ok (perform_write hresolve (ht.node?_gamePlace_ne _) _), hrebuild]

theorem gives_delete (hname : isUsableName name = true) (hlookup : s.lookup name = some text) :
    Gives (IsOpen root d s l) (l.delete name) (.ok ()) (IsOpen root d (s.erase name) l) := by
  rintro t ⟨rfl, ht, -⟩
  have hstored := perform_ensureStored hroot ht hname
  rw [hlookup] at hstored
  obtain ⟨hresolve, hdocument⟩ := ht.resolve_gamePath hroot hlookup
  have hremove : t.perform (FileAccess.remove (gamePath root name)) = _ :=
    perform_remove_eq_iff.mpr (.inl ⟨remove_eq_ok hresolve hdocument, rfl⟩)
  obtain ⟨t', hrebuild, ht'⟩ := gives_rebuildIndex hroot _ (ht.unlink_document name)
  refine ⟨t', ?_, ht'⟩
  change t.perform (delete root name) = _
  rw [delete, perform_bind_of_ok hstored, perform_bind_of_ok hremove, hrebuild]

theorem gives_delete_missing (hname : isUsableName name = true) (hlookup : s.lookup name = none) :
    Gives (IsOpen root d s l) (l.delete name) (.error (.notFound name)) (IsOpen root d s l) := by
  rintro t ⟨rfl, ht, hindex⟩
  have hstored := perform_ensureStored hroot ht hname
  rw [hlookup] at hstored
  exact ⟨t, perform_bind_of_error hstored _, rfl, ht, hindex⟩

/-- **A folder stands for a shelf.** -/
theorem backs (d : Place) :
    Library.Backs (.folder root) (Fits root) (IsClosed root d) (IsOpen root d) where
  attach ht := by
    obtain ⟨t', hprepare, ht'⟩ := perform_prepare hroot ht
    exact ⟨.folder root, t', perform_bind_of_ok hprepare _, ht'⟩
  detach := by
    rintro s l t ⟨rfl, ht, -⟩
    exact ⟨t, rfl, .inr ht⟩
  list := ⟨_, gives_list hroot⟩
  load hname := ⟨_, gives_load hroot hname⟩
  save hname hfits := gives_save hroot hname hfits
  delete hname hlookup := gives_delete hroot hname hlookup
  delete_missing hname hlookup := gives_delete_missing hroot hname hlookup

end Operations

end FolderLibrary

end Tabletop
