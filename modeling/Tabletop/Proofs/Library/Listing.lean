import Tabletop.Proofs.Files.Extension
import Tabletop.Proofs.Library.Change
import Tabletop.Proofs.Text.Bytewise

/-!
# The listing of a folder

After every change of a library in a folder, its listing is that of the folder of documents
(`Change.list_run`): one entry for each file with the extension `json`, by its stem, in the order of
bytes. Nothing else has a say in it. The index that the listing is read from was made in the second
step of the change from what was in the folder then, and its file stands beside the folder and not
in it, so that writing it leaves the folder as it is.
-/

namespace Tabletop

open FileTree

namespace FolderLibrary

variable {root name file : String} {files : List String} {c : Change} {t t' : FileTree}
  {g i : Place}

/-! ## The entries -/

/-- The documents are the files with the extension `json`, and their names are the stems. -/
theorem stem?_eq_some_iff_extension :
    stem? file = some name ↔ extensionOf? file = some "json" ∧ stemOf file = name := by
  rw [stem?_eq_some_iff, extensionOf?_eq_some_iff, fileName, String.append_assoc]
  constructor
  · rintro ⟨rfl, hne⟩
    exact ⟨rfl, hne, by decide⟩
  · rintro ⟨rfl, hne, -⟩
    exact ⟨rfl, hne⟩

theorem names_entriesOf (files : List String) :
    (entriesOf files).map Entry.name = (files.filterMap stem?).mergeSort fun a b ↦ a ≤ b := by
  rw [entriesOf, List.map_map]
  exact List.map_id _

theorem mem_names_entriesOf :
    name ∈ (entriesOf files).map Entry.name ↔
      ∃ file ∈ files, extensionOf? file = some "json" ∧ stemOf file = name := by
  rw [names_entriesOf, List.mem_mergeSort, List.mem_filterMap]
  simp only [stem?_eq_some_iff_extension]

/-- The names are in order, and there is none twice if no file is there twice. -/
theorem pairwise_names_entriesOf (h : files.Nodup) :
    ((entriesOf files).map Entry.name).Pairwise fun a b ↦ octetsOf a < octetsOf b := by
  rw [names_entriesOf]
  have hnodup := (List.mergeSort_perm (files.filterMap stem?) fun a b ↦ a ≤ b).nodup_iff.mpr
    (nodup_filterMap_stem? h)
  exact (pairwise_mergeSort_names _).imp₂
    (fun a b hle hne ↦ octetsOf_strictMono (lt_of_le_of_ne hle hne)) hnodup

theorem location_of_mem_entriesOf {e : Entry} (h : e ∈ entriesOf files) :
    e.location = "games/" ++ e.name ++ ".json" := by
  obtain ⟨name, -, rfl⟩ := List.mem_map.mp h
  rw [entry, fileName, ← String.append_assoc]
  rfl

/-! ## The folder of documents -/

/-- The index stands beside the folder of documents. -/
theorem exists_places (hg : t.resolve (gamesPath root) = .ok g)
    (hi : t.resolve (indexPath root) = .ok i) : ∃ d, g = gamesPlace d ∧ i = indexPlace d := by
  obtain ⟨-, d, hd, -, rfl⟩ := (resolve_joinPath_eq_ok_iff isName_gamesName).mp hg
  obtain ⟨-, d', hd', -, rfl⟩ := (resolve_joinPath_eq_ok_iff isName_index).mp hi
  obtain rfl : d = d' := Except.ok.inj (hd.symm.trans hd')
  exact ⟨d, rfl, rfl⟩

/-- An index that was made says what is in the folder, and goes on saying it. -/
theorem list_of_rebuildIndex (h : t.perform (rebuildIndex root) = (.ok (), t')) :
    ∃ g, t'.list (gamesPath root) = .ok (t'.children g) ∧ t'.children g = t.children g ∧
      t'.perform (Library.folder root).list = (.ok (entriesOf (t'.children g)), t') := by
  obtain ⟨names, t₁, hnames, h⟩ := perform_bind_eq_ok_iff.mp h
  obtain ⟨hlist, rfl⟩ := Prod.mk.inj ((perform_list t _).symm.trans hnames)
  obtain ⟨g, hg, hgames, rfl⟩ := list_eq_ok_iff.mp (mapError_eq_ok_iff.mp hlist)
  obtain ⟨hwrite, -⟩ | ⟨_, -, he, -⟩ := perform_write_eq_iff.mp h
  · obtain ⟨i, hi, hfile, rfl⟩ := write_eq_ok_iff.mp hwrite
    obtain ⟨d, rfl, rfl⟩ := exists_places hg hi
    have hfolders := HasFolders.put hfile (.text (indexText (entriesOf (t.children (gamesPlace d)))))
    have hbeside : (indexPlace d).dropLast ≠ gamesPlace d := by simp [indexPlace, gamesPlace]
    refine ⟨gamesPlace d, ?_, children_put_of_ne hbeside, ?_⟩
    · exact list_eq_ok (hfolders.resolve hg) (hfolders.folders _ hgames)
    · rw [children_put_of_ne hbeside]
      have hread := perform_read_of_text (hfolders.resolve hi) (node?_put_self (by simp [indexPlace]))
      refine (perform_bind_of_ok hread _).trans ?_
      rw [entriesOfText_indexText]
      rfl
  · cases he

/-! ## Names that are there once

That no folder has a name twice is a condition on the files, which every change keeps, whether it
succeeds or not. -/

section

variable {r : Except LibraryError Unit}

theorem hasNoTwins_rebuildIndex (htwins : t.HasNoTwins)
    (h : t.perform (rebuildIndex root) = (r, t')) : t'.HasNoTwins := by
  rw [rebuildIndex, perform_bind, perform_list] at h
  cases hlist : t.list (gamesPath root) with
  | error cause =>
    rw [hlist] at h
    obtain rfl : t = t' := congrArg Prod.snd h
    exact htwins
  | ok files =>
    rw [hlist] at h
    obtain ⟨hwrite, -⟩ | ⟨_, -, -, rfl⟩ := perform_write_eq_iff.mp h
    · obtain ⟨i, -, -, rfl⟩ := write_eq_ok_iff.mp hwrite
      exact htwins.put _ _
    · exact htwins

namespace Change

theorem hasNoTwins_edit (htwins : t.HasNoTwins) (h : t.perform (c.edit root) = (r, t')) :
    t'.HasNoTwins := by
  cases c with
  | prepare =>
    obtain rfl : (t.makeFolders (gamesPath root)).2 = t' := congrArg Prod.snd h
    exact htwins.makeFolders _
  | save | delete | importFrom =>
    obtain ⟨-, hedits⟩ | ⟨_, -, rfl⟩ := cases_of_edit (by simp) h
    · exact hedits.hasNoTwins htwins
    · exact htwins

theorem hasNoTwins_run (htwins : t.HasNoTwins) (h : t.perform (c.run root) = (r, t')) :
    t'.HasNoTwins := by
  rw [run_eq, perform_bind] at h
  rcases hedit : t.perform (c.edit root) with ⟨e | u, t₁⟩
  · rw [hedit] at h
    obtain ⟨-, rfl⟩ := Prod.mk.inj h
    exact hasNoTwins_edit htwins hedit
  · rw [hedit] at h
    exact hasNoTwins_rebuildIndex (hasNoTwins_edit htwins hedit) h

end Change

end

namespace Change

/-! ## The listing after a change -/

/-- **The listing is that of the folder.** -/
theorem list_run (htwins : t.HasNoTwins) (h : t.perform (c.run root) = (.ok (), t')) :
    ∃ files entries, t'.list (gamesPath root) = .ok files ∧
      t'.perform (Library.folder root).list = (.ok entries, t') ∧
      (∀ name, name ∈ entries.map Entry.name ↔
        ∃ file ∈ files, extensionOf? file = some "json" ∧ stemOf file = name) ∧
      ((entries.map Entry.name).Pairwise fun a b ↦ octetsOf a < octetsOf b) ∧
      ∀ e ∈ entries, e.location = "games/" ++ e.name ++ ".json" := by
  rw [run_eq] at h
  obtain ⟨_, t₁, hedit, hrebuild⟩ := perform_bind_eq_ok_iff.mp h
  obtain ⟨g, hlist, hsame, hread⟩ := list_of_rebuildIndex hrebuild
  have hnodup : (t'.children g).Nodup := hsame ▸ hasNoTwins_edit htwins hedit g
  exact ⟨t'.children g, entriesOf (t'.children g), hlist, hread, fun name ↦ mem_names_entriesOf,
    pairwise_names_entriesOf hnodup, fun e he ↦ location_of_mem_entriesOf he⟩

/-- A folder with documents and other files, and something else in the place of the index. -/
def attic : FileTree :=
  [".json", "b.txt", "a.b.json", "Zed.json"].foldl
    (fun t file ↦ t.put ["home", "games", file] (.text file))
    (((FileTree.ofWorking ["home"]).put ["home", "games"] .folder).put ["home", "global.json"]
      (.text "nothing"))

theorem list_run_attic :
    attic.HasNoTwins ∧ ∃ t', attic.perform (prepare.run "") = (.ok (), t') ∧
      ∃ entries, t'.perform (Library.folder "").list = (.ok entries, t') ∧
        ∀ name, name ∈ entries.map Entry.name ↔ name = "a.b" ∨ name = "Zed" := by
  have htwins : attic.HasNoTwins :=
    ((((((hasNoTwins_ofWorking ["home"]).put _ _).put _ _).put _ _).put _ _).put _ _).put _ _
  have hrun : attic.perform (prepare.run "") = (.ok (), attic.put ["home", "global.json"]
      (.text (indexText (entriesOf [".json", "b.txt", "a.b.json", "Zed.json"])))) := rfl
  refine ⟨htwins, _, hrun, ?_⟩
  obtain ⟨files, entries, hfiles, hlist, hmem, -⟩ := list_run htwins hrun
  obtain rfl : [".json", "b.txt", "a.b.json", "Zed.json"] = files := Except.ok.inj hfiles
  refine ⟨entries, hlist, fun name ↦ (hmem name).trans ?_⟩
  have hhidden : extensionOf? ".json" = none := by decide +kernel
  have hother : extensionOf? "b.txt" = some "txt" := by decide +kernel
  have hfirst : extensionOf? "a.b.json" = some "json" ∧ stemOf "a.b.json" = "a.b" := by
    decide +kernel
  have hsecond : extensionOf? "Zed.json" = some "json" ∧ stemOf "Zed.json" = "Zed" := by
    decide +kernel
  simp [hhidden, hother, hfirst, hsecond, eq_comm]

end Change

end FolderLibrary

end Tabletop
