import Tabletop.Proofs.Library.Listing

/-!
# Names and files

A rule set is filed under its name with `.json` behind it, and what is in a file is told from the
file name alone, by cutting the ending off again. Both ways fit for every name that can be used,
whatever dots it has: the ending is what follows the last dot, and the name before it is not empty,
so a name that begins with a dot or ends in `.json` itself comes back as it was.

Usable names have no separator of paths in them, and with the ending they are no step in a path. So
a file stands in the folder of documents, wherever that is, and neither above it nor further below
(`resolve_gamePath_eq_ok_iff`).
-/

namespace Tabletop

open FileTree

namespace FolderLibrary

variable {root name name' file : String} {files : List String} {t : FileTree} {p g : Place}

theorem ne_empty_of_usable (h : isUsableName name = true) : name ≠ "" := by
  rintro rfl
  exact absurd h (by decide)

/-! ## Where a file is -/

/-- The path of the folder of documents ends in its name, so one slash is put behind it. -/
theorem joinPath_gamesPath (root file : String) :
    joinPath (gamesPath root) file = gamesPath root ++ "/" ++ file := by
  refine joinPath_of_not_slash (gamesPath_ne_empty root) ?_ file
  have hlast (cs : List Char) : (cs ++ gamesName.toList).getLast? ≠ some '/' := by
    rw [List.getLast?_append_of_ne_nil cs (by decide)]
    decide
  rw [gamesPath, joinPath]
  split <;> exact String.toList_append ▸ hlast _

/-- The name of the file is the last component, behind those of the folder of documents. -/
theorem pathComponents_gamePath (h : isUsableName name = true) :
    pathComponents (gamePath root name) = pathComponents (gamesPath root) ++ [fileName name] := by
  have hlist : (gamePath root name).toList =
      (gamesPath root).toList ++ '/' :: (fileName name).toList := by
    rw [gamePath, joinPath_gamesPath]
    simp
  rw [pathComponents, hlist, pieces_append, pieces_of_not_mem (isName_fileName h).no_slash,
    List.map_append, List.map_singleton, String.ofList_toList]
  rfl

/-- **A file stands in the folder of documents.** Its path leads there, if it leads anywhere. -/
theorem resolve_gamePath_eq_ok_iff (h : isUsableName name = true) :
    t.resolve (gamePath root name) = .ok p ↔
      Fits root name ∧ ∃ g, t.resolve (gamesPath root) = .ok g ∧ t.node? g = some .folder ∧
        p = g ++ [fileName name] := by
  rw [gamePath, resolve_joinPath_eq_ok_iff (isName_fileName h), base,
    if_neg (gamesPath_ne_empty root)]
  constructor
  · rintro ⟨hlegal, g, hg, ⟨hfolder, hsize⟩, rfl⟩
    exact ⟨⟨hlegal, hsize⟩, g, hg, hfolder, rfl⟩
  · rintro ⟨⟨hlegal, hsize⟩, g, hg, hfolder, rfl⟩
    exact ⟨hlegal, g, hg, ⟨hfolder, hsize⟩, rfl⟩

theorem gamePath_injective (root : String) : Function.Injective (gamePath root) := by
  intro a b h
  rw [gamePath, gamePath, joinPath_gamesPath, joinPath_gamesPath] at h
  refine fileName_injective (String.toList_injective ?_)
  simpa using congrArg String.toList h

/-! ## What a file is called -/

theorem extensionOf?_fileName (h : name ≠ "") :
    extensionOf? (fileName name) = some "json" ∧ stemOf (fileName name) = name :=
  stem?_eq_some_iff_extension.mp (stem?_eq_some_iff.mpr ⟨rfl, h⟩)

/-- **A name is listed as often as there are files of it.** -/
theorem count_names_entriesOf (h : name ≠ "") (files : List String) :
    ((entriesOf files).map Entry.name).count name = files.count (fileName name) := by
  have hfile : ∀ file, (stem? file == some name) = (file == fileName name) := by
    intro file
    rw [Bool.eq_iff_iff, beq_iff_eq, beq_iff_eq, stem?_eq_some_iff]
    exact and_iff_left h
  calc ((entriesOf files).map Entry.name).count name
      = ((files.filterMap stem?).mergeSort fun a b ↦ a ≤ b).count name := by
        rw [names_entriesOf]
    _ = (files.filterMap stem?).count name := (List.mergeSort_perm _ _).count_eq name
    _ = files.countP (stem? · == some name) := List.count_filterMap
    _ = files.count (fileName name) := by
        rw [List.count]
        exact congrArg (List.countP · files) (funext hfile)

/-- What stands in the folder under the name of a file is listed. -/
theorem entry_mem_entriesOf (h : isUsableName name = true)
    (hfiles : t.list (gamesPath root) = .ok files) (hhas : t.has (gamePath root name) = true) :
    entry name ∈ entriesOf files := by
  obtain ⟨g, hg, -, rfl⟩ := list_eq_ok_iff.mp hfiles
  rw [has] at hhas
  split at hhas
  · rename_i p hp
    obtain ⟨-, g', hg', -, rfl⟩ := (resolve_gamePath_eq_ok_iff h).mp hp
    obtain rfl : g = g' := Except.ok.inj (hg.symm.trans hg')
    rw [entriesOf, List.mem_map]
    refine ⟨name, ?_, rfl⟩
    rw [List.mem_mergeSort, List.mem_filterMap]
    exact ⟨fileName name, mem_children.mpr hhas,
      stem?_eq_some_iff.mpr ⟨rfl, ne_empty_of_usable h⟩⟩
  · cases hhas

/-! ## One name, one file -/

/-- **Names and files.** The file of a usable name has a name of its own, which is the only
component that its path has more than that of the folder of documents. So in every tree the path
leads into the folder and not out of it or further down, if it leads anywhere. The extension of the
file is `json`, and its stem is the name. Hence the name is listed as often as the file is there,
what stands at the path is listed under the name, and no other usable name has the same file. -/
theorem file_of_usable (root : String) (h : ensureUsableName name = .ok ()) :
    (IsName (fileName name) ∧
        pathComponents (gamePath root name) = pathComponents (gamesPath root) ++ [fileName name]) ∧
      (∀ (t : FileTree) p, t.resolve (gamePath root name) = .ok p ↔
        Fits root name ∧ ∃ g, t.resolve (gamesPath root) = .ok g ∧ t.node? g = some .folder ∧
          p = g ++ [fileName name]) ∧
      (extensionOf? (fileName name) = some "json" ∧ stemOf (fileName name) = name) ∧
      (∀ files, ((entriesOf files).map Entry.name).count name = files.count (fileName name)) ∧
      (∀ (t : FileTree) files, t.list (gamesPath root) = .ok files →
        t.has (gamePath root name) = true → entry name ∈ entriesOf files) ∧
      ∀ name', ensureUsableName name' = .ok () → name' ≠ name →
        gamePath root name' ≠ gamePath root name ∧
          ∀ (t : FileTree) p, t.resolve (gamePath root name) = .ok p →
            t.resolve (gamePath root name') ≠ .ok p := by
  have husable : isUsableName name = true := require_eq_ok_iff.mp h
  have hne := ne_empty_of_usable husable
  refine ⟨⟨isName_fileName husable, pathComponents_gamePath husable⟩,
    fun t p ↦ resolve_gamePath_eq_ok_iff husable, extensionOf?_fileName hne,
    count_names_entriesOf hne, fun t files ↦ entry_mem_entriesOf husable, ?_⟩
  intro name' h' hother
  refine ⟨(gamePath_injective root).ne hother, fun t p hp hp' ↦ hother ?_⟩
  have husable' : isUsableName name' = true := require_eq_ok_iff.mp h'
  obtain ⟨-, g, hg, -, rfl⟩ := (resolve_gamePath_eq_ok_iff husable).mp hp
  obtain ⟨-, g', hg', -, hfiles⟩ := (resolve_gamePath_eq_ok_iff husable').mp hp'
  obtain rfl : g = g' := Except.ok.inj (hg.symm.trans hg')
  exact fileName_injective (List.singleton_inj.mp (List.append_cancel_left hfiles)).symm

/-- A folder with the document of a rule set whose name begins with a dot and ends like a document. -/
def stash : FileTree :=
  ((FileTree.ofWorking ["home"]).put ["home", "games"] .folder).put
    ["home", "games", ".dots..json.json"] (.text "")

theorem file_of_usable_stash :
    (ensureUsableName ".dots..json" = .ok () ∧ ensureUsableName ".dots." = .ok () ∧
        stash.list (gamesPath "") = .ok [".dots..json.json"] ∧
        stash.has (gamePath "" ".dots..json") = true) ∧
      entry ".dots..json" ∈ entriesOf [".dots..json.json"] ∧
      stash.resolve (gamePath "" ".dots..json") = .ok ["home", "games", ".dots..json.json"] ∧
      stash.resolve (gamePath "" ".dots.") ≠ .ok ["home", "games", ".dots..json.json"] := by
  have husable : ensureUsableName ".dots..json" = .ok () := by decide +kernel
  have hother : ensureUsableName ".dots." = .ok () := by decide +kernel
  have hlist : stash.list (gamesPath "") = .ok [".dots..json.json"] := by decide +kernel
  have hhas : stash.has (gamePath "" ".dots..json") = true := by decide +kernel
  have hresolve : stash.resolve (gamePath "" ".dots..json") =
      .ok ["home", "games", ".dots..json.json"] := by decide +kernel
  obtain ⟨-, -, -, -, hlisted, hown⟩ := file_of_usable "" husable
  exact ⟨⟨husable, hother, hlist, hhas⟩, hlisted stash _ hlist hhas, hresolve,
    (hown ".dots." hother (by decide)).2 stash _ hresolve⟩

end FolderLibrary

end Tabletop
