import Tabletop.Library.Folder
import Tabletop.Proofs.Json.Decode
import Tabletop.Proofs.Json.Tree
import Tabletop.Proofs.Files.Tree

/-!
# The index of a folder

A file is a document if it has the name that belongs to the name of a rule set
(`stem?_eq_some_iff`). The index lists the names of the documents in order (`entriesOf_eq`), and is
read as it was written (`entriesOfText_indexText`).
-/

namespace Tabletop

namespace FolderLibrary

variable {name file : String} {names fileNames : List String}

/-! ## Names of files -/

/-- A file is a document if its name is that of the file of a rule set. -/
theorem stem?_eq_some_iff : stem? file = some name ↔ file = fileName name ∧ name ≠ "" := by
  constructor
  · intro h
    rw [stem?] at h
    split at h
    · rename_i c cs hreverse
      obtain rfl := Option.some.inj h
      have hlist : file.toList = (c :: cs).reverse ++ ".json".toList := by
        rw [← List.reverse_reverse file.toList, hreverse]
        exact @List.reverse_append _ ['n', 'o', 's', 'j', '.'] (c :: cs)
      refine ⟨String.toList_injective ?_, ?_⟩
      · rw [hlist, fileName, String.toList_append, (String.toList_ofList : _ = (c :: cs).reverse)]
      · intro hempty
        have := congrArg String.toList hempty
        simp at this
    · exact absurd h (by simp)
  · rintro ⟨rfl, hname⟩
    obtain ⟨c, cs, hreverse⟩ := List.exists_cons_of_ne_nil
      (List.reverse_ne_nil_iff.mpr (mt String.toList_eq_nil_iff.mp hname))
    have hlist : (fileName name).toList.reverse = 'n' :: 'o' :: 's' :: 'j' :: '.' :: c :: cs := by
      rw [fileName, String.toList_append, List.reverse_append, hreverse]
      rfl
    rw [stem?, hlist]
    change some (String.ofList (c :: cs).reverse) = some name
    rw [← hreverse, List.reverse_reverse, String.ofList_toList]

theorem fileName_injective : Function.Injective fileName := fun a b h ↦ by
  have hlist := congrArg String.toList h
  rw [fileName, fileName, String.toList_append, String.toList_append, List.append_left_inj] at hlist
  exact String.toList_injective hlist

/-- The file of a rule set has a name of its own in the folder of documents. -/
theorem isName_fileName (h : isUsableName name = true) : FileTree.IsName (fileName name) := by
  have hending : ∀ s : String, s.utf8ByteSize < 5 → fileName name ≠ s := by
    rintro _ hs rfl
    rw [fileName, String.utf8ByteSize_append, show ".json".utf8ByteSize = 5 from rfl] at hs
    omega
  refine ⟨hending "" (by decide), hending "." (by decide), hending ".." (by decide), ?_⟩
  have hname : '/' ∉ name.toList := by
    intro hmem
    rw [isUsableName, Bool.and_eq_true, Bool.not_eq_true', List.any_eq_false] at h
    exact h.2 '/' hmem rfl
  rw [fileName, String.toList_append, List.mem_append]
  exact not_or.mpr ⟨hname, by decide⟩

/-! ## The entries -/

theorem pairwise_mergeSort_names (names : List String) :
    (names.mergeSort fun a b ↦ a ≤ b).Pairwise (· ≤ ·) := by
  have hdecided : (names.mergeSort fun a b ↦ a ≤ b).Pairwise fun a b ↦ decide (a ≤ b) = true :=
    List.pairwise_mergeSort
      (fun a b c hab hbc ↦ by simpa using le_trans (by simpa using hab) (by simpa using hbc))
      (fun a b ↦ by simpa using le_total a b) _
  exact hdecided.imp of_decide_eq_true

/-- Different files have different names in them. -/
theorem nodup_filterMap_stem? (h : fileNames.Nodup) : (fileNames.filterMap stem?).Nodup :=
  h.filterMap fun file file' name hfile hfile' ↦ by
    rw [(stem?_eq_some_iff.mp hfile).1, (stem?_eq_some_iff.mp hfile').1]

/-- The entries are those of the names that the files say, in order. -/
theorem entriesOf_eq (hnames : (fileNames.filterMap stem?).Perm names)
    (hpairwise : names.Pairwise (· ≤ ·)) : entriesOf fileNames = names.map entry := by
  rw [entriesOf]
  congr 1
  exact List.Perm.eq_of_pairwise (fun a b _ _ h h' ↦ le_antisymm h h')
    (pairwise_mergeSort_names _) hpairwise ((List.mergeSort_perm _ _).trans hnames)

/-! ## The text -/

theorem legible_entryToJson {room : Nat} (e : Entry) : Json.Legible (room + 1) (entryToJson e) := by
  refine .object ?_
  simp only [List.forall_mem_cons]
  exact ⟨.string _, .string _, List.forall_mem_nil _⟩

theorem read_entryToJson (e : Entry) : entryOfJson (entryToJson e) = .ok e :=
  Json.read_record rfl <| Json.Reading.seq_ok (Json.Reading.map_ok rfl) (Json.read_fieldOr rfl rfl)

/-- **An index is read as it was written.** -/
theorem entriesOfText_indexText (entries : List Entry) :
    entriesOfText (indexText entries) = .ok entries := by
  have hlegible :
      Json.Legible Json.maxDepth (.object [("games", .array (entries.map entryToJson))]) := by
    refine .object ?_
    simp only [List.forall_mem_cons]
    exact ⟨.array (List.forall_mem_map.mpr fun e _ ↦ legible_entryToJson e), List.forall_mem_nil _⟩
  have hentries : Json.asList entryOfJson (.array (entries.map entryToJson)) =
      .ok (entries.map id) := Json.read_list fun e _ ↦ read_entryToJson e
  have hfield : Json.fieldD (Json.asList entryOfJson) [] "games"
      [("games", .array (entries.map entryToJson))] = Json.Reading.ok entries := by
    rw [List.map_id] at hentries
    exact Json.read_fieldOr rfl hentries
  rw [entriesOfText, indexText, bind_eq_ok_iff]
  exact ⟨_, need_eq_ok_iff.mpr (Json.ofText?_pretty hlegible), Json.read_record rfl hfield⟩

end FolderLibrary

end Tabletop
