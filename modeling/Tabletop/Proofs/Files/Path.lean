import Mathlib
import Tabletop.Files.Path

/-!
# Joining paths

A name that is joined to the path of a folder becomes the last component. If the path ends in a
slash, its last component is nothing, which leads nowhere, and the name takes its place.
-/

namespace Tabletop

variable {separator : Char} {xs ys : List Char} {path name : String}

theorem pieces_ne_nil (separator : Char) (xs : List Char) : pieces separator xs ≠ [] := by
  cases xs with
  | nil => exact List.cons_ne_nil _ _
  | cons c cs =>
    rw [pieces]
    split
    · exact List.cons_ne_nil _ _
    · split <;> exact List.cons_ne_nil _ _

theorem pieces_append (separator : Char) (xs ys : List Char) :
    pieces separator (xs ++ separator :: ys) = pieces separator xs ++ pieces separator ys := by
  induction xs with
  | nil => simp [pieces]
  | cons c cs ih =>
    obtain ⟨p, ps, hcs⟩ := List.exists_cons_of_ne_nil (pieces_ne_nil separator cs)
    rw [List.cons_append, pieces, pieces, ih, hcs]
    split <;> rfl

theorem pieces_of_not_mem (h : separator ∉ xs) : pieces separator xs = [xs] := by
  induction xs with
  | nil => rfl
  | cons c cs ih =>
    obtain ⟨hc, hcs⟩ := List.ne_and_not_mem_of_not_mem_cons h
    rw [pieces, if_neg hc.symm, ih hcs]

theorem joinPath_of_slash (h : path.toList.getLast? = some '/') (name : String) :
    joinPath path name = path ++ name := by
  simp [joinPath, h]

theorem joinPath_of_not_slash (hpath : path ≠ "") (h : path.toList.getLast? ≠ some '/')
    (name : String) : joinPath path name = path ++ "/" ++ name := by
  simp [joinPath, h, hpath]

/-- The name is the last component. Those before it are the components of the path, if they are not
followed by nothing. -/
theorem pathComponents_joinPath (hpath : path ≠ "") (hname : '/' ∉ name.toList) :
    ∃ names, pathComponents (joinPath path name) = names ++ [name] ∧
      (pathComponents path = names ∨ pathComponents path = names ++ [""]) := by
  have hlast : (pieces '/' name.toList).map String.ofList = [name] := by
    rw [pieces_of_not_mem hname]
    simp
  by_cases h : path.toList.getLast? = some '/'
  · obtain ⟨cs, hcs⟩ := List.getLast?_eq_some_iff.mp h
    refine ⟨(pieces '/' cs).map String.ofList, ?_, .inr ?_⟩
    · rw [joinPath_of_slash h, pathComponents, String.toList_append, hcs, List.append_assoc,
        List.singleton_append, pieces_append, List.map_append, hlast]
    · rw [pathComponents, hcs, pieces_append, List.map_append]
      rfl
  · refine ⟨pathComponents path, ?_, .inl rfl⟩
    rw [joinPath_of_not_slash hpath h, pathComponents, String.toList_append, String.toList_append,
      List.append_assoc]
    change (pieces '/' (path.toList ++ '/' :: name.toList)).map String.ofList = _
    rw [pieces_append, List.map_append, hlast]
    rfl

theorem isAbsolute_joinPath (hpath : path ≠ "") (name : String) :
    isAbsolute (joinPath path name) = isAbsolute path := by
  have hhead : ∀ s : List Char, (path.toList ++ s).head? = path.toList.head? := by
    intro s
    cases h : path.toList with
    | nil => exact absurd (String.toList_eq_nil_iff.mp h) hpath
    | cons c cs => rfl
  by_cases h : path.toList.getLast? = some '/'
  · rw [joinPath_of_slash h, isAbsolute, isAbsolute, String.toList_append, hhead]
  · rw [joinPath_of_not_slash hpath h, isAbsolute, isAbsolute, String.append_assoc,
      String.toList_append, hhead]

/-- A joined path has the characters of both parts, and perhaps a slash. -/
theorem mem_toList_joinPath {c : Char} (h : c ∈ (joinPath path name).toList) :
    c ∈ path.toList ∨ c = '/' ∨ c ∈ name.toList := by
  rw [joinPath] at h
  split at h
  · rw [String.toList_append, List.mem_append] at h
    exact h.imp_right .inr
  · rw [String.toList_append, String.toList_append, List.mem_append, List.mem_append, or_assoc] at h
    exact h.imp_right (.imp_left fun hc ↦ by simpa using hc)

/-- The bytes of a joined path are those of the path, perhaps with a slash, and those of the name. -/
theorem utf8ByteSize_joinPath (path name : String) :
    (joinPath path name).utf8ByteSize = (joinPath path "").utf8ByteSize + name.utf8ByteSize := by
  rw [joinPath, joinPath]
  split <;> simp only [String.utf8ByteSize_append] <;> rfl

theorem le_utf8ByteSize_joinPath (path name : String) :
    path.utf8ByteSize + name.utf8ByteSize ≤ (joinPath path name).utf8ByteSize := by
  rw [joinPath]
  split <;> simp only [String.utf8ByteSize_append] <;> omega

theorem utf8ByteSize_joinPath_le {name' : String} (h : name.utf8ByteSize ≤ name'.utf8ByteSize) :
    (joinPath path name).utf8ByteSize ≤ (joinPath path name').utf8ByteSize := by
  rw [utf8ByteSize_joinPath, utf8ByteSize_joinPath path name']
  omega

end Tabletop
