import Mathlib

/-!
# Stems and extensions

The name of a file is cut at its last dot: the extension follows the dot, and the stem stands before
it. A dot with nothing before it cuts nothing off, so that a hidden file has no extension if it has
no other dot.
-/

namespace Tabletop

variable {file stem extension : String}

/-- What stands before the last dot of a file name. Nothing if there is no dot. -/
def beforeLastDot (file : String) : List Char := (file.toList.rdropWhile (· != '.')).dropLast

/-- The extension of a file name, if it has one. -/
def extensionOf? (file : String) : Option String :=
  if beforeLastDot file = [] then none
  else some (String.ofList (file.toList.rtakeWhile (· != '.')))

/-- The name of a file without its extension. -/
def stemOf (file : String) : String :=
  if beforeLastDot file = [] then file else String.ofList (beforeLastDot file)

/-- A name with a dot falls into what stands before the last one and what follows it. -/
theorem eq_of_beforeLastDot (h : beforeLastDot file ≠ []) :
    file.toList = beforeLastDot file ++ '.' :: file.toList.rtakeWhile (· != '.') := by
  have hne : file.toList.rdropWhile (· != '.') ≠ [] := by
    intro hnil
    exact h (by rw [beforeLastDot, hnil, List.dropLast_nil])
  have hdot : (file.toList.rdropWhile (· != '.')).getLast hne = '.' := by
    simpa using List.rdropWhile_last_not (· != '.') file.toList hne
  conv_lhs => rw [← List.rdropWhile_append_rtakeWhile (p := (· != '.')) (l := file.toList),
    ← List.dropLast_append_getLast hne, hdot]
  rw [beforeLastDot, List.append_assoc, List.singleton_append]

/-- **Where a file name is cut.** There is one way only. -/
theorem extensionOf?_eq_some_iff :
    extensionOf? file = some extension ∧ stemOf file = stem ↔
      file = stem ++ "." ++ extension ∧ stem ≠ "" ∧ '.' ∉ extension.toList := by
  constructor
  · rintro ⟨hextension, rfl⟩
    rw [extensionOf?] at hextension
    split at hextension
    · cases hextension
    · rename_i hdot
      obtain rfl := Option.some.inj hextension
      rw [stemOf, if_neg hdot]
      refine ⟨String.toList_injective ?_, ?_, fun hmem ↦ ?_⟩
      · simpa using eq_of_beforeLastDot hdot
      · simpa [← String.toList_eq_nil_iff] using hdot
      · rw [String.toList_ofList] at hmem
        exact absurd (List.mem_rtakeWhile_imp hmem) (by decide)
  · rintro ⟨rfl, hstem, hdot⟩
    have hext : ∀ c ∈ extension.toList.reverse, (c != '.') = true := fun c hc ↦
      bne_iff_ne.mpr fun h ↦ hdot (h ▸ List.mem_reverse.mp hc)
    have hlist : (stem ++ "." ++ extension).toList = stem.toList ++ '.' :: extension.toList := by
      simp
    have hbefore : beforeLastDot (stem ++ "." ++ extension) = stem.toList := by
      rw [beforeLastDot, hlist, List.rdropWhile, List.reverse_append, List.reverse_cons,
        List.append_assoc, List.dropWhile_append_of_pos hext]
      simp
    have hafter : (stem ++ "." ++ extension).toList.rtakeWhile (· != '.') = extension.toList := by
      rw [hlist, List.rtakeWhile, List.reverse_append, List.reverse_cons, List.append_assoc,
        List.takeWhile_append_of_pos hext]
      simp
    have hne : stem.toList ≠ [] := mt String.toList_eq_nil_iff.mp hstem
    rw [extensionOf?, stemOf, hbefore, hafter, if_neg hne, if_neg hne, String.ofList_toList,
      String.ofList_toList]
    exact ⟨rfl, rfl⟩

end Tabletop
