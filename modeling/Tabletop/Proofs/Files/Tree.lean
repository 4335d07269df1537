import Tabletop.Files.Tree
import Tabletop.Proofs.Files.Path
import Tabletop.Proofs.Table

/-!
# The laws of file trees

What stands where after a node is put or taken away, what a folder has in it then, and where paths
lead. Paths are followed from folder to folder, so a path that leads somewhere goes on leading there
as long as the folders stay (`HasFolders.resolve`). A name that is joined to the path of a folder
leads into it, and nowhere else (`resolve_joinPath_iff`).
-/

namespace Tabletop

section Lookup

variable {α β : Type} [BEq α] [LawfulBEq α] {k k' : α} {b : β}

theorem lookup_changeFirst_self (ps : List (α × β)) :
    (changeFirst (·.1 == k) (fun _ ↦ (k, b)) ps).lookup k = (ps.lookup k).map fun _ ↦ b := by
  induction ps with
  | nil => rfl
  | cons p ps ih =>
    obtain ⟨k', b'⟩ := p
    by_cases hk : k' = k
    · simp [changeFirst, hk]
    · have hne : (k == k') = false := beq_eq_false_iff_ne.mpr (Ne.symm hk)
      simp [changeFirst, List.lookup_cons, hk, hne, ih]

theorem lookup_changeFirst_of_ne (h : k' ≠ k) (ps : List (α × β)) :
    (changeFirst (·.1 == k) (fun _ ↦ (k, b)) ps).lookup k' = ps.lookup k' := by
  have hne : (k' == k) = false := beq_eq_false_iff_ne.mpr h
  induction ps with
  | nil => rfl
  | cons p ps ih =>
    obtain ⟨k₁, b₁⟩ := p
    by_cases hk : k₁ = k
    · simp [changeFirst, List.lookup_cons, hk, hne]
    · simp [changeFirst, List.lookup_cons, hk, ih]

theorem lookup_filter_of_ne (h : k' ≠ k) (ps : List (α × β)) :
    (ps.filter (·.1 != k)).lookup k' = ps.lookup k' := by
  induction ps with
  | nil => rfl
  | cons p ps ih =>
    by_cases hp : p.1 = k
    · have hne : (k' == p.1) = false := beq_eq_false_iff_ne.mpr (hp ▸ h)
      rw [List.filter_cons_of_neg (by simpa using hp), ih, List.lookup_cons, hne]
    · rw [List.filter_cons_of_pos (by simpa using hp), List.lookup_cons, List.lookup_cons, ih]

theorem lookup_filter_self (ps : List (α × β)) : (ps.filter (·.1 != k)).lookup k = none := by
  refine List.lookup_eq_none_iff.mpr fun p hp ↦ ?_
  rw [bne_comm]
  exact (List.mem_filter.mp hp).2

end Lookup

namespace FileTree

variable {t t' : FileTree} {p q d : Place} {n : Node} {name path root : String}

/-! ## Putting and taking away -/

theorem node?_of_ne_nil (hp : p ≠ []) : t.node? p = t.nodes.lookup p := by
  rw [node?, if_neg (by simpa using hp)]

theorem node?_put_self (hp : p ≠ []) : (t.put p n).node? p = some n := by
  rw [node?_of_ne_nil hp, put]
  dsimp only
  split
  · rename_i h
    rw [lookup_changeFirst_self]
    obtain ⟨old, hold⟩ := Option.isSome_iff_exists.mp h
    rw [hold, Option.map_some]
  · rename_i h
    rw [List.lookup_append, Option.not_isSome_iff_eq_none.mp h, List.lookup_cons_self,
      Option.none_or]

theorem node?_put_of_ne (h : q ≠ p) : (t.put p n).node? q = t.node? q := by
  by_cases hq : q = []
  · simp [node?, hq]
  · rw [node?_of_ne_nil hq, node?_of_ne_nil hq, put]
    dsimp only
    split
    · exact lookup_changeFirst_of_ne h _
    · rw [List.lookup_append, List.lookup_cons, beq_eq_false_iff_ne.mpr h, List.lookup_nil,
        Option.or_none]

theorem unlink_of_none (h : t.node? p = none) : t.unlink p = t := by
  rw [unlink, h]

@[simp] theorem working_unlink : (t.unlink p).working = t.working := by
  rw [unlink]
  split <;> rfl

theorem node?_unlink_of_ne (h : q ≠ p) : (t.unlink p).node? q = t.node? q := by
  rw [unlink]
  split
  · rfl
  · rfl
  · by_cases hq : q = []
    · simp [node?, hq]
    · rw [node?_of_ne_nil hq, node?_of_ne_nil hq]
      exact lookup_filter_of_ne h _

theorem node?_unlink_self (hp : p ≠ []) (h : t.node? p ≠ some .folder) :
    (t.unlink p).node? p = none := by
  rw [unlink]
  split
  · assumption
  · contradiction
  · rw [node?_of_ne_nil hp]
    exact lookup_filter_self _

theorem isTaken_unlink_self (hp : p ≠ []) (h : t.isFolder p = false) :
    (t.unlink p).isTaken p = false := by
  rw [isTaken, node?_unlink_self hp (by simpa [isFolder] using h)]
  rfl

@[simp] theorem opened_unlink : (t.unlink p).opened = t.opened := by
  rw [unlink]
  split <;> rfl

/-- Taking away a file leaves those alone that stand or stood at other places. -/
theorem file?_unlink_of_ne {k : FileKey} (h : k.place ≠ p) : (t.unlink p).file? k = t.file? k := by
  have hremoved : (t.unlink p).removed.lookup k = t.removed.lookup k := by
    rw [unlink]
    split
    · rfl
    · rfl
    · have hkey : (k == t.keyAt p) = false :=
        beq_eq_false_iff_ne.mpr fun hk ↦ h (congrArg FileKey.place hk)
      rw [List.lookup_append, List.lookup_cons, hkey, List.lookup_nil, Option.or_none]
  rw [file?, file?, hremoved, node?_unlink_of_ne h]

/-! ## What is in a folder -/

/-- The name of a place in a folder, if it is one. -/
def childOf? (p q : Place) : Option String := if q.dropLast = p then q.getLast? else none

theorem childOf?_eq_some_iff : childOf? p q = some name ↔ q = p ++ [name] := by
  rw [childOf?]
  constructor
  · intro h
    split at h
    · rename_i hp
      obtain ⟨ys, rfl⟩ := List.getLast?_eq_some_iff.mp h
      rw [← hp, List.dropLast_concat]
    · exact absurd h (by simp)
  · rintro rfl
    rw [if_pos List.dropLast_concat, List.getLast?_concat]

theorem children_eq : t.children p = (t.nodes.map Prod.fst).filterMap (childOf? p) := by
  rw [children, List.filterMap_map]
  rfl

/-- The names in a folder are those of what stands there. -/
theorem mem_children : name ∈ t.children p ↔ (t.node? (p ++ [name])).isSome := by
  rw [node?_of_ne_nil (by simp), List.lookup_isSome_iff, children_eq, List.mem_filterMap]
  simp only [childOf?_eq_some_iff, List.mem_map, beq_iff_eq, exists_eq_right]
  exact exists_congr fun a ↦ and_congr_right fun _ ↦ eq_comm

/-- A node is put in the place of another one, or after all others. -/
theorem children_put :
    (t.put q n).children p =
      if (t.nodes.lookup q).isSome then t.children p
      else t.children p ++ (childOf? p q).toList := by
  rw [children_eq, children_eq, put]
  dsimp only
  split
  · congr 1
    exact map_changeFirst Prod.fst _ fun a ha ↦ (eq_of_beq ha).symm
  · rw [List.map_append, List.filterMap_append, List.map_singleton]
    rfl

/-- What is put elsewhere is not in a folder. -/
theorem children_put_of_ne (h : q.dropLast ≠ p) : (t.put q n).children p = t.children p := by
  rw [children_put, childOf?, if_neg h, Option.toList_none, List.append_nil, ite_self]

/-- A folder has no name twice, and goes on so when a node is put. -/
theorem nodup_children_put (h : (t.children p).Nodup) : ((t.put q n).children p).Nodup := by
  rw [children_put]
  split
  · exact h
  · rename_i hq
    cases hchild : childOf? p q with
    | none => rwa [Option.toList_none, List.append_nil]
    | some name =>
      have hname : name ∉ t.children p := by
        intro hmem
        obtain rfl := childOf?_eq_some_iff.mp hchild
        rw [mem_children, node?_of_ne_nil (by simp)] at hmem
        exact hq hmem
      rw [Option.toList_some]
      exact List.nodup_append.mpr ⟨h, List.nodup_singleton name, fun a ha b hb hab ↦
        hname (List.mem_singleton.mp hb ▸ hab ▸ ha)⟩

theorem nodup_children_unlink (h : (t.children p).Nodup) : ((t.unlink q).children p).Nodup := by
  rw [unlink]
  split
  · exact h
  · exact h
  · exact h.sublist (List.Sublist.filterMap _ List.filter_sublist)

/-- Whether no folder has a name twice. -/
def HasNoTwins (t : FileTree) : Prop := ∀ p, (t.children p).Nodup

/-- There are none to begin with. -/
theorem hasNoTwins_ofWorking (working : Place) : (ofWorking working).HasNoTwins := fun p ↦ by
  have hplaces : ((ofWorking working).nodes.map Prod.fst).Nodup := by
    rw [ofWorking, List.map_map]
    refine List.Nodup.map_on (fun m hm n hn h ↦ ?_) List.nodup_range
    have hlength := congrArg List.length h
    rw [List.mem_range] at hm hn
    simp only [Function.comp_apply, List.length_take] at hlength
    omega
  rw [children_eq]
  refine hplaces.filterMap fun q q' name hq hq' ↦ ?_
  rw [childOf?_eq_some_iff.mp hq, childOf?_eq_some_iff.mp hq']

theorem HasNoTwins.put (h : t.HasNoTwins) (q : Place) (n : Node) : (t.put q n).HasNoTwins :=
  fun p ↦ nodup_children_put (h p)

theorem HasNoTwins.unlink (h : t.HasNoTwins) (q : Place) : (t.unlink q).HasNoTwins :=
  fun p ↦ nodup_children_unlink (h p)

/-! ## Following a path -/

/-- A name of something in a folder: no step in a path, and no path of several names. -/
structure IsName (name : String) : Prop where
  ne_empty : name ≠ ""
  ne_dot : name ≠ "."
  ne_dots : name ≠ ".."
  no_slash : '/' ∉ name.toList

theorem step_empty : t.step p "" = .ok q ↔ t.node? p = some .folder ∧ q = p := by
  rw [step]
  split
  · simp [*]
  · rename_i h
    rw [if_pos (.inl rfl), Except.ok.injEq, h, eq_comm]
    simp
  · rename_i hfolder h
    simp only [h, reduceCtorEq, Option.some.injEq, false_iff]
    exact fun hstep ↦ hfolder hstep.1

theorem node?_of_step (h : t.step p name = .ok q) : t.node? p = some .folder := by
  rw [step] at h
  split at h
  · exact absurd h (by simp)
  · assumption
  · exact absurd h (by simp)

/-- A name leads into the folder that it is followed from. -/
theorem step_eq_ok_iff (hname : IsName name) :
    t.step p name = .ok q ↔
      (t.node? p = some .folder ∧ name.utf8ByteSize ≤ maxNameBytes) ∧ q = p ++ [name] := by
  rw [step]
  split
  · simp [*]
  · rename_i h
    rw [if_neg (by simp [hname.ne_empty, hname.ne_dot]), if_neg hname.ne_dots,
      check_bind_eq_ok_iff, require_eq_ok_iff, pure_eq_ok_iff]
    simp [h, eq_comm]
  · rename_i hfolder h
    simp only [h, reduceCtorEq, Option.some.injEq, false_iff]
    exact fun hstep ↦ hfolder hstep.1.1

theorem ensureLegal_eq_ok_iff :
    ensureLegal path = .ok () ↔ '\x00' ∉ path.toList ∧ path.utf8ByteSize ≤ maxPathBytes := by
  rw [ensureLegal, check_bind_eq_ok_iff, require_eq_ok_iff, require_eq_ok_iff]
  simp

theorem resolve_eq_ok_iff :
    t.resolve path = .ok p ↔
      ensureLegal path = .ok () ∧ path ≠ "" ∧
        (pathComponents path).foldlM t.step (t.start path) = .ok p := by
  rw [resolve, check_bind_eq_ok_iff, check_bind_eq_ok_iff, require_eq_ok_iff]
  simp

/-- From where names lead to a folder there is a folder. -/
theorem isFolder_of_foldlM {names : List String} (h : names.foldlM t.step p = .ok q)
    (hq : t.node? q = some .folder) : t.node? p = some .folder := by
  cases names with
  | nil =>
    rw [List.foldlM_nil, pure_eq_ok_iff] at h
    exact h ▸ hq
  | cons name names =>
    rw [List.foldlM_cons, bind_eq_ok_iff] at h
    obtain ⟨_, hstep, -⟩ := h
    exact node?_of_step hstep

theorem joinPath_ne_empty (hpath : path ≠ "") (name : String) : joinPath path name ≠ "" := by
  rw [joinPath]
  split <;> simp [hpath]

/-- A name that is joined to a path is followed from where the path leads. -/
theorem foldlM_of_joinPath (hpath : t.resolve path = .ok d) (hname : '/' ∉ name.toList) :
    ∃ names, pathComponents (joinPath path name) = names ++ [name] ∧
      names.foldlM t.step (t.start (joinPath path name)) = .ok d := by
  obtain ⟨-, hne, hd⟩ := resolve_eq_ok_iff.mp hpath
  obtain ⟨names, hjoined, hnames⟩ := pathComponents_joinPath hne hname
  refine ⟨names, hjoined, ?_⟩
  rw [start, isAbsolute_joinPath hne, ← start]
  rcases hnames with hnames | hnames
  · exact hnames ▸ hd
  · rw [hnames, List.foldlM_append, bind_eq_ok_iff] at hd
    obtain ⟨d', hd', hstep⟩ := hd
    rw [List.foldlM_cons, bind_eq_ok_iff] at hstep
    obtain ⟨d'', hstep, hpure⟩ := hstep
    obtain ⟨-, rfl⟩ := step_empty.mp hstep
    obtain rfl := pure_eq_ok_iff.mp hpure
    exact hd'

/-- Where a name that is joined to the path of a folder leads, if it leads anywhere. -/
theorem resolve_joinPath_iff (hpath : t.resolve path = .ok d) (hname : IsName name) :
    t.resolve (joinPath path name) = .ok q ↔
      ensureLegal (joinPath path name) = .ok () ∧
        (t.node? d = some .folder ∧ name.utf8ByteSize ≤ maxNameBytes) ∧ q = d ++ [name] := by
  obtain ⟨names, hjoined, hnames⟩ := foldlM_of_joinPath hpath hname.no_slash
  have hne := joinPath_ne_empty (resolve_eq_ok_iff.mp hpath).2.1 name
  have hstep : List.foldlM t.step d [name] = .ok q ↔ t.step d name = .ok q := by
    rw [List.foldlM_cons, bind_eq_ok_iff]
    simp [pure_eq_ok_iff]
  rw [resolve_eq_ok_iff, hjoined, List.foldlM_append, hnames]
  change _ ∧ _ ∧ List.foldlM t.step d [name] = .ok q ↔ _
  rw [hstep, step_eq_ok_iff hname]
  exact and_congr_right fun _ ↦ and_iff_right hne

/-- The folder in which a name that is joined to a path stands: the working folder, if the path is
empty. -/
def base (t : FileTree) (path : String) : Except FileError Place :=
  if path = "" then .ok t.working else t.resolve path

theorem ensureLegal_of_joinPath (h : ensureLegal (joinPath path name) = .ok ()) :
    ensureLegal path = .ok () := by
  rw [ensureLegal_eq_ok_iff] at h ⊢
  rw [joinPath] at h
  split at h <;> simp only [String.toList_append, String.utf8ByteSize_append, List.mem_append] at h
  · exact ⟨fun hmem ↦ h.1 (.inl hmem), by omega⟩
  · exact ⟨fun hmem ↦ h.1 (.inl (.inl hmem)), by omega⟩

/-- If a joined name leads somewhere, then the path leads to a folder. -/
theorem resolve_of_joinPath (hpath : path ≠ "") (hname : IsName name)
    (h : t.resolve (joinPath path name) = .ok q) : ∃ d, t.resolve path = .ok d := by
  obtain ⟨hlegal, -, hq⟩ := resolve_eq_ok_iff.mp h
  obtain ⟨names, hjoined, hnames⟩ := pathComponents_joinPath hpath hname.no_slash
  rw [hjoined, List.foldlM_append, bind_eq_ok_iff, start, isAbsolute_joinPath hpath, ← start] at hq
  obtain ⟨d, hd, hstep⟩ := hq
  obtain ⟨d', hstep, -⟩ := bind_eq_ok_iff.mp hstep
  refine ⟨d, resolve_eq_ok_iff.mpr ⟨ensureLegal_of_joinPath hlegal, hpath, ?_⟩⟩
  rcases hnames with hnames | hnames
  · rwa [hnames]
  · -- the path ends in a slash
    rw [hnames, List.foldlM_append, hd]
    exact bind_eq_ok_iff.mpr
      ⟨d, rfl, bind_eq_ok_iff.mpr ⟨d, step_empty.mpr ⟨node?_of_step hstep, rfl⟩, rfl⟩⟩

/-- **Where joined names lead.** All of them stand in one folder. -/
theorem resolve_joinPath_eq_ok_iff (hname : IsName name) :
    t.resolve (joinPath path name) = .ok q ↔
      ensureLegal (joinPath path name) = .ok () ∧
        ∃ d, t.base path = .ok d ∧
          (t.node? d = some .folder ∧ name.utf8ByteSize ≤ maxNameBytes) ∧ q = d ++ [name] := by
  by_cases hpath : path = ""
  · subst hpath
    have hjoined : joinPath "" name = name := by simp [joinPath]
    have hcomponents : pathComponents name = [name] := by
      rw [pathComponents, pieces_of_not_mem hname.no_slash, List.map_singleton,
        String.ofList_toList]
    have hstart : t.start name = t.working := by
      have hrelative : isAbsolute name = false := by
        rw [isAbsolute, beq_eq_false_iff_ne]
        exact fun hhead ↦ hname.no_slash (List.mem_of_mem_head? hhead)
      rw [start, hrelative]
      rfl
    have hstep : List.foldlM t.step t.working [name] = .ok q ↔ t.step t.working name = .ok q := by
      rw [List.foldlM_cons, bind_eq_ok_iff]
      simp [pure_eq_ok_iff]
    rw [hjoined, resolve_eq_ok_iff, hcomponents, hstart, hstep, step_eq_ok_iff hname,
      and_iff_right hname.ne_empty, base, if_pos rfl]
    simp
  · rw [base, if_neg hpath]
    constructor
    · intro h
      obtain ⟨d, hd⟩ := resolve_of_joinPath hpath hname h
      obtain ⟨hlegal, hq⟩ := (resolve_joinPath_iff hd hname).mp h
      exact ⟨hlegal, d, hd, hq⟩
    · rintro ⟨hlegal, d, hd, hq⟩
      exact (resolve_joinPath_iff hd hname).mpr ⟨hlegal, hq⟩

/-- The folders of one tree are folders in another one. -/
structure HasFolders (t t' : FileTree) : Prop where
  folders : ∀ p, t.node? p = some .folder → t'.node? p = some .folder
  working : t'.working = t.working

theorem HasFolders.put (h : t.node? p ≠ some .folder) (n : Node) : HasFolders t (t.put p n) where
  folders q hq := by
    rwa [node?_put_of_ne]
    rintro rfl
    exact h hq
  working := rfl

theorem HasFolders.unlink (p : Place) : HasFolders t (t.unlink p) where
  folders q hq := by
    by_cases hp : q = p
    · rw [hp] at hq ⊢
      rwa [FileTree.unlink, hq]
    · rwa [node?_unlink_of_ne hp]
  working := working_unlink

theorem HasFolders.step (h : HasFolders t t') (hstep : t.step p name = .ok q) :
    t'.step p name = .ok q := by
  have hfolder := node?_of_step hstep
  rw [FileTree.step, hfolder] at hstep
  rwa [FileTree.step, h.folders p hfolder]

theorem HasFolders.foldlM (h : HasFolders t t') {names : List String}
    (hnames : names.foldlM t.step p = .ok q) : names.foldlM t'.step p = .ok q := by
  induction names generalizing p with
  | nil => exact hnames
  | cons name names ih =>
    rw [List.foldlM_cons, bind_eq_ok_iff] at hnames ⊢
    obtain ⟨p', hstep, hnames⟩ := hnames
    exact ⟨p', h.step hstep, ih hnames⟩

/-- **A path goes on leading where it leads** as long as the folders stay. -/
theorem HasFolders.resolve (h : HasFolders t t') (hpath : t.resolve path = .ok p) :
    t'.resolve path = .ok p := by
  obtain ⟨hlegal, hne, hp⟩ := resolve_eq_ok_iff.mp hpath
  refine resolve_eq_ok_iff.mpr ⟨hlegal, hne, ?_⟩
  rw [start, h.working]
  exact h.foldlM hp

/-! ## Making folders -/

/-- Nothing is made where there are folders already. -/
theorem makeFoldersFrom_append {names : List String} (h : names.foldlM t.step p = .ok d)
    (hd : t.node? d = some .folder) (rest : List String) :
    t.makeFoldersFrom p (names ++ rest) = t.makeFoldersFrom d rest := by
  induction names generalizing p with
  | nil =>
    obtain rfl := pure_eq_ok_iff.mp h
    rfl
  | cons name names ih =>
    rw [List.foldlM_cons, bind_eq_ok_iff] at h
    obtain ⟨p', hstep, h⟩ := h
    have hp' := isFolder_of_foldlM h hd
    rw [List.cons_append, makeFoldersFrom, hstep]
    dsimp only
    rw [if_pos (by rw [hp']; rfl), ih h]

/-- A folder that is joined to the path of another one is made, unless it is there. -/
theorem makeFolders_joinPath (hpath : t.resolve path = .ok d) (hd : t.node? d = some .folder)
    (hname : IsName name) (hsize : name.utf8ByteSize ≤ maxNameBytes)
    (hlegal : ensureLegal (joinPath path name) = .ok ()) :
    (t.node? (d ++ [name]) = none →
        t.makeFolders (joinPath path name) = (.ok (), t.put (d ++ [name]) .folder)) ∧
      (t.node? (d ++ [name]) = some .folder →
        t.makeFolders (joinPath path name) = (.ok (), t)) := by
  obtain ⟨names, hjoined, hnames⟩ := foldlM_of_joinPath hpath hname.no_slash
  have hstep : t.step d name = .ok (d ++ [name]) := (step_eq_ok_iff hname).mpr ⟨⟨hd, hsize⟩, rfl⟩
  rw [makeFolders, hlegal, hjoined]
  dsimp only
  rw [makeFoldersFrom_append hnames hd, makeFoldersFrom, hstep]
  dsimp only
  constructor
  · intro h
    rw [h, if_neg (by simp), makeFoldersFrom, node?_put_self (by simp)]
    rfl
  · intro h
    rw [if_pos (by rw [h]; rfl), makeFoldersFrom, h]
    rfl

theorem HasNoTwins.makeFolders (h : t.HasNoTwins) (path : String) :
    (t.makeFolders path).2.HasNoTwins := by
  have hfrom : ∀ (names : List String) (t : FileTree) (p : Place), t.HasNoTwins →
      (t.makeFoldersFrom p names).2.HasNoTwins := by
    intro names
    induction names with
    | nil => exact fun t p h ↦ h
    | cons name names ih =>
      intro t p h
      rw [makeFoldersFrom]
      split
      · exact h
      · refine ih _ _ ?_
        split
        · exact h
        · exact h.put _ _
  rw [FileTree.makeFolders]
  split
  · exact h
  · exact hfrom _ t _ h

end FileTree

end Tabletop
