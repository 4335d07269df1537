import Tabletop.Files.LedgerPlace
import Tabletop.Proofs.Files.Tree

/-!
# Ledgers at their places

`FileTree.HasLedger` says that a path leads to a ledger file with nothing in its way. That stays so
when the file is written, and becomes so when a file is made where there was nothing. The path is
tidied without regard to what stands there, but not into a file, so it has to go on leading past
the file that is made.
-/

namespace Tabletop

namespace Place

variable {p : Place} {ending : String}

theorem dropLast_beside (p : Place) (ending : String) : (beside p ending).dropLast = p.dropLast :=
  List.dropLast_concat

theorem beside_ne_nil : beside p ending ≠ [] := by simp [beside]

/-- A name that goes on is another name. -/
theorem beside_ne (hending : ending ≠ "") : beside p ending ≠ p := by
  intro h
  have hp : p ≠ [] := h ▸ beside_ne_nil
  have hlast := congrArg List.getLast? h
  rw [beside, List.getLast?_concat, List.getLast?_eq_some_getLast hp, Option.getD_some,
    Option.some.injEq] at hlast
  exact hending (String.append_eq_left_iff.mp hlast)

theorem journal_ne : journal p ≠ p := beside_ne (by simp)

theorem log_ne : log p ≠ p := beside_ne (by simp)

theorem journal_ne_log : journal p ≠ log p := by simp [journal, log, beside]

theorem dropLast_ne (hp : p ≠ []) : p.dropLast ≠ p := fun h ↦ by
  have hlength := congrArg List.length h
  rw [List.length_dropLast] at hlength
  have hpos := List.length_pos_iff.mpr hp
  omega

end Place

namespace FileTree

variable {t t' : FileTree} {p q : Place} {n n' : Node} {path : String} {k : FileKey}

theorem tidyStep?_mono (hroom : ∀ q, t.hasRoom q = true → t'.hasRoom q = true) {component : String}
    (h : t.tidyStep? p component = some q) : t'.tidyStep? p component = some q := by
  by_cases hnone : component = "" ∨ component = "."
  · rwa [tidyStep?, if_pos hnone] at h ⊢
  by_cases hback : component = ".."
  · rwa [tidyStep?, if_neg hnone, if_pos hback] at h ⊢
  rw [tidyStep?, if_neg hnone, if_neg hback] at h ⊢
  dsimp only at h ⊢
  split at h
  · rename_i hfits
    obtain ⟨hbytes, hfits⟩ := Bool.and_eq_true_iff.mp hfits
    rwa [if_pos (Bool.and_eq_true_iff.mpr ⟨hbytes, hroom _ hfits⟩)]
  · exact absurd h (by simp)

/-- The path of a ledger goes on leading where it leads as long as there is as much room. -/
theorem ledgerPlace?_mono (hroom : ∀ q, t.hasRoom q = true → t'.hasRoom q = true)
    (hworking : t'.working = t.working) (h : t.ledgerPlace? path = some p) :
    t'.ledgerPlace? path = some p := by
  have hfold : ∀ {names : List String} {q r : Place}, names.foldlM t.tidyStep? q = some r →
      names.foldlM t'.tidyStep? q = some r := by
    intro names
    induction names with
    | nil => exact id
    | cons name names ih =>
      intro q r h
      rw [List.foldlM_cons, Option.bind_eq_bind, Option.bind_eq_some_iff] at h ⊢
      obtain ⟨q', hstep, h⟩ := h
      exact ⟨q', tidyStep?_mono hroom hstep, ih h⟩
  rw [ledgerPlace?, start] at h ⊢
  rw [hworking]
  split at h
  · exact absurd h (by simp)
  · rename_i hlegal
    rw [if_neg hlegal]
    split at h
    · rename_i hplace
      rwa [hfold hplace]
    · exact absurd h (by simp)

theorem ne_nil_of_ledgerPlace? (h : t.ledgerPlace? path = some p) : p ≠ [] := by
  rw [ledgerPlace?] at h
  split at h
  · exact absurd h (by simp)
  · split at h
    · split at h
      · exact absurd h (by simp)
      · rename_i hp
        obtain rfl := Option.some.inj h
        rintro rfl
        exact hp rfl
    · exact absurd h (by simp)

/-- A file in the place of another one leaves as much room. -/
theorem hasRoom_put (hp : t.node? p = some n) (hn : n ≠ .folder) (hn' : n' ≠ .folder) (q : Place) :
    (t.put p n').hasRoom q = t.hasRoom q := by
  by_cases hq : q.dropLast = p
  · have hne : p ≠ [] := by
      rintro rfl
      exact hn (Option.some.inj hp).symm
    rw [hasRoom, hasRoom, hq, node?_put_self hne, hp]
    cases n <;> cases n' <;> first | rfl | contradiction
  · rw [hasRoom, hasRoom, node?_put_of_ne hq]

/-- A new file leaves no more room. -/
theorem hasRoom_of_put (hp : t.node? p = none) {q : Place}
    (h : (t.put p n).hasRoom q = true) : t.hasRoom q = true := by
  by_cases hq : q.dropLast = p
  · rw [hasRoom, hq, hp]
  · rwa [hasRoom, node?_put_of_ne hq, ← hasRoom] at h

/-! ## Ledger files -/

/-- A ledger file at the place that a path leads to, with nothing in its way: there is room for a
journal, but none is there, no log is, and nobody who has the file open uses one. -/
structure HasLedger (t : FileTree) (path : String) (k : FileKey) (n : Node) : Prop where
  leads : t.ledgerPlace? path = some k.place
  key : t.keyAt k.place = k
  isThere : t.isRemoved k = false
  node : t.node? k.place = some n
  isFile : n ≠ .folder
  journal : t.node? (Place.journal k.place) = none
  room : t.hasRoom (Place.journal k.place) = true
  log : t.node? (Place.log k.place) = none
  unlogged : ∀ c, some c ∈ t.opened → c.home = some k → c.log = none

/-- Nothing is where a path leads to, and a ledger can be made there. -/
structure HasRoomForLedger (t : FileTree) (path : String) (p : Place) : Prop where
  leads : (t.put p (.text "")).ledgerPlace? path = some p
  isNew : t.node? p = none
  folder : t.isFolder p.dropLast = true
  isThere : t.isRemoved (t.keyAt p) = false
  journal : t.node? (Place.journal p) = none
  room : t.hasRoom (Place.journal p) = true
  log : t.node? (Place.log p) = none
  unlogged : ∀ c, some c ∈ t.opened → c.home = some (t.keyAt p) → c.log = none

namespace HasLedger

theorem file (h : t.HasLedger path k n) : t.file? k = some n := by
  have hlookup : t.removed.lookup k = none := by simpa [isRemoved] using h.isThere
  rw [file?, hlookup, h.node]
  rfl

/-- Opening and closing ledgers leaves the file as it is. -/
theorem with_opened (h : t.HasLedger path k n) {opened : List (Option Connection)}
    (hopened : ∀ c, some c ∈ opened → c.home = some k → c.log = none) :
    { t with opened }.HasLedger path k n :=
  ⟨h.leads, h.key, h.isThere, h.node, h.isFile, h.journal, h.room, h.log, hopened⟩

/-- The file is written. -/
theorem putFile (h : t.HasLedger path k n) (hn' : n' ≠ .folder) :
    (t.putFile k n').HasLedger path k n' := by
  have hne := ne_nil_of_ledgerPlace? h.leads
  have hroom := hasRoom_put h.node h.isFile hn'
  rw [FileTree.putFile, if_neg (by simp [h.isThere])]
  refine ⟨?_, h.key, h.isThere, node?_put_self hne, hn', ?_, ?_, ?_, h.unlogged⟩
  · exact ledgerPlace?_mono (fun q hq ↦ (hroom q).trans hq) rfl h.leads
  · rw [node?_put_of_ne Place.journal_ne]
    exact h.journal
  · rw [hroom]
    exact h.room
  · rw [node?_put_of_ne Place.log_ne]
    exact h.log

end HasLedger

/-- A file is made. -/
theorem HasRoomForLedger.put (h : t.HasRoomForLedger path p) :
    (t.put p (.text "")).HasLedger path (t.keyAt p) (.text "") := by
  have hne := ne_nil_of_ledgerPlace? h.leads
  refine ⟨h.leads, rfl, h.isThere, node?_put_self hne, by simp, ?_, ?_, ?_, h.unlogged⟩
  · exact (node?_put_of_ne Place.journal_ne).trans h.journal
  · have hdropLast : (Place.journal p).dropLast ≠ p := by
      rw [Place.journal, Place.dropLast_beside]
      exact Place.dropLast_ne hne
    have hroom := h.room
    rw [hasRoom] at hroom
    change (t.put p (.text "")).hasRoom (Place.journal p) = true
    rwa [hasRoom, node?_put_of_ne hdropLast]
  · exact (node?_put_of_ne Place.log_ne).trans h.log

end FileTree

end Tabletop
