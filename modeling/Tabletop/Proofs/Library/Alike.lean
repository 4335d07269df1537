import Tabletop.Proofs.Library.Folder
import Tabletop.Proofs.Library.Ledger

/-!
# Both kinds of library

A folder and a ledger answer alike, since both stand for a shelf.
-/

namespace Tabletop

namespace Library

variable {root path : String} {d p : Place} {t t' : FileTree} {requests : List Request}

/-- **Both kinds of library answer like a shelf**, whatever they are asked: one that is made in an
empty folder, and one that is made in a new ledger. Names only have to be short enough for files. -/
theorem session_eq_answers (hroot : FileTree.ensureLegal (FolderLibrary.indexPath root) = .ok ())
    (hfolder : t.HasEmptyFolder root d) (hledger : t'.HasRoomForLedger path p)
    (hfits : ∀ request ∈ requests, request.Fits (FolderLibrary.Fits root)) (title : String) :
    session (.folder root) t requests = .ok (Shelf.answers ∅ requests) ∧
      session (.ledger title (.file path {})) t' requests = .ok (Shelf.answers ∅ requests) := by
  constructor
  · exact (FolderLibrary.backs hroot d).session hfits (.inl ⟨rfl, hfolder⟩)
  · have hany : ∀ request ∈ requests, request.Fits fun _ ↦ True :=
      fun request _ ↦ request.fits_of_forall fun _ ↦ trivial
    exact (LedgerLibrary.backs title path).session hany (.inl ⟨rfl, p, hledger⟩)

/-- A home with an empty folder. -/
def home : FileTree := (FileTree.ofWorking ["home"]).put ["home", "games.d"] .folder

/-- A visit to a library: a rule set is saved, two names cannot be used, and one is not stored. -/
def visit : List Request :=
  [.save (.empty "chess.v2"), .list, .load "chess.v2", .save (.empty ".."), .load "a/b", .reopen,
    .delete "checkers", .delete "chess.v2", .list]

theorem session_eq_answers_home :
    (home.HasEmptyFolder "games.d" ["home", "games.d"] ∧
        home.HasRoomForLedger "games.db" ["home", "games.db"] ∧
        ∀ request ∈ visit, request.Fits (FolderLibrary.Fits "games.d")) ∧
      session (.folder "games.d") home visit = .ok (Shelf.answers ∅ visit) ∧
      session (.ledger "games.db" (.file "games.db" {})) home visit =
        .ok (Shelf.answers ∅ visit) := by
  have hfolder : home.HasEmptyFolder "games.d" ["home", "games.d"] := by
    refine ⟨by decide +kernel, by decide +kernel, fun names hnames ↦ ?_⟩
    obtain ⟨name, names, rfl⟩ := List.exists_cons_of_ne_nil hnames
    rw [FileTree.node?_of_ne_nil (by simp)]
    exact List.lookup_eq_none_iff.mpr (List.forall_mem_cons.mpr
      ⟨by simp, List.forall_mem_singleton.mpr (by simp)⟩)
  have hledger : home.HasRoomForLedger "games.db" ["home", "games.db"] := by
    refine ⟨?_, ?_, ?_, ?_, ?_, ?_, ?_, fun c hc ↦ absurd hc List.not_mem_nil⟩ <;> decide +kernel
  have hfits : ∀ request ∈ visit, request.Fits (FolderLibrary.Fits "games.d") := by
    simp only [visit, List.forall_mem_cons]
    exact ⟨fun _ ↦ ⟨rfl, by decide⟩, trivial, trivial, fun _ ↦ ⟨rfl, by decide⟩, trivial, trivial,
      trivial, trivial, trivial, List.forall_mem_nil _⟩
  exact ⟨⟨hfolder, hledger, hfits⟩, session_eq_answers rfl hfolder hledger hfits "games.db"⟩

end Library

end Tabletop
