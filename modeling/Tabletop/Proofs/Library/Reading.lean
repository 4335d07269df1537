import Tabletop.Proofs.Library.OpenLedger

/-!
# Reading an open ledger

A use of a ledger may change files even if the ledger is only read: remains of another ledger are
cleared away, a log is put to use, and pages become known. Here it is shown that this happens once.
The first use that succeeds leaves the ledger `Ready`, and from then on starting a use changes
nothing (`ready_of_start`, `perform_start_of_ready`).

What a ready ledger says is a matter of its pages, each of which is the one that is known or else
the one that is stored (`shownPage`). A page that is read becomes known as it was stored, so nothing
is said differently after that: operations that only read (`Reads`) have results that depend on the
pages alone, and leave these as they are.
-/

namespace Tabletop

/-! ## Steps -/

namespace FileTree

variable {α β : Type} {t t' : FileTree} {x : Filing α} {f : α → Filing β}

theorem perform_bind_eq_ok_iff {b : β} :
    t.perform (x >>= f) = (.ok b, t') ↔
      ∃ a t₁, t.perform x = (.ok a, t₁) ∧ t₁.perform (f a) = (.ok b, t') := by
  rw [perform_bind]
  rcases t.perform x with ⟨e | a, t₁⟩ <;> simp

theorem perform_bind_eq_error_iff {e : LibraryError} :
    t.perform (x >>= f) = (.error e, t') ↔
      t.perform x = (.error e, t') ∨
        ∃ a t₁, t.perform x = (.ok a, t₁) ∧ t₁.perform (f a) = (.error e, t') := by
  rw [perform_bind]
  rcases t.perform x with ⟨e' | a, t₁⟩ <;> simp

theorem perform_lift_bind_eq_ok_iff {y : Except LibraryError α} {b : β} :
    t.perform (liftM y >>= f) = (.ok b, t') ↔ ∃ a, y = .ok a ∧ t.perform (f a) = (.ok b, t') := by
  cases y with
  | error e => exact iff_of_false (fun h ↦ nomatch (Prod.mk.inj h).1) fun ⟨_, h, _⟩ ↦ nomatch h
  | ok a =>
    rw [perform_lift_bind_of_ok rfl]
    exact ⟨fun h ↦ ⟨a, rfl, h⟩, fun ⟨_, ha, h⟩ ↦ Except.ok.inj ha ▸ h⟩

end FileTree

namespace OpenLedger

open FileTree

variable {α β : Type} {o : OpenLedger} {t t' : FileTree} {c c' : Connection} {k : FileKey}
  {u : LogUse}

theorem perform_ensure_bind_eq_ok_iff {fault : LedgerFault} {condition : Bool}
    {f : Unit → Filing β} {b : β} :
    t.perform (ensure fault condition >>= f) = (.ok b, t') ↔
      condition = true ∧ t.perform (f ()) = (.ok b, t') := by
  rw [ensure, perform_lift_bind_eq_ok_iff]
  simp only [require_eq_ok_iff]
  exact ⟨fun h ↦ h.elim fun _ h ↦ h, fun h ↦ ⟨(), h⟩⟩

/-! ## What is remembered -/

/-- What is remembered of a ledger that is open. -/
def Recalls (o : OpenLedger) (c : Connection) (t : FileTree) : Prop :=
  t.opened[o.number]? = some (some c)

/-- The files with something else remembered. -/
def recalling (o : OpenLedger) (t : FileTree) (c : Connection) : FileTree :=
  { t with opened := t.opened.set o.number (some c) }

theorem Recalls.recalling (h : o.Recalls c t) (c' : Connection) :
    o.Recalls c' (o.recalling t c') := by
  obtain ⟨hlt, -⟩ := List.getElem?_eq_some_iff.mp h
  exact List.getElem?_set_self hlt

theorem recalling_recalling : o.recalling (o.recalling t c) c' = o.recalling t c' := by
  rw [OpenLedger.recalling, OpenLedger.recalling, OpenLedger.recalling, List.set_set]

theorem Recalls.recalling_self (h : o.Recalls c t) : o.recalling t c = t := by
  obtain ⟨hlt, hget⟩ := List.getElem?_eq_some_iff.mp h
  rw [OpenLedger.recalling, ← hget, List.set_getElem_self]

theorem Recalls.perform_connection (h : o.Recalls c t) :
    t.perform o.connection = (.ok c, t) := by
  have hneed : need (LibraryError.ledger .unreadable) (t.opened[o.number]?).join = .ok c := by
    rw [h]
    rfl
  rw [connection, perform_get_bind, perform_lift, hneed]

theorem perform_connection_eq_ok (h : t.perform o.connection = (.ok c, t')) :
    o.Recalls c t ∧ t' = t := by
  rw [connection, perform_get_bind, perform_lift] at h
  obtain ⟨hneed, rfl⟩ := Prod.mk.inj h
  exact ⟨Option.join_eq_some_iff.mp (need_eq_ok_iff.mp hneed), rfl⟩

theorem Recalls.perform_remember (h : o.Recalls c t) (f : Connection → Connection) :
    t.perform (o.remember f) = (.ok (), o.recalling t (f c)) := by
  refine Prod.ext rfl ?_
  change ({ t with opened := t.opened.modify o.number fun c? ↦ c?.map f } : FileTree) = _
  rw [List.modify_eq_set, h]
  rfl

/-! ## Ready ledgers -/

/-- Whether the log in use can be made sense of. -/
def IsShared (t : FileTree) (u : LogUse) : Prop :=
  (t.hasRegister u || !(t.file? u.log).any Node.isForeignLog) = true

/-- Whether a log in use has frames. -/
def isLogged (t : FileTree) (c : Connection) : Bool := c.log.any fun u ↦ !(t.logged u).isEmpty

/-- What there is of a journal can stay. -/
def IsSettled (t : FileTree) (k : FileKey) : Prop :=
  t.isTaken k.place.journal = true →
    (isBlank t k = true ∧ t.isFolder k.place.journal = true) ∨
      (isBlank t k = false ∧ ((t.node? k.place).isSome && !t.isFolder k.place.journal) = true ∧
        isSpent t k.place.journal = true)

/-- The head of a ledger is known, and the ledger is all there. -/
structure HasHead (t : FileTree) (k : FileKey) (c : Connection) : Prop where
  head : c.known.head.isSome = true
  whole : (isLogged t c || (t.file? k).any Node.isWhole) = true

/-- Nothing is left to be done before a ledger is read, by the way it is used: in memory, by its
file alone, or with a log. -/
inductive Ready (t : FileTree) (c : Connection) : Prop
  | memory : c.home = none → c.known.head.isSome = true → Ready t c
  | file (k : FileKey) : c.home = some k → c.log = none →
      (c.sideFiles.includeJournal = true → IsSettled t k) →
      (c.sideFiles ≠ .ignored → t.isTaken k.place.log = false) →
      c.known.head = (t.pagesOf k).head → HasHead t k c → Ready t c
  | logged (k : FileKey) (u : LogUse) : c.home = some k → c.log = some u →
      IsShared t u → u.seen = some (t.logged u).length → HasHead t k c → Ready t c

/-! ### Starting a use of a ready ledger -/

theorem perform_settleJournal_of_settled (h : IsSettled t k) (c : Connection) :
    t.perform (o.settleJournal c k) = (.ok (), t) := by
  rw [settleJournal, perform_get_bind]
  dsimp only
  split
  · rename_i htaken
    obtain ⟨hblank, hfolder⟩ | ⟨hblank, hthere, hspent⟩ := h htaken
    · -- a folder is not removed
      have hnode : t.node? k.place.journal = some .folder := eq_of_beq hfolder
      rw [if_pos hblank, unlink, hnode]
      rfl
    · rw [if_neg (by simp [hblank]), hspent]
      exact perform_bind_of_ok (perform_ensure t _ hthere) _
  · rfl

theorem perform_refreshFromLog_of_seen (hshared : IsShared t u)
    (hseen : u.seen = some (t.logged u).length) :
    t.perform (o.refreshFromLog u) = (.ok (), t) := by
  rw [refreshFromLog, perform_get_bind, perform_bind_of_ok (perform_ensure t _ hshared), hseen]
  simp only [bne_self_eq_false]
  rfl

theorem perform_readHead_of_hasHead (hc : o.Recalls c t) (h : HasHead t k c) :
    t.perform (o.readHead k) = (.ok true, t) := by
  obtain ⟨head, hhead⟩ := Option.isSome_iff_exists.mp h.head
  rw [readHead, perform_get_bind, perform_bind_of_ok hc.perform_connection, hhead]
  exact perform_bind_of_ok (perform_ensure t _ h.whole) _

/-- What is known is kept if it goes with the file. -/
theorem Recalls.perform_refresh (hc : o.Recalls c t) (k : FileKey) :
    t.perform (o.refresh k) = (.ok (), o.recalling t
      { c with known := if c.known.head = (t.pagesOf k).head then c.known else {} }) :=
  hc.perform_remember _

/-- The steps of starting a use while no log is in use, one after the other. -/
def startFile (o : OpenLedger) (c : Connection) (k : FileKey) : Filing Bool := do
  let journal : Filing Unit := if c.sideFiles.includeJournal then o.settleJournal c k else pure ()
  let log : Filing Unit := if c.sideFiles = .ignored then pure () else o.settleLog c k
  journal
  o.refresh k
  log
  let c ← o.connection
  c.log.forM o.refreshFromLog
  o.readHead k

theorem perform_start_of_unlogged (hc : o.Recalls c t) (hhome : c.home = some k)
    (hlog : c.log = none) : t.perform o.start = t.perform (o.startFile c k) := by
  rw [start, perform_bind_of_ok hc.perform_connection, hhome, hlog, startFile]
  dsimp only
  cases c.sideFiles <;> rfl

/-- **A ready ledger can be used as it is.** -/
theorem perform_start_of_ready (hc : o.Recalls c t) (h : Ready t c) :
    t.perform o.start = (.ok true, t) := by
  cases h with
  | memory hhome hhead =>
    rw [start, perform_bind_of_ok hc.perform_connection, hhome, hhead]
    rfl
  | logged k u hhome hlog hshared hseen hread =>
    rw [start, perform_bind_of_ok hc.perform_connection, hhome, hlog]
    exact (perform_bind_of_ok (perform_refreshFromLog_of_seen hshared hseen) _).trans
      (perform_readHead_of_hasHead hc hread)
  | file k hhome hlog hjournal hunlogged hhead hread =>
    have hsettleJournal : t.perform (if c.sideFiles.includeJournal then o.settleJournal c k
        else pure ()) = (.ok (), t) := by
      split
      · exact perform_settleJournal_of_settled (hjournal ‹_›) c
      · rfl
    have hrefresh : t.perform (o.refresh k) = (.ok (), t) := by
      rw [hc.perform_refresh, if_pos hhead, hc.recalling_self]
    have hsettleLog : t.perform (if c.sideFiles = .ignored then pure () else o.settleLog c k) =
        (.ok (), t) := by
      split
      · rfl
      · rename_i hside
        rw [settleLog, perform_get_bind]
        simp only [hunlogged hside]
        rfl
    rw [perform_start_of_unlogged hc hhome hlog, startFile, perform_bind_of_ok hsettleJournal,
      perform_bind_of_ok hrefresh, perform_bind_of_ok hsettleLog,
      perform_bind_of_ok hc.perform_connection, hlog]
    exact perform_readHead_of_hasHead hc hread

/-! ### Starting the first use -/

theorem IsSettled.congr (h : IsSettled t k) (hfile : t'.file? k = t.file? k)
    (hplace : t'.node? k.place = t.node? k.place)
    (hjournal : t'.node? k.place.journal = t.node? k.place.journal) : IsSettled t' k := by
  simpa only [IsSettled, isTaken, isBlank, isFolder, isSpent, hfile, hplace, hjournal] using h

theorem settled_of_settleJournal (h : t.perform (o.settleJournal c k) = (.ok (), t')) :
    IsSettled t' k ∧ t'.opened = t.opened := by
  -- a journal that is removed is no more in the way
  have hunlink : t.isFolder k.place.journal = false → IsSettled (t.unlink k.place.journal) k :=
    fun hfolder htaken ↦ absurd htaken
      (Bool.eq_false_iff.mp (isTaken_unlink_self Place.beside_ne_nil hfolder))
  rw [settleJournal, perform_get_bind] at h
  dsimp only at h
  split at h
  · rename_i htaken
    split at h
    · rename_i hblank
      obtain rfl := (Prod.mk.inj h).2
      cases hfolder : t.isFolder k.place.journal with
      | false => exact ⟨hunlink hfolder, opened_unlink⟩
      | true =>
        have hnode : t.node? k.place.journal = some .folder := eq_of_beq hfolder
        rw [unlink, hnode]
        exact ⟨fun _ ↦ .inl ⟨hblank, hfolder⟩, rfl⟩
    · rename_i hblank
      obtain ⟨hthere, h⟩ := perform_ensure_bind_eq_ok_iff.mp h
      split at h
      · rename_i hspent
        obtain rfl := (Prod.mk.inj h).2
        exact ⟨fun _ ↦ .inr ⟨by simpa using hblank, hthere, hspent⟩, rfl⟩
      · obtain ⟨-, h⟩ := perform_ensure_bind_eq_ok_iff.mp h
        obtain ⟨-, h⟩ := perform_ensure_bind_eq_ok_iff.mp h
        obtain rfl := (Prod.mk.inj h).2
        obtain ⟨-, hfolder⟩ := Bool.and_eq_true_iff.mp hthere
        exact ⟨hunlink (by simpa using hfolder), opened_unlink⟩
  · rename_i htaken
    obtain rfl := (Prod.mk.inj h).2
    exact ⟨fun h ↦ absurd h htaken, rfl⟩

/-- After a log was dealt with, it is in use, or it is gone and nothing else has changed. -/
theorem cases_of_settleLog (hc : o.Recalls c t) {c₀ : Connection}
    (h : t.perform (o.settleLog c₀ k) = (.ok (), t')) :
    (∃ u, o.Recalls { c with log := some u } t') ∨
      t'.opened = t.opened ∧ t'.isTaken k.place.log = false ∧ t'.file? k = t.file? k ∧
        ∀ p, p ≠ k.place.log → t'.node? p = t.node? p := by
  rw [settleLog, perform_get_bind] at h
  dsimp only at h
  split at h
  · split at h
    · obtain ⟨hfolder, h⟩ := perform_ensure_bind_eq_ok_iff.mp h
      obtain rfl := (Prod.mk.inj h).2
      exact .inr ⟨opened_unlink,
        isTaken_unlink_self Place.beside_ne_nil (by simpa using hfolder),
        file?_unlink_of_ne (Ne.symm Place.log_ne), fun _ ↦ node?_unlink_of_ne⟩
    · obtain ⟨-, h⟩ := perform_ensure_bind_eq_ok_iff.mp h
      obtain ⟨-, h⟩ := perform_ensure_bind_eq_ok_iff.mp h
      left
      rw [useLog, perform_get_bind] at h
      dsimp only at h
      -- making a register changes nothing that is remembered
      have hrecalls : ∀ t₁ : FileTree, t₁.opened = t.opened → o.Recalls c t₁ := fun t₁ h₁ ↦ by
        rwa [Recalls, h₁]
      split at h
      · rw [perform_set_bind, (hrecalls (t.put _ _) rfl).perform_remember] at h
        obtain rfl := (Prod.mk.inj h).2
        exact ⟨_, (hrecalls (t.put _ _) rfl).recalling _⟩
      · rw [hc.perform_remember] at h
        obtain rfl := (Prod.mk.inj h).2
        exact ⟨_, hc.recalling _⟩
  · rename_i htaken
    obtain rfl := (Prod.mk.inj h).2
    exact .inr ⟨rfl, by simpa using htaken, rfl, fun _ _ ↦ rfl⟩

theorem cases_of_refreshFromLog (hc : o.Recalls c t) (hlog : c.log = some u)
    (h : t.perform (o.refreshFromLog u) = (.ok (), t')) :
    ∃ known u', t' = o.recalling t { c with known, log := some u' } ∧ IsShared t u' ∧
      u'.seen = some (t.logged u').length := by
  rw [refreshFromLog, perform_get_bind] at h
  obtain ⟨hshared, h⟩ := perform_ensure_bind_eq_ok_iff.mp h
  dsimp only at h
  split at h
  · rw [hc.perform_remember] at h
    obtain rfl := (Prod.mk.inj h).2
    exact ⟨{}, { u with seen := some (t.logged u).length }, rfl, hshared, rfl⟩
  · rename_i hseen
    obtain rfl := (Prod.mk.inj h).2
    refine ⟨c.known, u, ?_, hshared, by simpa using hseen⟩
    rw [← hlog, hc.recalling_self]

theorem cases_of_readHead (hc : o.Recalls c t) (h : t.perform (o.readHead k) = (.ok true, t')) :
    ∃ known, t' = o.recalling t { c with known } ∧ HasHead t k { c with known } ∧
      (known.head = c.known.head ∨ known.head = (t.pagesOf k).head) := by
  rw [readHead, perform_get_bind, perform_bind_of_ok hc.perform_connection] at h
  dsimp only at h
  split at h
  · rename_i head hhead
    obtain ⟨hwhole, h⟩ := perform_ensure_bind_eq_ok_iff.mp h
    obtain rfl := (Prod.mk.inj h).2
    exact ⟨c.known, hc.recalling_self.symm, ⟨by rw [hhead]; rfl, hwhole⟩, .inl rfl⟩
  · rename_i pages hhead hfile
    obtain ⟨head, hneed, h⟩ := perform_lift_bind_eq_ok_iff.mp h
    rw [know, perform_bind_of_ok (hc.perform_remember _)] at h
    obtain rfl := (Prod.mk.inj h).2
    have hpages : (t.pagesOf k).head = some head := by
      rw [pagesOf, hfile]
      exact need_eq_ok_iff.mp hneed
    refine ⟨{ c.known with head := some head }, rfl, ⟨rfl, ?_⟩, .inr hpages.symm⟩
    rw [hfile]
    exact Bool.or_true _
  · exact absurd (Prod.mk.inj h).1 (by simp)
  · obtain ⟨-, h⟩ := perform_ensure_bind_eq_ok_iff.mp h
    exact absurd (Prod.mk.inj h).1 (by simp)

/-- A use of a log that succeeds leaves the ledger ready. -/
theorem ready_of_logged (hc : o.Recalls c t) (hhome : c.home = some k) (hlog : c.log = some u)
    (h : t.perform (o.refreshFromLog u >>= fun _ ↦ o.readHead k) = (.ok true, t')) :
    ∃ c', o.Recalls c' t' ∧ Ready t' c' := by
  obtain ⟨_, t₁, hrefresh, h⟩ := perform_bind_eq_ok_iff.mp h
  obtain ⟨known, u', rfl, hshared, hseen⟩ := cases_of_refreshFromLog hc hlog hrefresh
  obtain ⟨known', rfl, hhead, -⟩ := cases_of_readHead (hc.recalling _) h
  rw [recalling_recalling]
  exact ⟨_, hc.recalling _, .logged k u' hhome rfl hshared hseen ⟨hhead.head, hhead.whole⟩⟩

/-- A use of a file that succeeds leaves the ledger ready. -/
theorem ready_of_startFile (hc : o.Recalls c t) (hhome : c.home = some k) (hlog : c.log = none)
    (h : t.perform (o.startFile c k) = (.ok true, t')) :
    ∃ c', o.Recalls c' t' ∧ Ready t' c' := by
  obtain ⟨_, t₁, hjournal, h⟩ := perform_bind_eq_ok_iff.mp h
  have hsettled : (c.sideFiles.includeJournal = true → IsSettled t₁ k) ∧ t₁.opened = t.opened := by
    split at hjournal
    · obtain ⟨hsettled, hopened⟩ := settled_of_settleJournal hjournal
      exact ⟨fun _ ↦ hsettled, hopened⟩
    · rename_i hnone
      obtain rfl := (Prod.mk.inj hjournal).2
      exact ⟨fun h ↦ absurd h hnone, rfl⟩
  obtain ⟨hsettled, hopened⟩ := hsettled
  have hc₁ : o.Recalls c t₁ := by rwa [Recalls, hopened]
  rw [perform_bind_of_ok (hc₁.perform_refresh k)] at h
  set known := if c.known.head = (t₁.pagesOf k).head then c.known else {} with hknown
  have hc₂ := hc₁.recalling { c with known }
  obtain ⟨_, t₃, hlogged, h⟩ := perform_bind_eq_ok_iff.mp h
  have hcases : (∃ u, o.Recalls { c with known, log := some u } t₃) ∨
      t₃.opened = (o.recalling t₁ { c with known }).opened ∧
        (c.sideFiles ≠ .ignored → t₃.isTaken k.place.log = false) ∧ t₃.file? k = t₁.file? k ∧
        ∀ p, p ≠ k.place.log → t₃.node? p = t₁.node? p := by
    split at hlogged
    · rename_i hignored
      obtain rfl := (Prod.mk.inj hlogged).2
      exact .inr ⟨rfl, fun h ↦ absurd hignored h, rfl, fun _ _ ↦ rfl⟩
    · exact (cases_of_settleLog hc₂ hlogged).imp id fun ⟨hopened, htaken, hfile⟩ ↦
        ⟨hopened, fun _ ↦ htaken, hfile⟩
  obtain ⟨u, hc₃⟩ | ⟨hopened, htaken, hfile, hnode⟩ := hcases
  · rw [perform_bind_of_ok hc₃.perform_connection] at h
    exact ready_of_logged hc₃ hhome rfl h
  · have hc₃ : o.Recalls { c with known } t₃ := by rwa [Recalls, hopened]
    rw [perform_bind_of_ok hc₃.perform_connection, hlog] at h
    obtain ⟨known', rfl, hhead, hread⟩ := cases_of_readHead hc₃ h
    have hpages : t₃.pagesOf k = t₁.pagesOf k := by rw [pagesOf, hfile, pagesOf]
    have hgoes : known'.head = (t₃.pagesOf k).head := by
      obtain hread | hread := hread
      · -- what is known went with the file, or it would have been forgotten
        have hsome := hhead.head
        rw [hpages]
        rw [hread, hknown] at hsome ⊢
        split
        · assumption
        · rename_i hforgotten
          rw [if_neg hforgotten] at hsome
          exact absurd hsome Bool.false_ne_true
      · exact hread
    have hsettled' : c.sideFiles.includeJournal = true → IsSettled t₃ k := fun hinclude ↦
      (hsettled hinclude).congr hfile (hnode _ (Ne.symm Place.log_ne))
        (hnode _ Place.journal_ne_log)
    exact ⟨_, hc₃.recalling _,
      .file k hhome hlog hsettled' htaken hgoes ⟨hhead.head, hhead.whole⟩⟩

/-- **A use that succeeds leaves the ledger ready.** -/
theorem ready_of_start (h : t.perform o.start = (.ok true, t')) :
    ∃ c, o.Recalls c t' ∧ Ready t' c := by
  obtain ⟨c, t₁, hconnection, -⟩ := perform_bind_eq_ok_iff.mp h
  obtain ⟨hc, rfl⟩ := perform_connection_eq_ok hconnection
  cases hhome : c.home with
  | none =>
    rw [start, perform_bind_of_ok hconnection, hhome] at h
    obtain ⟨hhead, rfl⟩ := Prod.mk.inj h
    exact ⟨c, hc, .memory hhome (Except.ok.inj hhead)⟩
  | some k =>
    cases hlog : c.log with
    | none => exact ready_of_startFile hc hhome hlog (perform_start_of_unlogged hc hhome hlog ▸ h)
    | some u =>
      rw [start, perform_bind_of_ok hconnection, hhome, hlog] at h
      exact ready_of_logged hc hhome hlog h

end OpenLedger

/-! ## Troubles -/

/-- Whether it is the files or the ledger that cannot be used, and not what was asked of them. -/
def LibraryError.isTrouble : LibraryError → Bool
  | file _ _ | ledger _ => true
  | document _ _ | rules _ | version _ _ | notFound _ | invalidName _ => false

namespace Filing

open FileTree

variable {α β : Type} {P : FileTree → Prop} {x : Filing α} {f : α → Filing β}
  {r : Except LibraryError α} {a : α} {e : LibraryError}

/-- A result that shows no trouble. -/
def IsCalm (r : Except LibraryError α) : Prop := ∀ e, r = .error e → e.isTrouble = false

/-- From every tree of a property an operation has the same result, and leaves a tree of that
property behind unless there is trouble. -/
def Reads (P : FileTree → Prop) (x : Filing α) (r : Except LibraryError α) : Prop :=
  Gives P x r fun t ↦ IsCalm r → P t

theorem isCalm_ok (a : α) : IsCalm (.ok a) := fun _ h ↦ nomatch h

theorem not_isCalm_ledger (fault : LedgerFault) :
    ¬IsCalm (.error (.ledger fault) : Except LibraryError α) :=
  fun h ↦ absurd (h _ rfl) (by simp [LibraryError.isTrouble])

theorem Reads.lift (r : Except LibraryError α) : Reads P (liftM r) r :=
  (Gives.lift r).mono (fun _ ht ↦ ht) fun _ ht _ ↦ ht

theorem Reads.bind {g : α → Except LibraryError β} (hx : Reads P x r)
    (hf : ∀ a, r = .ok a → Reads P (f a) (g a)) : Reads P (x >>= f) (r >>= g) := by
  cases r with
  | error e =>
    refine (Gives.bind_error hx).mono (fun _ ht ↦ ht) fun t ht hcalm ↦ ht fun e' he ↦ ?_
    exact hcalm e' (congrArg Except.error (Except.error.inj he))
  | ok a => exact Gives.bind hx fun t ht ↦ hf a rfl t (ht (isCalm_ok a))

end Filing

/-! ## What a ready ledger says -/

namespace OpenLedger

open Filing FileTree

variable {α : Type} {o : OpenLedger} {t t' : FileTree} {c : Connection} {part : Ledger.Part}
  {page : Ledger.Page} {shown : Ledger.Part → Except LedgerFault Ledger.Page}

/-- What a page says: the one that is known, or else the one that is stored. -/
def shownPage (t : FileTree) (c : Connection) (part : Ledger.Part) :
    Except LedgerFault Ledger.Page :=
  match c.known.get? part with
  | some page => .ok page
  | none => storedPage t c part

/-- A ready ledger, and what its pages say. -/
def Shows (o : OpenLedger) (shown : Ledger.Part → Except LedgerFault Ledger.Page) (t : FileTree) :
    Prop :=
  ∃ c, o.Recalls c t ∧ Ready t c ∧ shownPage t c = shown

theorem exists_shows_of_start (h : t.perform o.start = (.ok true, t')) :
    ∃ shown, o.Shows shown t' :=
  let ⟨c, hc, hready⟩ := ready_of_start h
  ⟨shownPage t' c, c, hc, hready, rfl⟩

theorem Shows.perform_start (h : o.Shows shown t) : t.perform o.start = (.ok true, t) :=
  let ⟨_, hc, hready, _⟩ := h
  perform_start_of_ready hc hready

theorem part_of_get? {ps : Ledger.Pages} (h : ps.get? part = some page) : page.part = part := by
  cases part <;> obtain ⟨_, -, rfl⟩ := Option.map_eq_some_iff.mp h <;> rfl

/-- Pages that become known leave a ledger ready, and say what they said before. -/
theorem Shows.learn (hc : o.Recalls c t) (hready : Ready t c) (hshown : shownPage t c = shown)
    (hpage : shown page.part = .ok page) :
    o.Shows shown (o.recalling t { c with known := c.known.put page }) := by
  have hhead : (c.known.put page).head = c.known.head := by cases page <;> rfl
  refine ⟨_, hc.recalling _, ?_, funext fun part ↦ ?_⟩
  · cases hready with
    | memory hhome hknown => exact .memory hhome (hhead ▸ hknown)
    | file k hhome hlog hjournal hunlogged hgoes hread =>
      exact .file k hhome hlog hjournal hunlogged (hhead.trans hgoes)
        ⟨hhead ▸ hread.head, hread.whole⟩
    | logged k u hhome hlog hshared hseen hread =>
      exact .logged k u hhome hlog hshared hseen ⟨hhead ▸ hread.head, hread.whole⟩
  · rw [shownPage, Ledger.Pages.get?_put]
    split
    · rename_i page' hget
      split at hget
      · rename_i hpart
        obtain rfl := Option.some.inj hget
        exact (hpart ▸ hpage).symm
      · rw [← hshown, shownPage, hget]
    · rename_i hget
      split at hget
      · exact absurd hget (by simp)
      · rw [← hshown, shownPage, hget]
        rfl

/-- What is read from a page. A page that stands where another one belongs counts as damaged. -/
def readFrom (get? : Ledger.Pages → Option α) (page : Except LedgerFault Ledger.Page) :
    Except LibraryError α := do
  let page ← page.mapError LibraryError.ledger
  need (LibraryError.ledger .damaged) (get? (({} : Ledger.Pages).put page))

section Page

variable {get? : Ledger.Pages → Option α}
  (hget : ∀ ps ps' : Ledger.Pages, ps.get? part = ps'.get? part → get? ps = get? ps')

theorem perform_page (hlearn : t.perform (o.learn part) = (.ok (), t')) (hc : o.Recalls c t') :
    t.perform (o.page part get?) = (need (.ledger .damaged) (get? c.known), t') := by
  rw [page, perform_bind_of_ok hlearn, perform_bind_of_ok hc.perform_connection]
  rfl

include hget

/-- Another page is not read without trouble. -/
theorem part_of_isCalm (hnone : get? {} = none) (h : IsCalm (readFrom get? (.ok page))) :
    page.part = part := by
  by_contra hne
  have hmissing : get? (({} : Ledger.Pages).put page) = none := by
    rw [← hnone]
    refine hget _ _ ?_
    rw [Ledger.Pages.get?_put, if_neg (Ne.symm hne)]
  have hresult : readFrom get? (.ok page) = .error (.ledger .damaged) := by
    change need _ (get? _) = _
    rw [hmissing]
    rfl
  exact not_isCalm_ledger .damaged (hresult ▸ h)

/-- **Reading a page changes nothing that is said.** -/
theorem reads_page (hnone : get? {} = none) :
    Reads (o.Shows shown) (o.page part get?) (readFrom get? (shown part)) := by
  rintro t ⟨c, hc, hready, rfl⟩
  rw [shownPage]
  cases hknown : c.known.get? part with
  | some page =>
    -- the page is known already
    have hlearn : t.perform (o.learn part) = (.ok (), t) := by
      rw [learn, perform_get_bind, perform_bind_of_ok hc.perform_connection, hknown]
      rfl
    have hsame : get? c.known = get? (({} : Ledger.Pages).put page) := by
      refine hget _ _ ?_
      rw [hknown, Ledger.Pages.get?_put, if_pos (part_of_get? hknown).symm]
    refine ⟨t, (perform_page hlearn hc).trans ?_, fun _ ↦ ⟨c, hc, hready, rfl⟩⟩
    rw [hsame]
    rfl
  | none =>
    cases hstored : storedPage t c part with
    | error fault =>
      have hlearn : t.perform (o.learn part) = (.error (.ledger fault), t) := by
        rw [learn, perform_get_bind, perform_bind_of_ok hc.perform_connection, hknown, hstored]
        rfl
      exact ⟨t, perform_bind_of_error hlearn _, fun h ↦ absurd h (not_isCalm_ledger fault)⟩
    | ok page =>
      have hlearn : t.perform (o.learn part) =
          (.ok (), o.recalling t { c with known := c.known.put page }) := by
        rw [learn, perform_get_bind, perform_bind_of_ok hc.perform_connection, hknown, hstored]
        exact hc.perform_remember _
      have hsame : get? (c.known.put page) = get? (({} : Ledger.Pages).put page) := by
        refine hget _ _ ?_
        rw [Ledger.Pages.get?_put, Ledger.Pages.get?_put, hknown]
        cases part <;> rfl
      refine ⟨o.recalling t { c with known := c.known.put page },
        (perform_page hlearn (hc.recalling _)).trans ?_, fun hcalm ↦ .learn hc hready rfl ?_⟩
      · rw [hsame]
        rfl
      · rw [part_of_isCalm hget hnone hcalm, shownPage, hknown, hstored]

end Page

theorem reads_rows :
    Reads (o.Shows shown) o.rows (readFrom (·.rows) (shown .rows)) := by
  refine reads_page (fun ps ps' h ↦ ?_) rfl
  exact Option.map_injective (fun _ _ h ↦ Ledger.Page.rows.inj h) h

theorem reads_index :
    Reads (o.Shows shown) o.index (readFrom (·.index) (shown .index)) := by
  refine reads_page (fun ps ps' h ↦ ?_) rfl
  exact Option.map_injective (fun _ _ h ↦ Ledger.Page.index.inj h) h

/-- The row of a number, as the pages say it. -/
def readRow (shown : Ledger.Part → Except LedgerFault Ledger.Page) (number : Nat) :
    Except LibraryError Ledger.Row := do
  let rows ← readFrom (·.rows) (shown .rows)
  need (LibraryError.ledger .damaged) (Ledger.rowOf number rows)

theorem reads_row (number : Nat) : Reads (o.Shows shown) (o.row number) (readRow shown number) :=
  reads_rows.bind fun _ _ ↦ .lift _

end OpenLedger

end Tabletop
