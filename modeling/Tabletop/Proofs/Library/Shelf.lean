import Tabletop.Library.Basic
import Tabletop.Proofs.Library.Filing
import Tabletop.Proofs.Text.Bytewise

/-!
# What a library is for

A library is asked to save and load rule sets, to delete and to list them, and may be closed and
opened again in between. Seen from outside it is a `Shelf`: a map from names to the texts that were
saved last under them and not deleted since. `Shelf.answers` says what a library has to answer to
one request after the other, and `Library.session` what a library at an address does answer, errors
taken as `Complaint`s, which do not tell where the library is kept.

## Standing for a shelf

A library at an address `Backs` the shelf if its trees stand for shelves, those where it is closed
as well as those where it is open, so that every operation does to the shelf what it should. Then
one request leads from a tree that stands for a shelf to a tree that stands for the shelf after it
(`Backs.serve`), and so all answers are those of the shelf, whatever is asked (`Backs.session`).
-/

namespace Tabletop

/-! ## Requests and answers -/

/-- What a library is asked to do. -/
inductive Request where
  /-- Save a rule set under its name. -/
  | save (w : RuleSet)
  /-- Load the rule set of a name. -/
  | load (name : String)
  /-- Delete the rule set of a name. -/
  | delete (name : String)
  /-- List the names. -/
  | list
  /-- Close the library and open it again. -/
  | reopen

/-- Whether a rule set is saved only under a name that fits, if it is saved. -/
def Request.Fits (fits : String → Prop) : Request → Prop
  | save w => isUsableName w.name = true → fits w.name
  | _ => True

theorem Request.fits_of_forall {fits : String → Prop} (h : ∀ name, fits name) (request : Request) :
    request.Fits fits := by
  cases request with
  | save w => exact fun _ ↦ h w.name
  | _ => exact trivial

/-- What a library answers. -/
inductive Reply where
  /-- It is done. -/
  | done
  /-- The rule set that was loaded. -/
  | ruleSet (w : RuleSet)
  /-- The names, in order. -/
  | names (names : List String)

/-- What an error says, whatever kind of library it comes from. -/
inductive Complaint where
  /-- The library itself cannot be used. -/
  | unusable
  /-- A stored text is no document. -/
  | document (fault : Fault)
  /-- A stored document does not describe a rule set. -/
  | rules (error : RuleError)
  /-- No rule set of the name is stored. -/
  | notFound (name : String)
  /-- Nothing can be stored under the name. -/
  | invalidName (name : String)
deriving DecidableEq

/-- What an error says. -/
def LibraryError.complaint : LibraryError → Complaint
  | file _ _ | ledger _ | version _ _ => .unusable
  | document _ fault => .document fault
  | rules error => .rules error
  | notFound name => .notFound name
  | invalidName name => .invalidName name

/-! ## Shelves -/

/-- The texts that were saved last under names and not deleted since. -/
abbrev Shelf := Finmap fun _ : String ↦ String

namespace Shelf

/-- The names, byte by byte. -/
def names (s : Shelf) : List String := s.keys.sort BytewiseLE

/-- Makes sure that a rule set can be stored under a name. -/
def ensureUsable (name : String) : Except Complaint Unit :=
  require (.invalidName name) (isUsableName name)

/-- The rule set that a text describes. -/
def ruleSetOfText (text : String) : Except Complaint RuleSet := do
  let d ← (Document.ofText text).mapError .document
  d.build.mapError .rules

/-- Does what is asked: the answer, and the shelf after it. -/
def serve (s : Shelf) : Request → Except Complaint (Reply × Shelf)
  | .save w => do
    ensureUsable w.name
    return (.done, s.insert w.name w.text)
  | .load name => do
    ensureUsable name
    let text ← need (.notFound name) (s.lookup name)
    let w ← ruleSetOfText text
    return (.ruleSet w, s)
  | .delete name => do
    ensureUsable name
    let _ ← need (.notFound name) (s.lookup name)
    return (.done, s.erase name)
  | .list => .ok (.names s.names, s)
  | .reopen => .ok (.done, s)

/-- The answers to one request after the other. A request that fails changes nothing. -/
def answers (s : Shelf) : List Request → List (Except Complaint Reply)
  | [] => []
  | request :: requests =>
    match s.serve request with
    | .ok (reply, s) => .ok reply :: s.answers requests
    | .error c => .error c :: s.answers requests

variable {s : Shelf} {name text : String}

theorem ensureUsable_of (h : isUsableName name = true) : ensureUsable name = .ok () :=
  require_eq_ok_iff.mpr h

theorem ensureUsable_of_not (h : isUsableName name = false) :
    ensureUsable name = .error (.invalidName name) := by
  rw [ensureUsable, h]
  rfl

theorem lookup_insert_eq_update :
    (fun n ↦ (s.insert name text).lookup n) =
      Function.update (fun n ↦ s.lookup n) name (some text) := by
  funext n
  by_cases h : n = name
  · rw [h, Finmap.lookup_insert, Function.update_self]
  · rw [Finmap.lookup_insert_of_ne s h, Function.update_of_ne h]

theorem lookup_erase_eq_update :
    (fun n ↦ (s.erase name).lookup n) = Function.update (fun n ↦ s.lookup n) name none := by
  funext n
  by_cases h : n = name
  · rw [h, Finmap.lookup_erase, Function.update_self]
  · rw [Finmap.lookup_erase_ne h, Function.update_of_ne h]

/-- Saving a text again changes nothing. -/
theorem insert_of_lookup (h : s.lookup name = some text) : s.insert name text = s := by
  refine Finmap.ext_lookup fun n ↦ ?_
  rw [congrFun lookup_insert_eq_update n, Function.update_apply]
  split
  · rename_i hn
    rw [hn, h]
  · rfl

theorem mem_names : name ∈ s.names ↔ (s.lookup name).isSome := by
  rw [names, Finset.mem_sort, Finmap.mem_keys, Finmap.lookup_isSome]

theorem pairwise_names : s.names.Pairwise (· ≤ ·) :=
  (Finset.pairwise_sort s.keys BytewiseLE).imp bytewiseLE_iff.mp

/-- A list of the names that ascends by code points is the list of the names. -/
theorem eq_names {ns : List String} (hmem : ∀ n, n ∈ ns ↔ (s.lookup n).isSome) (hns : ns.Nodup)
    (hpairwise : ns.Pairwise (· ≤ ·)) : ns = s.names := by
  refine List.Perm.eq_of_pairwise (fun a b _ _ h h' ↦ le_antisymm h h') hpairwise pairwise_names ?_
  exact (List.perm_ext_iff_of_nodup hns (Finset.sort_nodup _ _)).mpr fun n ↦
    (hmem n).trans mem_names.symm

end Shelf

/-! ## Sessions -/

namespace Library

/-- Does what is asked: the answer, and the library, which is another one if it was opened again. -/
def serve (address : LibraryAddress) (l : Library) : Request → Filing (Reply × Library)
  | .save w => do
    l.save w
    return (.done, l)
  | .load name => do
    let w ← l.load name
    return (.ruleSet w, l)
  | .delete name => do
    l.delete name
    return (.done, l)
  | .list => do
    let entries ← l.list
    return (.names (entries.map Entry.name), l)
  | .reopen => do
    l.detach
    let l ← attach address
    return (.done, l)

/-- The answers to one request after the other. A request that fails may have changed files. -/
def answers (address : LibraryAddress) (l : Library) (t : FileTree) :
    List Request → List (Except Complaint Reply)
  | [] => []
  | request :: requests =>
    match t.perform (l.serve address request) with
    | (.ok (reply, l), t) => .ok reply :: answers address l t requests
    | (.error e, t) => .error e.complaint :: answers address l t requests

/-- Opens a library and asks it for one thing after the other. -/
def session (address : LibraryAddress) (t : FileTree) (requests : List Request) :
    Except Complaint (List (Except Complaint Reply)) :=
  match t.perform (attach address) with
  | (.ok l, t) => .ok (answers address l t requests)
  | (.error e, _) => .error e.complaint

/-! ## Standing for a shelf -/

/-- The trees where a library is closed and those where it is open stand for shelves, and whatever
is done to the library is done to the shelf. Rule sets are only saved under names that fit. -/
structure Backs (address : LibraryAddress) (fits : String → Prop)
    (isClosed : Shelf → FileTree → Prop) (isOpen : Shelf → Library → FileTree → Prop) : Prop where
  attach : ∀ {s t}, isClosed s t →
    ∃ l t', t.perform (attach address) = (.ok l, t') ∧ isOpen s l t'
  detach : ∀ {s l}, Filing.Gives (isOpen s l) l.detach (.ok ()) (isClosed s)
  list : ∀ {s l}, ∃ location : String → String,
    Filing.Gives (isOpen s l) l.list (.ok (s.names.map fun name ↦ ⟨name, location name⟩))
      (isOpen s l)
  load : ∀ {s l name}, isUsableName name = true →
    ∃ path, Filing.Gives (isOpen s l) (l.load name)
      (need (.notFound name) (s.lookup name) >>= ruleSetOfText path) (isOpen s l)
  save : ∀ {s l} {w : RuleSet}, isUsableName w.name = true → fits w.name →
    Filing.Gives (isOpen s l) (l.save w) (.ok ()) (isOpen (s.insert w.name w.text) l)
  delete : ∀ {s l name text}, isUsableName name = true → s.lookup name = some text →
    Filing.Gives (isOpen s l) (l.delete name) (.ok ()) (isOpen (s.erase name) l)
  delete_missing : ∀ {s l name}, isUsableName name = true → s.lookup name = none →
    Filing.Gives (isOpen s l) (l.delete name) (.error (.notFound name)) (isOpen s l)

variable {address : LibraryAddress} {fits : String → Prop} {isClosed : Shelf → FileTree → Prop}
  {isOpen : Shelf → Library → FileTree → Prop} {s s' : Shelf} {l l' : Library} {t t' : FileTree}
  {request : Request} {reply : Reply} {name : String}

/-- Names that cannot be used are refused before anything is looked at. -/
theorem perform_of_unusable (h : isUsableName name = false) (l : Library) (t : FileTree) :
    t.perform (l.load name) = (.error (.invalidName name), t) ∧
      t.perform (l.delete name) = (.error (.invalidName name), t) ∧
      ∀ w : RuleSet, w.name = name → t.perform (l.save w) = (.error (.invalidName name), t) := by
  have hensure : ensureUsableName name = .error (.invalidName name) := by
    rw [ensureUsableName, h]
    rfl
  -- every kind of library looks at the name first
  have hfirst : ∀ {α : Type} (f : Unit → Filing α),
      t.perform (liftM (ensureUsableName name) >>= f) = (.error (.invalidName name), t) :=
    fun f ↦ FileTree.perform_lift_bind_of_error hensure f
  cases l with
  | folder root =>
    refine ⟨?_, ?_, ?_⟩
    · exact FileTree.perform_bind_of_error (hfirst _) _
    · exact FileTree.perform_bind_of_error (hfirst _) _
    · rintro w rfl
      exact hfirst _
  | ledger title o =>
    refine ⟨hfirst _, hfirst _, ?_⟩
    rintro w rfl
    exact hfirst _

theorem complaint_ruleSetOfText (path text : String) :
    (ruleSetOfText path text).mapError LibraryError.complaint = Shelf.ruleSetOfText text := by
  rw [ruleSetOfText, Shelf.ruleSetOfText]
  cases Document.ofText text with
  | error fault => rfl
  | ok d =>
    cases h : d.build with
    | error err => simp [Except.mapError, bind, Except.bind, h, LibraryError.complaint]
    | ok w => simp [Except.mapError, bind, Except.bind, h]

/-- One request is served as by the shelf. -/
inductive ServedAlike (address : LibraryAddress) (isOpen : Shelf → Library → FileTree → Prop)
    (s : Shelf) (l : Library) (t : FileTree) (request : Request) : Prop where
  /-- Both succeed with one reply. -/
  | ok (reply : Reply) (s' : Shelf) (l' : Library) (t' : FileTree) :
    s.serve request = .ok (reply, s') →
    t.perform (l.serve address request) = (.ok (reply, l'), t') → isOpen s' l' t' →
    ServedAlike address isOpen s l t request
  /-- Both fail alike, and the shelf stays as it was. -/
  | error (e : LibraryError) (t' : FileTree) :
    s.serve request = .error e.complaint →
    t.perform (l.serve address request) = (.error e, t') → isOpen s l t' →
    ServedAlike address isOpen s l t request

/-- A request is served by an operation on files, and the shelf says what its result means. -/
theorem ServedAlike.of_perform {α : Type} {x : Filing α} {r : Except LibraryError α}
    (f : α → Reply × Shelf) (hshelf : s.serve request = (r.mapError LibraryError.complaint).map f)
    (hlibrary : l.serve address request = x >>= fun a ↦ pure ((f a).1, l))
    (hperform : t.perform x = (r, t')) (hok : ∀ a, r = .ok a → isOpen (f a).2 l t')
    (herror : ∀ e, r = .error e → isOpen s l t') : ServedAlike address isOpen s l t request := by
  cases r with
  | ok a =>
    refine .ok (f a).1 (f a).2 l t' hshelf ?_ (hok a rfl)
    rw [hlibrary]
    exact FileTree.perform_bind_of_ok hperform _
  | error e =>
    refine .error e t' hshelf ?_ (herror e rfl)
    rw [hlibrary]
    exact FileTree.perform_bind_of_error hperform _

section Serve

variable (h : Backs address fits isClosed isOpen) (ht : isOpen s l t)

include h ht

theorem Backs.serve_save {w : RuleSet} (hfits : isUsableName w.name = true → fits w.name) :
    ServedAlike address isOpen s l t (.save w) := by
  cases hname : isUsableName w.name with
  | false =>
    refine .of_perform (fun _ ↦ (.done, s.insert w.name w.text)) ?_ rfl
      ((perform_of_unusable hname l t).2.2 w rfl) (by simp) fun _ _ ↦ ht
    rw [Shelf.serve, Shelf.ensureUsable_of_not hname]
    rfl
  | true =>
    obtain ⟨t', hsave, ht'⟩ := h.save hname (hfits hname) t ht
    refine .of_perform (fun _ ↦ (.done, s.insert w.name w.text)) ?_ rfl hsave (fun _ _ ↦ ht')
      (by simp)
    rw [Shelf.serve, Shelf.ensureUsable_of hname]
    rfl

theorem Backs.serve_load : ServedAlike address isOpen s l t (.load name) := by
  cases hname : isUsableName name with
  | false =>
    refine .of_perform (fun w ↦ (.ruleSet w, s)) ?_ rfl (perform_of_unusable hname l t).1
      (fun _ _ ↦ ht) fun _ _ ↦ ht
    rw [Shelf.serve, Shelf.ensureUsable_of_not hname]
    rfl
  | true =>
    obtain ⟨path, hload⟩ := h.load (s := s) (l := l) hname
    obtain ⟨t', hload, ht'⟩ := hload t ht
    refine .of_perform (fun w ↦ (.ruleSet w, s)) ?_ rfl hload (fun _ _ ↦ ht') fun _ _ ↦ ht'
    rw [Shelf.serve, Shelf.ensureUsable_of hname]
    cases s.lookup name with
    | none => rfl
    | some text =>
      change (Shelf.ruleSetOfText text >>= fun w ↦ .ok (Reply.ruleSet w, s)) =
        ((ruleSetOfText path text).mapError LibraryError.complaint).map fun w ↦ (Reply.ruleSet w, s)
      rw [complaint_ruleSetOfText]
      cases Shelf.ruleSetOfText text <;> rfl

theorem Backs.serve_delete : ServedAlike address isOpen s l t (.delete name) := by
  cases hname : isUsableName name with
  | false =>
    refine .of_perform (fun _ ↦ (.done, s.erase name)) ?_ rfl (perform_of_unusable hname l t).2.1
      (by simp) fun _ _ ↦ ht
    rw [Shelf.serve, Shelf.ensureUsable_of_not hname]
    rfl
  | true =>
    cases hlookup : s.lookup name with
    | none =>
      obtain ⟨t', hdelete, ht'⟩ := h.delete_missing (l := l) hname hlookup t ht
      refine .of_perform (fun _ ↦ (.done, s.erase name)) ?_ rfl hdelete (by simp) fun _ _ ↦ ht'
      rw [Shelf.serve, Shelf.ensureUsable_of hname, hlookup]
      rfl
    | some text =>
      obtain ⟨t', hdelete, ht'⟩ := h.delete (l := l) hname hlookup t ht
      refine .of_perform (fun _ ↦ (.done, s.erase name)) ?_ rfl hdelete (fun _ _ ↦ ht') (by simp)
      rw [Shelf.serve, Shelf.ensureUsable_of hname, hlookup]
      rfl

/-- **One request.** -/
theorem Backs.serve (hfits : request.Fits fits) : ServedAlike address isOpen s l t request := by
  cases request with
  | save w => exact h.serve_save ht hfits
  | load name => exact h.serve_load ht
  | delete name => exact h.serve_delete ht
  | list =>
    obtain ⟨location, hlist⟩ := h.list (s := s) (l := l)
    obtain ⟨t', hlist, ht'⟩ := hlist t ht
    have hnames : (s.names.map fun name ↦ (⟨name, location name⟩ : Entry)).map Entry.name =
        s.names := by
      rw [List.map_map]
      exact List.map_id _
    refine .of_perform (fun entries ↦ (.names (entries.map Entry.name), s)) ?_ rfl hlist
      (fun _ _ ↦ ht') fun _ _ ↦ ht'
    change _ = Except.ok (Reply.names (List.map Entry.name _), s)
    rw [hnames]
    rfl
  | reopen =>
    -- the library that is opened may be another one
    obtain ⟨t₁, hdetach, ht₁⟩ := h.detach t ht
    obtain ⟨l', t', hattach, ht'⟩ := h.attach ht₁
    refine .ok .done s l' t' rfl ?_ ht'
    exact (FileTree.perform_bind_of_ok hdetach _).trans (FileTree.perform_bind_of_ok hattach _)

end Serve

/-- **All requests.** -/
theorem Backs.answers (h : Backs address fits isClosed isOpen) {requests : List Request}
    (hfits : ∀ request ∈ requests, request.Fits fits) (ht : isOpen s l t) :
    l.answers address t requests = s.answers requests := by
  induction requests generalizing s l t with
  | nil => rfl
  | cons request requests ih =>
    obtain ⟨hrequest, hrequests⟩ := List.forall_mem_cons.mp hfits
    rw [Library.answers, Shelf.answers]
    cases h.serve ht hrequest with
    | ok reply s' l' t' hshelf hlibrary ht' =>
      rw [hshelf, hlibrary]
      exact congrArg _ (ih hrequests ht')
    | error e t' hshelf hlibrary ht' =>
      rw [hshelf, hlibrary]
      exact congrArg _ (ih hrequests ht')

theorem Backs.session (h : Backs address fits isClosed isOpen) {requests : List Request}
    (hfits : ∀ request ∈ requests, request.Fits fits) (ht : isClosed s t) :
    session address t requests = .ok (s.answers requests) := by
  obtain ⟨l, t', hattach, ht'⟩ := h.attach ht
  rw [Library.session, hattach]
  exact congrArg _ (h.answers hfits ht')

end Library

end Tabletop
