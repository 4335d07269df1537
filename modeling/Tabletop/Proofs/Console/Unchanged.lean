import Tabletop.Console.Run
import Tabletop.Proofs.Library.Unchanged
import Tabletop.Proofs.RuleSet.Atomic
import Tabletop.Proofs.RuleSet.Play

/-!
# What a line leaves unchanged

A line at the console that fails changes neither the current rule set nor what is stored
(`Session.step_unchanged`), except that an event that was run is finished all the same. Lines that
only show something change neither in any case, lines for the library do not change the rule set
unless they open one, and all other lines leave the files alone. So it is for any number of such
lines (`Session.play_rules`, `Session.play_sameStore`).

What is stored is what the library says of it (`Library.SameStore`). That it cannot be said because
files or a ledger cannot be used is ruled out (`Session.IsCalm`), for the one operation of the line
that might write.
-/

namespace Tabletop

namespace Command

/-- Whether a command may change the current rule set. -/
def mayEdit : Command → Bool
  | new _ | load _ | importFrom _ | rename _ | defineAttribute _ _ | defineAction _ _
  | defineEntity _ _ | remove _ _ | use _ _ _ | startEvent _ | resetEvent _ => true
  | nothing | quit | help | list | save | delete _ | summary | card _ | value _ _ | eventCard _
  | incomplete _ | unknown => false

/-- Whether a command may change what is stored. -/
def mayStore : Command → Bool
  | importFrom _ | save | delete _ => true
  | nothing | quit | help | list | new _ | load _ | rename _ | summary | card _ | value _ _
  | defineAttribute _ _ | defineAction _ _ | defineEntity _ _ | remove _ _ | use _ _ _
  | startEvent _ | eventCard _ | resetEvent _ | incomplete _ | unknown => false

/-- Whether a command is one for the library. -/
def isFiling : Command → Bool
  | list | load _ | importFrom _ | save | delete _ => true
  | _ => false

end Command

namespace Session

open FileTree

variable {s s' : Session} {command : Command} {answer : Answer} {line : String} {α : Type}

/-- Files and ledger can be used for what a command asks of the library. Reading the file that is
imported may fail. -/
def IsCalm (s : Session) : Command → Prop
  | .list => Filing.IsCalm (s.files.perform s.library.list).1
  | .load name => Filing.IsCalm (s.files.perform (s.library.load name)).1
  | .importFrom path => ∀ w t, s.files.perform (Filing.loadFrom path) = (.ok w, t) →
      Filing.IsCalm (t.perform (s.library.save w)).1
  | .save => Filing.IsCalm (s.files.perform (s.library.save s.rules)).1
  | .delete name => Filing.IsCalm (s.files.perform (s.library.delete name)).1
  | _ => True

/-- A command that runs an event: the event is there and not finished, and no other one is being
played. -/
def RunsEvent (s : Session) (command : Command) (e : Event) : Prop :=
  ∃ name, command = .startEvent name ∧ s.rules.events.get? name = some e ∧
    s.rules.running = none ∧ e.status ≠ .finished

/-- A session with the same rule sets in the same library. -/
def SameStore (s s' : Session) : Prop :=
  s'.library = s.library ∧ s.library.SameStore s.files s'.files

@[refl] theorem SameStore.refl (s : Session) : s.SameStore s := ⟨rfl, .refl _ _⟩

theorem SameStore.trans {s s' s'' : Session} (h : s.SameStore s') (h' : s'.SameStore s'') :
    s.SameStore s'' :=
  ⟨h'.1.trans h.1, h.2.trans (h.1 ▸ h'.2)⟩

/-! ## Running an event -/

/-- The rule set after a run of an event that failed: the values of entities are what they were
when it did, and the event is finished and has the error. -/
def AfterFailedRun (w : RuleSet) (e : Event) (w' : RuleSet) : Prop :=
  ∃ ms e', w' = { w with entities := w.entities.putAll ms, events := w.events.put e' } ∧
    e'.reset = e.reset ∧ e'.status = .finished ∧ e'.failure.isSome = true

section StartEvent

variable {w w' : RuleSet} {name : String} {e : Event}

/-- **A run that fails is recorded.** -/
theorem afterFailedRun_of_startEvent {err : RuleError} (hget : w.events.get? name = some e)
    (hidle : w.running = none) (hunfinished : e.status ≠ .finished)
    (h : w.perform (RuleSet.startEvent name) = (.error err, w')) : AfterFailedRun w e w' := by
  have hreset := RuleSet.runEvent_reset { w with running := some e.name }
    { e with status := .running }
  obtain ⟨ms, hframe⟩ := RuleSet.playOn_frame { w with running := some e.name }
    { e with status := .running } (e.script.drop e.turnIndex)
  rw [← RuleSet.runEvent] at hframe
  rw [RuleSet.perform_startEvent, hget, hidle] at h
  dsimp only at h
  rw [if_neg hunfinished] at h
  generalize RuleSet.runEvent { w with running := some e.name } { e with status := .running } =
    run at h hreset hframe
  obtain ⟨result, e', w''⟩ := run
  obtain rfl : w'' = _ := hframe
  obtain ⟨hresult, rfl⟩ := Prod.mk.inj h
  refine ⟨ms, e'.finish result, ?_, hreset, rfl, ?_⟩
  · rw [← hidle]
  · cases result with
    | error err => rfl
    | ok u => cases hresult

/-- An event that is not run leaves the rule set alone. -/
theorem perform_startEvent_of_not_run
    (h : ∀ e, w.events.get? name = some e → w.running = none → e.status = .finished) :
    (w.perform (RuleSet.startEvent name)).2 = w := by
  rw [RuleSet.perform_startEvent]
  split
  · rfl
  · rfl
  · rename_i e hget hidle
    rw [if_pos (h e hget hidle)]

end StartEvent

/-! ## Commands that work on the rule set -/

/-- A command that leaves library and files alone, and the rule set too if it fails, unless it runs
an event. -/
structure EditsAlone (s : Session) (command : Command) (p : Answer × Session) : Prop where
  library : p.2.library = s.library
  files : p.2.files = s.files
  rules : p.1.failed = true → (∀ e, ¬s.RunsEvent command e) → p.2.rules = s.rules

theorem editsAlone_tell (s : Session) (answer : Answer) : s.EditsAlone command (s.tell answer) :=
  ⟨rfl, rfl, fun _ _ ↦ rfl⟩

theorem editsAlone_edit {title : String} {edit : Edit α} {say : α → Answer}
    (hkeeps : s.rules.Keeps edit) (hsay : ∀ a, (say a).failed = false) :
    s.EditsAlone command (s.edit title edit say) := by
  rw [Session.edit]
  split
  · exact ⟨rfl, rfl, fun hfailed ↦ absurd hfailed (by simp [hsay])⟩
  · rename_i e rules hperform
    exact ⟨rfl, rfl, fun _ _ ↦ hkeeps e rules hperform⟩

theorem editsAlone_withToken {token : Except TokenError α} {next : α → Answer × Session}
    (h : ∀ a, s.EditsAlone command (next a)) : s.EditsAlone command (s.withToken token next) := by
  cases token with
  | error e => exact ⟨rfl, rfl, fun _ _ ↦ rfl⟩
  | ok a => exact h a

theorem editsAlone_startEvent (s : Session) (name : String) :
    s.EditsAlone (.startEvent name) (s.startEvent name) := by
  have hidle (h : ∀ e, ¬s.RunsEvent (.startEvent name) e) :
      (s.rules.perform (RuleSet.startEvent name)).2 = s.rules :=
    perform_startEvent_of_not_run fun e hget hidle ↦
      by_contra fun hunfinished ↦ h e ⟨name, rfl, hget, hidle, hunfinished⟩
  rw [Session.startEvent]
  split
  · exact ⟨rfl, rfl, fun hfailed ↦ absurd hfailed Bool.false_ne_true⟩
  · rename_i err rules hperform
    rw [hperform] at hidle
    exact ⟨rfl, rfl, fun _ ↦ hidle⟩

theorem keeps_remove (w : RuleSet) (kind : RowKind) (name : String) :
    w.Keeps (RuleSet.remove kind name) := by
  cases kind with
  | attr => exact (RuleSet.keeps_removeAttribute name).discard
  | action => exact (RuleSet.keeps_removeAction name).discard
  | entity => exact (RuleSet.keeps_removeEntity name).discard
  | event => exact (RuleSet.keeps_removeEvent name).discard

theorem editsAlone_perform (hfiling : command.isFiling = false) :
    s.EditsAlone command (s.perform command) := by
  cases command with
  | list | load _ | importFrom _ | save | delete _ => exact nomatch hfiling
  | nothing | quit | help | summary | card _ | value _ _ | eventCard _ | incomplete _ | unknown =>
    exact editsAlone_tell s _
  | new name => exact ⟨rfl, rfl, fun hfailed ↦ absurd hfailed Bool.false_ne_true⟩
  | rename name =>
    rw [perform]
    exact editsAlone_edit (.of_ok (RuleSet.perform_modify _ _)) fun _ ↦ rfl
  | defineAttribute name kind =>
    exact editsAlone_withToken fun _ ↦
      editsAlone_edit (RuleSet.keeps_defineAttribute _ _) fun _ ↦ rfl
  | defineAction name effects =>
    exact editsAlone_withToken fun _ ↦
      editsAlone_edit (RuleSet.keeps_defineAction _ _) fun _ ↦ rfl
  | defineEntity name parts =>
    exact editsAlone_withToken fun _ ↦
      editsAlone_edit (RuleSet.keeps_defineEntity _ _ _) fun _ ↦ rfl
  | remove table name =>
    rw [perform]
    split
    · exact editsAlone_edit (keeps_remove _ _ _) fun _ ↦ rfl
    · exact editsAlone_tell s _
  | use user action targets =>
    exact editsAlone_edit (RuleSet.keeps_useAction _ _ _) fun _ ↦ rfl
  | startEvent name => exact editsAlone_startEvent s name
  | resetEvent name => exact editsAlone_edit (RuleSet.keeps_resetEvent _) fun _ ↦ rfl

/-! ## Commands for the library -/

/-- A command that leaves the rule set alone unless it opens one, and what is stored unless it
stores something. -/
structure FilesAlone (s : Session) (command : Command) (p : Answer × Session) : Prop where
  library : p.2.library = s.library
  rules : p.1.failed = true ∨ command.mayEdit = false → p.2.rules = s.rules
  store : p.1.failed = true ∨ command.mayStore = false → s.IsCalm command →
    s.library.SameStore s.files p.2.files

/-- Work on the library is done, or it fails and that is said. -/
theorem file_induct {title : String} {filing : Filing α} {next : α → Session → Answer × Session}
    {P : Answer × Session → Prop}
    (hok : ∀ a t, s.files.perform filing = (.ok a, t) → P (next a { s with files := t }))
    (herror : ∀ e t, s.files.perform filing = (.error e, t) →
      P (.failure s!"{title} failed: {e.message}", { s with files := t })) :
    P (s.file title filing next) := by
  rw [file]
  rcases hperform : s.files.perform filing with ⟨e | a, t⟩
  · exact herror e t hperform
  · exact hok a t hperform

theorem filesAlone_list (s : Session) : s.FilesAlone .list (s.perform .list) := by
  rw [perform]
  refine file_induct (P := s.FilesAlone _) (fun entries t hperform ↦ ?_) fun e t hperform ↦ ?_
  all_goals
    refine ⟨rfl, fun _ ↦ rfl, fun _ hcalm ↦ Library.sameStore_of_list hperform ?_⟩
    rwa [IsCalm, hperform] at hcalm

theorem filesAlone_load (s : Session) (name : String) :
    s.FilesAlone (.load name) (s.perform (.load name)) := by
  rw [perform]
  refine file_induct (P := s.FilesAlone _) (fun w t hperform ↦ ?_) fun e t hperform ↦ ?_
  · refine ⟨rfl, (fun h ↦ nomatch h), fun _ _ ↦ ?_⟩
    exact Library.sameStore_of_load hperform (Filing.isCalm_ok w)
  · refine ⟨rfl, fun _ ↦ rfl, fun _ hcalm ↦ Library.sameStore_of_load hperform ?_⟩
    rwa [IsCalm, hperform] at hcalm

/-- A file may not describe a rule set, or describe one that cannot be stored. -/
theorem filesAlone_importFrom (s : Session) (path : String) :
    s.FilesAlone (.importFrom path) (s.perform (.importFrom path)) := by
  rw [perform]
  refine file_induct (P := s.FilesAlone _) (fun w t hperform ↦ ?_) fun e t hperform ↦ ?_
  · exact ⟨rfl, (fun h ↦ nomatch h), fun h ↦ nomatch h⟩
  · refine ⟨rfl, fun _ ↦ rfl, fun _ hcalm ↦ ?_⟩
    obtain h | ⟨w, t₁, hload, h⟩ := perform_bind_eq_error_iff.mp hperform
    · exact Library.sameStore_of_looks (Filing.looks_loadFrom path) h
    obtain h | ⟨_, t₂, -, h⟩ := perform_bind_eq_error_iff.mp h
    · have hsave := hcalm w t₁ hload
      rw [h] at hsave
      have hlooks := Filing.looks_loadFrom path s.files
      rw [hload] at hlooks
      obtain rfl : t₁ = s.files := hlooks
      exact Library.sameStore_of_save_error h (hsave e rfl)
    · exact nomatch (Prod.mk.inj h).1

theorem filesAlone_save (s : Session) : s.FilesAlone .save (s.perform .save) := by
  rw [perform]
  refine file_induct (P := s.FilesAlone _) (fun _ t hperform ↦ ?_) fun e t hperform ↦ ?_
  · exact ⟨rfl, fun _ ↦ rfl, fun h ↦ nomatch h⟩
  · refine ⟨rfl, fun _ ↦ rfl, fun _ hcalm ↦ Library.sameStore_of_save_error hperform ?_⟩
    rw [IsCalm, hperform] at hcalm
    exact hcalm e rfl

theorem filesAlone_delete (s : Session) (name : String) :
    s.FilesAlone (.delete name) (s.perform (.delete name)) := by
  rw [perform]
  refine file_induct (P := s.FilesAlone _) (fun _ t hperform ↦ ?_) fun e t hperform ↦ ?_
  · exact ⟨rfl, fun _ ↦ rfl, fun h ↦ nomatch h⟩
  · refine ⟨rfl, fun _ ↦ rfl, fun _ hcalm ↦ Library.sameStore_of_delete_error hperform ?_⟩
    rw [IsCalm, hperform] at hcalm
    exact hcalm e rfl

theorem filesAlone_perform (hfiling : command.isFiling = true) :
    s.FilesAlone command (s.perform command) := by
  cases command with
  | list => exact filesAlone_list s
  | load name => exact filesAlone_load s name
  | importFrom path => exact filesAlone_importFrom s path
  | save => exact filesAlone_save s
  | delete name => exact filesAlone_delete s name
  | _ => exact nomatch hfiling

/-! ## All commands -/

/-- A command that fails leaves the rule set alone, unless it runs an event. -/
theorem rules_of_failed (hidle : ∀ e, ¬s.RunsEvent command e)
    (hfailed : (s.perform command).1.failed = true) : (s.perform command).2.rules = s.rules := by
  cases hfiling : command.isFiling with
  | false => exact (editsAlone_perform hfiling).rules hfailed hidle
  | true => exact (filesAlone_perform hfiling).rules (.inl hfailed)

/-- A command that runs an event and fails records the run. -/
theorem afterFailedRun_of_failed {e : Event} (hrun : s.RunsEvent command e)
    (hfailed : (s.perform command).1.failed = true) :
    AfterFailedRun s.rules e (s.perform command).2.rules := by
  obtain ⟨name, rfl, hget, hidle, hunfinished⟩ := hrun
  rw [perform, Session.startEvent] at hfailed ⊢
  split
  · rename_i hperform
    rw [hperform] at hfailed
    exact absurd hfailed Bool.false_ne_true
  · rename_i hperform
    exact afterFailedRun_of_startEvent hget hidle hunfinished hperform

theorem rules_of_not_mayEdit (hedit : command.mayEdit = false) :
    (s.perform command).2.rules = s.rules := by
  cases hfiling : command.isFiling with
  | true => exact (filesAlone_perform hfiling).rules (.inr hedit)
  | false =>
    cases command with
    | nothing | quit | help | summary | card _ | value _ _ | eventCard _ | incomplete _
    | unknown => rfl
    | list | save | delete _ => exact nomatch hfiling
    | _ => exact nomatch hedit

/-- A command that fails leaves alone what is stored, and so does one that stores nothing. -/
theorem sameStore_perform (hcalm : s.IsCalm command)
    (h : (s.perform command).1.failed = true ∨ command.mayStore = false) :
    s.SameStore (s.perform command).2 := by
  cases hfiling : command.isFiling with
  | true =>
    have hfiles := filesAlone_perform (s := s) hfiling
    exact ⟨hfiles.library, hfiles.store h hcalm⟩
  | false =>
    have hedits := editsAlone_perform (s := s) hfiling
    exact ⟨hedits.library, hedits.files ▸ .refl _ _⟩

/-! ## Lines -/

theorem step_eq_some (h : s.step line = some (answer, s')) :
    s.perform (.ofLine line) = (answer, s') := by
  rw [step] at h
  split at h
  · exact nomatch h
  · exact Option.some.inj h

/-- **A line that fails changes nothing,** except that the run of an event is recorded. Nor do lines
change the rule set that only show something or work on what is stored, or lines change what is
stored that only work on the rule set. -/
theorem step_unchanged (h : s.step line = some (answer, s')) :
    (answer.failed = true →
      ((∀ e, ¬s.RunsEvent (.ofLine line) e) → s'.rules = s.rules) ∧
      (∀ e, s.RunsEvent (.ofLine line) e → AfterFailedRun s.rules e s'.rules) ∧
      (s.IsCalm (.ofLine line) → s.SameStore s')) ∧
    ((Command.ofLine line).mayEdit = false → s'.rules = s.rules) ∧
    ((Command.ofLine line).mayStore = false → s.IsCalm (.ofLine line) → s.SameStore s') := by
  have hperform := step_eq_some h
  have hanswer : (s.perform (.ofLine line)).1 = answer := by rw [hperform]
  obtain rfl : (s.perform (.ofLine line)).2 = s' := by rw [hperform]
  refine ⟨fun hfailed ↦ ?_, rules_of_not_mayEdit, fun hstore hcalm ↦ ?_⟩
  · rw [← hanswer] at hfailed
    exact ⟨fun hidle ↦ rules_of_failed hidle hfailed,
      fun _ hrun ↦ afterFailedRun_of_failed hrun hfailed,
      fun hcalm ↦ sameStore_perform hcalm (.inl hfailed)⟩
  · exact sameStore_perform hcalm (.inr hstore)

/-- A session on a ledger with one rule set. The journal of another ledger is left beside it. -/
def cellar : Session where
  library := .ledger "games.db" ⟨0⟩
  rules := .empty "tavern"
  files :=
    { nodes := [(["games.db"], .ledger (.putAll { head := some 2 }
        [.version 1, .rows [⟨1, "tavern", "", true⟩], .index [("tavern", 1)]])),
        (["games.db-journal"], .text "remains")]
      working := []
      removed := []
      opened := [some ⟨some ⟨["games.db"], 0⟩, true, .all, {}, none⟩] }

/-- There is no ghost to delete. The remains are cleared away by the attempt, which does not show in
what is stored. -/
theorem step_unchanged_cellar :
    ∃ answer s', cellar.step "delete ghost" = some (answer, s') ∧ answer.failed = true ∧
      s'.files ≠ cellar.files ∧ s'.rules = cellar.rules ∧ cellar.SameStore s' := by
  have hline : Command.ofLine "delete ghost" = .delete "ghost" := by decide +kernel
  have hdelete : (cellar.files.perform (cellar.library.delete "ghost")).1 =
      .error (.notFound "ghost") := by
    decide +kernel
  have hcalm : cellar.IsCalm (.ofLine "delete ghost") := by
    rw [hline, IsCalm, hdelete]
    exact fun e he ↦ Except.error.inj he ▸ rfl
  have hfailed : (cellar.step "delete ghost").all (·.1.failed) = true := by decide +kernel
  have hfiles : (cellar.step "delete ghost").all (·.2.files != cellar.files) = true := by
    decide +kernel
  cases hstep : cellar.step "delete ghost" with
  | none => exact absurd hstep (by decide +kernel)
  | some p =>
    obtain ⟨answer, s'⟩ := p
    rw [hstep] at hfailed hfiles
    obtain ⟨hunchanged, hedit, -⟩ := step_unchanged hstep
    exact ⟨answer, s', rfl, hfailed, bne_iff_ne.mp hfiles, hedit (by rw [hline]; rfl),
      (hunchanged hfailed).2.2 hcalm⟩

/-! ## Sequences of lines -/

/-- Each line of a sequence is as it should be in the session that reads it. -/
def Throughout (P : Session → String → Prop) : Session → List String → Prop
  | _, [] => True
  | s, line :: lines => P s line ∧ ∀ answer s', s.step line = some (answer, s') →
      Throughout P s' lines

/-- What holds between the sessions before and after a line does so for a sequence of lines. -/
theorem play_rel {P : Session → String → Prop} {R : Session → Session → Prop}
    (hrefl : ∀ s, R s s) (htrans : ∀ {s₁ s₂ s₃}, R s₁ s₂ → R s₂ s₃ → R s₁ s₃)
    (hstep : ∀ {s line answer s'}, P s line → s.step line = some (answer, s') → R s s')
    {lines : List String} (h : Throughout P s lines) : R s (s.play lines).2 := by
  induction lines generalizing s with
  | nil => exact hrefl s
  | cons line lines ih =>
    rw [play]
    cases hnext : s.step line with
    | none => exact hrefl s
    | some p => exact htrans (hstep h.1 hnext) (ih (h.2 p.1 p.2 hnext))

/-- Lines that fail without running an event, or do not work on the rule set at all, leave it as it
is, however many of them are read. -/
theorem play_rules {lines : List String}
    (h : s.Throughout (fun s line ↦
      (s.perform (.ofLine line)).1.failed = true ∧ (∀ e, ¬s.RunsEvent (.ofLine line) e) ∨
        (Command.ofLine line).mayEdit = false) lines) :
    (s.play lines).2.rules = s.rules := by
  refine play_rel (R := fun s s' ↦ s'.rules = s.rules) (fun _ ↦ rfl) (fun h₁ h₂ ↦ h₂.trans h₁)
    (fun {s line answer s'} hline hstep ↦ ?_) h
  have hrules : (s.perform (.ofLine line)).2.rules = s.rules := by
    obtain ⟨hfailed, hidle⟩ | hedit := hline
    · exact rules_of_failed hidle hfailed
    · exact rules_of_not_mayEdit hedit
  rwa [step_eq_some hstep] at hrules

/-- Lines that fail, or store nothing, leave what is stored as it is, however many are read. -/
theorem play_sameStore {lines : List String}
    (h : s.Throughout (fun s line ↦ s.IsCalm (.ofLine line) ∧
      ((s.perform (.ofLine line)).1.failed = true ∨ (Command.ofLine line).mayStore = false))
      lines) :
    s.SameStore (s.play lines).2 := by
  refine play_rel .refl .trans (fun {s line answer s'} hline hstep ↦ ?_) h
  have hsame := sameStore_perform hline.1 hline.2
  rwa [step_eq_some hstep] at hsame

end Session

end Tabletop
