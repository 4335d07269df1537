import Tabletop.Proofs.Document.Build
import Tabletop.Proofs.RuleSet.Atomic
import Tabletop.Proofs.RuleSet.ByHand

/-!
# The progress of events

Whatever is done with a rule set, successfully or not, the progress that an event records is orderly
(`Event.Orderly`): an event that has not started records nothing, and one that has finished has a
line for each turn it played, in order, and has met its end condition unless it records an error.
Between operations no event is being played.

Only four operations write an event. Defining one and bringing one back write an event that has not
started, and so does loading a document, for every event. A start is the fourth: it plays the script
by hand and records where that stopped (`Orderly.startEvent_cases`). So the progress is orderly in
every rule set that operations lead to (`event_progress`), and there a start does what playing by
hand does, with every event that can be started (`startEvent_by_hand`).
-/

namespace Tabletop

/-- Whether the progress of an event is one that it can have between operations. -/
structure Event.Orderly (e : Event) : Prop where
  /-- It is not being played. -/
  not_running : e.status ≠ .running
  /-- Before it starts there is nothing to record. -/
  of_idle : e.status = .idle → e.turnIndex = 0 ∧ e.log = [] ∧ e.failure = none
  /-- No more turns are played than the script has. -/
  turnIndex_le : e.status = .finished → e.turnIndex ≤ e.script.length
  /-- Each turn that was played has its line. -/
  log_eq : e.status = .finished → e.log = Turn.logLines (e.script.take e.turnIndex)
  /-- Without an error, a count of turns that was waited for is reached. -/
  ended : e.status = .finished → e.failure = none →
    ∀ comparator count, e.ending = .turnCount comparator count →
      comparator.compareCounts e.turnIndex count.toNat = true

namespace Event.Orderly

variable {e : Event} {k : Nat} {w w' : RuleSet} {result : Except RuleError Unit}

theorem of_reset (h : e.reset = e) : e.Orderly := by
  rw [← h]
  exact ⟨Status.noConfusion, fun _ ↦ ⟨rfl, rfl, rfl⟩, Status.noConfusion, Status.noConfusion,
    Status.noConfusion⟩

/-- An event that has not started is as it was defined. -/
theorem reset_eq (h : e.Orderly) (hidle : e.status = .idle) : e.reset = e := by
  obtain ⟨hturnIndex, hlog, hfailure⟩ := h.of_idle hidle
  cases e
  simp_all [reset, ofScript]

/-- **Where playing by hand stops, an orderly event is left.** -/
theorem of_stops (hplays : e.Plays 0 w k w') (hstops : e.Stops k w' result) :
    Orderly { e.played .finished k with failure := RuleSet.failureOf result } where
  not_running := Status.noConfusion
  of_idle := Status.noConfusion
  turnIndex_le _ := hplays.le_length (Nat.zero_le _)
  log_eq _ := rfl
  ended := by
    intro _ hfailure comparator count hending
    replace hending : e.ending = .turnCount comparator count := hending
    cases hstops with
    | ended hcondition =>
      simp only [RuleSet.endConditionMet, hending] at hcondition
      exact Except.ok.inj hcondition
    | unclear | exhausted | failed => exact absurd hfailure (by simp [RuleSet.failureOf])

end Event.Orderly

/-! ## Operations that do not write events -/

/-- Whether an operation writes events. -/
def Op.WritesEvents : Op → Prop
  | defineEvent .. | removeEvent _ | startEvent _ | resetEvent _ | load _ => True
  | _ => False

namespace RuleSet

/-- Whether two rule sets have the same events, with the same one being played. -/
def SameEvents (w w' : RuleSet) : Prop := w'.events = w.events ∧ w'.running = w.running

/-- What does not write events leaves all of them alone. -/
theorem sameEvents_after (w : RuleSet) {op : Op} (hop : ¬op.WritesEvents) :
    w.SameEvents (w.after op) := by
  have hsame : w.SameEvents w := ⟨rfl, rfl⟩
  cases op with
  | rename name => exact hsame
  | defineAttribute name kind =>
    refine (keeps_defineAttribute name kind).after hsame fun _ _ hok ↦ ?_
    obtain ⟨-, -, rfl⟩ := perform_defineAttribute_eq_ok_iff.mp hok
    exact hsame
  | defineAction name effects =>
    refine (keeps_defineAction name effects).after hsame fun _ _ hok ↦ ?_
    obtain ⟨-, -, -, rfl⟩ := perform_defineAction_eq_ok_iff.mp hok
    exact hsame
  | defineEntity name slots actions =>
    refine (keeps_defineEntity name slots actions).after hsame fun _ _ hok ↦ ?_
    obtain ⟨slots', -, -, -, -, rfl⟩ := perform_defineEntity_eq_ok_iff.mp hok
    exact hsame
  | modifyAttribute name newName? newKind? =>
    refine (keeps_modifyAttribute name newName? newKind?).after hsame fun _ _ hok ↦ ?_
    obtain ⟨old, -, -, -, rfl⟩ := perform_modifyAttribute_eq_ok_iff.mp hok
    exact hsame
  | modifyAction name newName? newEffects? =>
    refine (keeps_modifyAction name newName? newEffects?).after hsame fun _ _ hok ↦ ?_
    obtain ⟨old, -, -, -, -, rfl⟩ := perform_modifyAction_eq_ok_iff.mp hok
    exact hsame
  | modifyEntity name newName? newSlots? newActions? =>
    refine (keeps_modifyEntity name newName? newSlots? newActions?).after hsame fun _ _ hok ↦ ?_
    obtain ⟨old, slots?, -, -, -, -, -, rfl⟩ := perform_modifyEntity_eq_ok_iff.mp hok
    exact hsame
  | removeAttribute name =>
    refine (keeps_removeAttribute name).after hsame fun _ _ hok ↦ ?_
    obtain ⟨-, rfl⟩ := perform_removeAttribute_eq_ok_iff.mp hok
    exact hsame
  | removeAction name =>
    refine (keeps_removeAction name).after hsame fun _ _ hok ↦ ?_
    obtain ⟨-, rfl⟩ := perform_removeAction_eq_ok_iff.mp hok
    exact hsame
  | removeEntity name =>
    refine (keeps_removeEntity name).after hsame fun _ _ hok ↦ ?_
    obtain ⟨-, rfl⟩ := perform_removeEntity_eq_ok_iff.mp hok
    exact hsame
  | useAction user action targets =>
    change w.SameEvents (w.perform (useAction user action targets)).2
    rw [perform_useAction]
    cases w.rehearse user action targets <;> exact hsame
  | _ => exact absurd trivial hop

/-- Whether every event of a rule set has an orderly progress, and none is being played. -/
structure Orderly (w : RuleSet) : Prop where
  /-- No event is being played. -/
  idle : w.running = none
  /-- No two events have one name. -/
  nodup : w.events.names.Nodup
  /-- The progress of every event is orderly. -/
  events : ∀ e ∈ w.events.rows, e.Orderly

namespace Orderly

variable {w w' : RuleSet} {name : String}

/-! ## Starting an event -/

/-- **What a start does to an orderly rule set.** It refuses, for want of an event or because the
event has finished, or it plays the script by hand. -/
theorem startEvent_cases (h : w.Orderly) (name : String) :
    (w.events.get? name = none ∧
        w.perform (startEvent name) = (.error (.unknownEvent name), w)) ∨
      (∃ e, w.events.get? name = some e ∧ e.status = .finished ∧
        w.perform (startEvent name) = (.error (.eventFinished name), w)) ∨
      ∃ e k w' result, w.events.get? name = some e ∧ e.Plays 0 w k w' ∧ e.Stops k w' result ∧
        w.perform (startEvent name) =
          (result.map fun _ ↦ Turn.logLines (e.script.take k),
            { w with
              entities := w'.entities
              events := w.events.put { e.played .finished k with failure := failureOf result } }) := by
  cases hget : w.events.get? name with
  | none => exact .inl ⟨rfl, by rw [perform_startEvent, hget]⟩
  | some e =>
    have horderly : e.Orderly := h.events e (Table.get?_eq_some hget).1
    cases hstatus : e.status with
    | running => exact absurd hstatus horderly.not_running
    | finished =>
      refine .inr (.inl ⟨e, rfl, hstatus, ?_⟩)
      rw [perform_startEvent, hget, h.idle]
      exact if_pos hstatus
    | idle =>
      obtain ⟨k, w', result, hplays, hstops⟩ := e.exists_stops (Nat.zero_le _) w
      exact .inr (.inr ⟨e, k, w', result, rfl, hplays, hstops,
        perform_startEvent_of_plays h.idle hget (horderly.reset_eq hstatus) hplays hstops⟩)

theorem startEvent (h : w.Orderly) (name : String) :
    (w.perform (startEvent name)).2.Orderly := by
  obtain ⟨-, hunknown⟩ | ⟨e, -, -, hfinished⟩ | ⟨e, k, w', result, -, hplays, hstops, hplayed⟩ :=
    h.startEvent_cases name
  · rw [hunknown]
    exact h
  · rw [hfinished]
    exact h
  · rw [hplayed]
    refine ⟨h.idle, ?_, Table.forall_mem_put h.events (.of_stops hplays hstops)⟩
    rw [Table.names_put]
    exact h.nodup

/-! ## The other operations -/

theorem empty (name : String) : (RuleSet.empty name).Orderly :=
  ⟨rfl, List.nodup_nil, fun _ he ↦ absurd he List.not_mem_nil⟩

theorem of_fresh (hrest : w.AtRest) (hfresh : w.Fresh) : w.Orderly :=
  ⟨hrest.idle, hrest.sound.events, fun e he ↦ .of_reset (hfresh e he)⟩

theorem defineEvent (h : w.Orderly) {participants : List String} {script : List Turn}
    {ending : EndCondition} {row : Event}
    (hok : w.perform (defineEvent name participants script ending) = (.ok row, w')) :
    w'.Orderly := by
  obtain ⟨hnew, -, -, rfl⟩ := perform_defineEvent_eq_ok_iff.mp hok
  exact ⟨h.idle, Table.nodup_names_push h.nodup hnew, Table.forall_mem_push h.events (.of_reset rfl)⟩

theorem removeEvent (h : w.Orderly) {row : Event}
    (hok : w.perform (removeEvent name) = (.ok row, w')) : w'.Orderly := by
  obtain ⟨-, rfl⟩ := perform_removeEvent_eq_ok_iff.mp hok
  exact ⟨h.idle, Table.nodup_names_without h.nodup, Table.forall_mem_without h.events⟩

theorem resetEvent (h : w.Orderly) {u : Unit}
    (hok : w.perform (resetEvent name) = (.ok u, w')) : w'.Orderly := by
  obtain ⟨-, rfl⟩ := perform_resetEvent_eq_ok_iff.mp hok
  refine ⟨h.idle, ?_, Table.forall_mem_adjust h.events fun _ _ ↦ .of_reset rfl⟩
  have hnames : ∀ e : Event, Named.name e = name → Named.name e.reset = name := fun _ he ↦ he
  rw [Table.names_adjust hnames]
  exact h.nodup

/-- **One step.** Every operation keeps the progress of events orderly, even if it fails. -/
theorem after (h : w.Orderly) (op : Op) : (w.after op).Orderly := by
  by_cases hop : op.WritesEvents
  · cases op with
    | defineEvent name participants script ending =>
      exact (keeps_defineEvent name participants script ending).after h fun _ _ ↦ h.defineEvent
    | removeEvent name => exact (keeps_removeEvent name).after h fun _ _ ↦ h.removeEvent
    | startEvent name => exact h.startEvent name
    | resetEvent name => exact (keeps_resetEvent name).after h fun _ _ ↦ h.resetEvent
    | load d =>
      refine (keeps_load d).after h fun _ _ hok ↦ ?_
      have hbuild := perform_load_eq_ok_iff.mp hok
      exact .of_fresh (Document.atRest_of_build hbuild) (Document.fresh_of_build hbuild)
    | _ => exact hop.elim
  · obtain ⟨hevents, hrunning⟩ := sameEvents_after w hop
    exact ⟨hrunning ▸ h.idle, hevents ▸ h.nodup, hevents ▸ h.events⟩

end Orderly

variable {w w' : RuleSet}

/-- **Every run.** Whatever operations led to a rule set, the progress of its events is orderly. -/
theorem Reachable.orderly (h : w.Reachable) : w.Orderly := by
  induction h with
  | empty name => exact .empty name
  | after op _ ih => exact ih.after op

/-! ## What stops a run

A turn and an end condition can fail for many reasons, but not because an event is being played:
only a start looks at that. -/

section Failures

variable {e : Event} {turn : Turn} {err : RuleError} {other : String}

theorem ne_alreadyRunning_of_endConditionMet (h : w.endConditionMet e = .error err) :
    err ≠ .eventAlreadyRunning other := by
  obtain ⟨_, _, _, _, -, ⟨-, rfl⟩ | ⟨m, -, h⟩⟩ := endConditionMet_eq_error_iff.mp h
  · simp
  · obtain ⟨-, rfl⟩ | ⟨v, -, h⟩ := Condition.holds_eq_error_iff.mp h
    · simp
    · obtain ⟨-, -, rfl⟩ := Comparator.compare_eq_error_iff.mp h
      simp

theorem ne_alreadyRunning_of_turnByHand (h : w.turnByHand turn = .error err) :
    err ≠ .eventAlreadyRunning other := by
  cases turn with
  | say speaker text =>
    rw [turnByHand] at h
    split at h
    · exact absurd h (by simp)
    · obtain rfl := Except.error.inj h
      simp
  | act user action targets =>
    have hr := turnByHand_act_eq_error_iff.mp h
    obtain ⟨_, rfl⟩ | rfl | ⟨_, rfl⟩ | ⟨a, -, hfails⟩ :=
      rehearse_eq_error (P := fun _ ↦ True) (fun _ _ ↦ trivial)
        (fun _ _ f _ ↦ f.preserves_name fun _ ↦ True) hr
    · simp
    · simp
    · simp
    · cases hfails with
      | condition _ _ _ _ h =>
        obtain ⟨-, -, rfl⟩ := Comparator.compare_eq_error_iff.mp h
        simp
      | _ => simp

theorem ne_alreadyRunning_of_stops {k : Nat} (h : e.Stops k w (.error err)) :
    err ≠ .eventAlreadyRunning other := by
  cases h with
  | unclear h => exact ne_alreadyRunning_of_endConditionMet h
  | exhausted => simp
  | failed _ _ h => exact ne_alreadyRunning_of_turnByHand h

end Failures

/-! ## Any operations -/

/-- **The progress of events, whatever is done.** Between operations no event is being played, and
every event has an orderly progress. So a start never finds another event being played, and when an
event that has not started is started, the answer is what the event then records: its log, or the
error that stopped it. -/
theorem event_progress (h : w.Reachable) :
    w.running = none ∧ (∀ e ∈ w.events.rows, e.Orderly) ∧
      ∀ name answer w', w.perform (startEvent name) = (answer, w') →
        (∀ other, answer ≠ .error (.eventAlreadyRunning other)) ∧
          ∀ e, w.events.get? name = some e → e.status = .idle →
            ∃ e', w'.events.get? name = some e' ∧ e'.reset = e ∧ e'.status = .finished ∧
              answer = match e'.failure with
                | none => .ok e'.log
                | some err => .error err := by
  have horderly := h.orderly
  refine ⟨horderly.idle, horderly.events, fun name answer w' hstart ↦ ?_⟩
  obtain ⟨hnone, hunknown⟩ | ⟨e, hget, hstatus, hfinished⟩ |
    ⟨e, k, w₁, result, hget, hplays, hstops, hplayed⟩ := horderly.startEvent_cases name
  · obtain ⟨rfl, -⟩ := Prod.mk.inj (hunknown.symm.trans hstart)
    exact ⟨by simp, fun e he _ ↦ absurd (hnone.symm.trans he) (by simp)⟩
  · obtain ⟨rfl, -⟩ := Prod.mk.inj (hfinished.symm.trans hstart)
    refine ⟨by simp, fun e' he' hidle ↦ ?_⟩
    obtain rfl := Option.some.inj (hget.symm.trans he')
    exact absurd (hidle.symm.trans hstatus) (by simp)
  · obtain ⟨rfl, rfl⟩ := Prod.mk.inj (hplayed.symm.trans hstart)
    refine ⟨fun other hother ↦ ?_, fun e' he' hidle ↦ ?_⟩
    · obtain rfl := except_map_eq_error_iff.mp hother
      exact ne_alreadyRunning_of_stops hstops rfl
    · -- the row is still there, so the event with its outcome takes it
      obtain rfl := Option.some.inj (hget.symm.trans he')
      obtain ⟨hmem, hname⟩ := Table.get?_eq_some hget
      refine ⟨{ e.played .finished k with failure := failureOf result }, ?_,
        (horderly.events e hmem).reset_eq hidle, rfl, ?_⟩
      · have hrow : e.name ∈ w.events.names := List.mem_map_of_mem hmem
        rw [← hname]
        exact Table.get?_put_self hrow
      · cases result <;> rfl

/-- A play that ends when Bob is glad. -/
def comedy : Event :=
  .ofScript "comedy" ["Ann", "Bob"]
    [.say "Ann" "Why so cross?", .act "Ann" "cheer" ["Bob"], .say "Bob" "Ha!"]
    (.participant "Bob" "mood" .eq (.text "glad"))

/-- A theatre with two plays. The actors of the finale can no longer bow, so it stopped after its
first turn. The comedy has not started. -/
def theatre : RuleSet :=
  [.defineAttribute "mood" .text,
    .defineAction "cheer" [⟨"mood", .single, .assign, .literal (.text "glad"), none⟩],
    .defineAction "bow" [⟨"mood", .user, .assign, .literal (.text "proud"), none⟩],
    .defineEntity "Ann" [⟨"mood", .text, .text "calm"⟩] ["cheer", "bow"],
    .defineEntity "Bob" [⟨"mood", .text, .text "cross"⟩] [],
    .defineEvent "finale" ["Ann"] [.say "Ann" "The end!", .act "Ann" "bow" []] (.turnCount .ge 2),
    .defineEvent comedy.name comedy.participants comedy.script comedy.ending,
    .removeAction "bow", .startEvent "finale"].foldl after (.empty "theatre")

theorem event_progress_theatre :
    (theatre.Reachable ∧ theatre.events.rows.map (fun e ↦ (e.status, e.turnIndex, e.failure)) =
        [(.finished, 1, some (.unknownAction "bow")), (.idle, 0, none)]) ∧
      theatre.running = none ∧ (∀ e ∈ theatre.events.rows, e.Orderly) ∧
      ∃ e', (theatre.after (.startEvent "comedy")).events.get? "comedy" = some e' ∧
        e'.reset = comedy ∧ e'.status = .finished ∧
        (theatre.perform (startEvent "comedy")).1 = match e'.failure with
          | none => .ok e'.log
          | some err => .error err := by
  have hreachable : theatre.Reachable := .foldl_after (.empty "theatre") _
  obtain ⟨hidle, horderly, hstart⟩ := event_progress hreachable
  exact ⟨⟨hreachable, by decide +kernel⟩, hidle, horderly,
    (hstart "comedy" _ _ rfl).2 comedy rfl rfl⟩

/-! ## Starting is playing by hand -/

/-- **Running an event is playing its script by hand**, whatever led to the rule set. A script that
has not started can be played by hand to where it stops. Wherever that is, a start leaves the
entities as they are then, and the event finished with the number of turns, their lines and the
error, if there was one. It leaves everything else as it was, and answers the lines or the error. -/
theorem startEvent_by_hand {e : Event} (h : w.Reachable) (he : e ∈ w.events.rows)
    (hidle : e.status = .idle) :
    (∃ k w' result, e.Plays 0 w k w' ∧ e.Stops k w' result) ∧
      ∀ k w' result, e.Plays 0 w k w' → e.Stops k w' result →
        w.perform (startEvent e.name) =
          (result.map fun _ ↦ Turn.logLines (e.script.take k),
            { w with
              entities := w'.entities
              events := w.events.put
                { e with
                  status := .finished
                  turnIndex := k
                  log := Turn.logLines (e.script.take k)
                  failure := failureOf result }
              running := none }) := by
  have horderly := h.orderly
  have hget : w.events.get? e.name = some e := Table.get?_of_mem horderly.nodup he
  have hfresh : e.reset = e := (horderly.events e he).reset_eq hidle
  refine ⟨e.exists_stops (Nat.zero_le _) w, fun k w' result hplays hstops ↦ ?_⟩
  rw [perform_startEvent_of_plays horderly.idle hget hfresh hplays hstops, horderly.idle]
  rfl

theorem startEvent_by_hand_comedy :
    (theatre.Reachable ∧ comedy ∈ theatre.events.rows ∧ comedy.status = .idle) ∧
      theatre.perform (startEvent "comedy") =
        (.ok ["1| Ann said 'Why so cross?'", "2| Ann used cheer on Bob"],
          { theatre with
            entities := (theatre.after (.useAction "Ann" "cheer" ["Bob"])).entities
            events := theatre.events.put
              { comedy with
                status := .finished
                turnIndex := 2
                log := ["1| Ann said 'Why so cross?'", "2| Ann used cheer on Bob"]
                failure := none }
            running := none }) := by
  have hreachable : theatre.Reachable := .foldl_after (.empty "theatre") _
  have hmem : comedy ∈ theatre.events.rows := by decide +kernel
  refine ⟨⟨hreachable, hmem, rfl⟩, ?_⟩
  have hplays : comedy.Plays 0 theatre 2 (theatre.after (.useAction "Ann" "cheer" ["Bob"])) :=
    .turn rfl rfl rfl (.turn rfl rfl rfl (.refl 2 _))
  have hstops : comedy.Stops 2 (theatre.after (.useAction "Ann" "cheer" ["Bob"])) (.ok ()) :=
    .ended rfl
  exact (startEvent_by_hand hreachable hmem rfl).2 _ _ _ hplays hstops

end RuleSet

end Tabletop
