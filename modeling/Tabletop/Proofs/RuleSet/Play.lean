import Tabletop.Proofs.RuleSet.UseAction

/-!
# Runs of events

A run of an event is a sequence of turns, and a turn does nothing to a rule set but what a use of an
action does: some entities take their places in the table of entities. So what survives a turn
survives a run (`playOn_induct`), and whatever is not about values of entities is not touched by one
(`playOn_frame`). The event itself goes through the run as a value beside the rule set, and is put
back into its row at the end; it always has one (`perform_startEvent`).
-/

namespace Tabletop

namespace Event

@[simp] theorem reset_name (e : Event) : e.reset.name = e.name := rfl

theorem reset_eq_reset_iff {e e' : Event} :
    e.reset = e'.reset ↔ e.name = e'.name ∧ e.participants = e'.participants ∧
      e.script = e'.script ∧ e.ending = e'.ending := by
  simp [reset, ofScript]

@[simp] theorem reset_advance (e : Event) (turn : Turn) : (e.advance turn).reset = e.reset := rfl

/-- The event at the end of a run, with the error that stopped it if one did. -/
def finish (e : Event) (result : Except RuleError Unit) : Event :=
  let failure := match result with
    | .ok () => e.failure
    | .error err => some err
  { e with status := .finished, failure }

end Event

namespace RuleSet

variable {w : RuleSet} {e : Event}

/-! ## End conditions -/

/-- Counts can always be compared. Whether an entity has got somewhere is told as a condition on it
would be, if there is such an entity. -/
theorem endConditionMet_eq_error_iff {err : RuleError} :
    w.endConditionMet e = .error err ↔
      ∃ name attr comparator value, e.ending = .participant name attr comparator value ∧
        (w.entities.get? name = none ∧ err = .unknownEntity name ∨
          ∃ m, w.entities.get? name = some m ∧
            Condition.holds ⟨attr, .user, comparator, value⟩ m = .error err) := by
  rw [endConditionMet]
  split
  · rename_i hending
    simp [hending]
  · rename_i name attr comparator value hending
    -- the entity that is found has the name that it is found under
    have hread (m : Entity) (hm : w.entities.get? name = some m) :
        Condition.holds ⟨attr, .user, comparator, value⟩ m = (do
          let current ← need (.unknownAttribute attr (.entity name)) (m.value? attr)
          comparator.compare current value) := by
      have hname : m.name = name := (Table.get?_eq_some hm).2
      rw [Condition.holds, hname]
    rw [hending, bind_eq_error_iff]
    constructor
    · rintro (h | ⟨m, hm, h⟩)
      · exact ⟨name, attr, comparator, value, rfl, .inl (need_eq_error_iff.mp h)⟩
      · have hm := knownEntity_eq_ok_iff.mp hm
        exact ⟨name, attr, comparator, value, rfl, .inr ⟨m, hm, (hread m hm).trans h⟩⟩
    · rintro ⟨_, _, _, _, heq, hfails⟩
      obtain ⟨rfl, rfl, rfl, rfl⟩ := EndCondition.participant.inj heq
      obtain hnone | ⟨m, hm, h⟩ := hfails
      · exact .inl (need_eq_error_iff.mpr hnone)
      · exact .inr ⟨m, knownEntity_eq_ok_iff.mpr hm, (hread m hm).symm.trans h⟩

/-! ## Turns -/

/-- A turn that is played puts some entities in their places. -/
theorem perform_playTurn (w : RuleSet) (turn : Turn) :
    ∃ result ms, w.perform (playTurn turn) =
      (result, { w with entities := w.entities.putAll ms }) := by
  cases turn with
  | act user action targets =>
    rw [playTurn, perform_discard, perform_useAction]
    cases w.rehearse user action targets with
    | error err => exact ⟨.error err, [], rfl⟩
    | ok o => exact ⟨.ok (), o.cast.members, rfl⟩
  | say speaker text =>
    rw [playTurn, perform_get_bind, perform_discard]
    exact ⟨_, [], rfl⟩

/-- What survives every use of an action survives a turn. -/
theorem preserves_playTurn {P : RuleSet → Prop}
    (huse : ∀ user action targets, Preserves P (useAction user action targets)) (turn : Turn) :
    Preserves P (playTurn turn) := by
  cases turn with
  | act user action targets => exact (huse user action targets).discard
  | say speaker text =>
    intro w hw
    rw [playTurn, perform_get_bind, perform_discard, perform_lift]
    exact hw

/-! ## Runs -/

/-- What survives every turn survives a run. -/
theorem playOn_induct {P : RuleSet → Prop}
    (hturn : ∀ w turn, P w → P (w.perform (playTurn turn)).2) (hw : P w) (turns : List Turn) :
    P (playOn w e turns).2.2 := by
  induction turns generalizing w e with
  | nil => exact hw
  | cons turn turns ih =>
    rw [playOn]
    -- a run ends in front of a turn, at a turn that fails, or behind the last one
    cases w.stop? e with
    | some result => exact hw
    | none =>
      have hnext := hturn w turn hw
      rcases hp : w.perform (playTurn turn) with ⟨_ | _, w'⟩
      · rw [hp] at hnext
        exact hnext
      · rw [hp] at hnext
        exact ih hnext

/-- A run changes values of entities and nothing else. -/
theorem playOn_frame (w : RuleSet) (e : Event) (turns : List Turn) :
    ∃ ms, (playOn w e turns).2.2 = { w with entities := w.entities.putAll ms } := by
  refine playOn_induct (P := fun w' ↦ ∃ ms, w' = { w with entities := w.entities.putAll ms })
    (fun w' turn hw' ↦ ?_) ⟨[], rfl⟩ turns
  obtain ⟨ms, rfl⟩ := hw'
  obtain ⟨result, ms', hp⟩ := perform_playTurn { w with entities := w.entities.putAll ms } turn
  -- the places that this turn fills are filled after those of the turns before
  refine ⟨ms ++ ms', ?_⟩
  rw [hp, Table.putAll_append]

/-- A run changes the progress of its event and nothing else. -/
theorem playOn_reset (w : RuleSet) (e : Event) (turns : List Turn) :
    (playOn w e turns).2.1.reset = e.reset := by
  induction turns generalizing w e with
  | nil => rfl
  | cons turn turns ih =>
    rw [playOn]
    cases w.stop? e with
    | some result => rfl
    | none =>
      rcases hp : w.perform (playTurn turn) with ⟨_ | _, w'⟩
      · rfl
      · exact (ih w' (e.advance turn)).trans (e.reset_advance turn)

theorem runEvent_reset (w : RuleSet) (e : Event) : (w.runEvent e).2.1.reset = e.reset :=
  playOn_reset w e _

theorem runEvent_name (w : RuleSet) (e : Event) : (w.runEvent e).2.1.name = e.name := by
  rw [← Event.reset_name, runEvent_reset, Event.reset_name]

theorem runEvent_events (w : RuleSet) (e : Event) : (w.runEvent e).2.2.events = w.events := by
  obtain ⟨ms, hframe⟩ := playOn_frame w e (e.script.drop e.turnIndex)
  rw [runEvent, hframe]

/-! ## Starting -/

/-- **What starting an event does.** The event is run and put back, finished, in its row; or it is
unknown, another one is being played, or it was finished before, and then nothing happens. -/
theorem perform_startEvent (w : RuleSet) (name : String) :
    w.perform (startEvent name) =
      match w.events.get? name, w.running with
      | none, _ => (.error (.unknownEvent name), w)
      | some _, some other => (.error (.eventAlreadyRunning other), w)
      | some e, none =>
        if e.status = .finished then (.error (.eventFinished name), w)
        else
          let run := { w with running := some e.name }.runEvent { e with status := .running }
          (run.1.map fun _ ↦ run.2.1.log,
            { run.2.2 with
              events := run.2.2.events.put (run.2.1.finish run.1)
              running := none }) := by
  rw [startEvent, perform_get_bind]
  cases hget : w.events.get? name with
  | none => rfl
  | some e =>
    rw [need, perform_bind_of_ok (perform_lift w _)]
    cases w.running with
    | some other => rfl
    | none =>
      dsimp only
      by_cases hfinished : e.status = .finished
      · rw [if_pos hfinished, hfinished]
        rfl
      · have hrequired : require (.eventFinished name) (e.status != .finished) =
            (.ok () : Except RuleError Unit) := by
          rw [require_eq_ok_iff, bne_iff_ne]
          exact hfinished
        rw [if_neg hfinished, hrequired, perform_bind_of_ok (perform_lift w _)]
        have hname := runEvent_name { w with running := some e.name } { e with status := .running }
        have hevents := runEvent_events { w with running := some e.name }
          { e with status := .running }
        generalize runEvent { w with running := some e.name } { e with status := .running } = run
          at hname hevents ⊢
        obtain ⟨result, e', w'⟩ := run
        -- a run keeps the name of its event and all rows of events, so the event still has its row
        have hreplace : w'.events.replace (e'.finish result) =
            .ok (w'.events.put (e'.finish result)) := by
          have hmem : e.name ∈ w.events.names := List.mem_map_of_mem (Table.get?_eq_some hget).1
          refine Table.replace_eq_ok_iff.mpr ⟨?_, rfl⟩
          change e'.name ∈ w'.events.names
          rw [show e'.name = e.name from hname, show w'.events = w.events from hevents]
          exact hmem
        change w'.perform (do
          set { w' with running := none }
          let events ← liftM (w'.events.replace (e'.finish result))
          set { w' with events, running := none }
          liftM result
          return e'.log) = _
        rw [perform_set_bind, hreplace, perform_bind_of_ok (perform_lift _ _), perform_set_bind]
        cases result <;> rfl

theorem perform_resetEvent_eq_ok_iff {w' : RuleSet} {name : String} {u : Unit} :
    w.perform (resetEvent name) = (.ok u, w') ↔
      name ∈ w.events.names ∧ w' = { w with events := w.events.adjust name Event.reset } := by
  rw [resetEvent, perform_get_bind, perform_check_bind_eq_ok_iff, require_eq_ok_iff,
    Table.contains_iff, perform_set, Prod.mk.injEq, eq_comm (a := w')]
  exact and_congr_right fun _ ↦ and_iff_right rfl

end RuleSet

end Tabletop
