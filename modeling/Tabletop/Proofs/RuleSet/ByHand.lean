import Tabletop.Proofs.RuleSet.Play

/-!
# Scripts played by hand

What a run of an event is meant to be: somebody reads the script, looks at the end condition before
each turn, and plays the turn by using an action or by making sure that the speaker is there. The
turns that are played this way are related by `Event.Plays`, and `Event.Stops` says why there is no
next one. Both speak about the rule set as it is between operations, in which no event is marked as
being played, and neither knows of a log.

A run goes the same way. It works on a copy of the event and on a rule set in which the event is
marked, but turns do not look at the mark (`perform_playTurn_of_running`), so it makes the turns
that are made by hand, one by one (`playOn_of_plays`), and stops where they stop
(`playOn_of_stops`). Every script comes to a stop (`Event.exists_stops`), because a turn leaves fewer
turns to be played.
-/

namespace Tabletop

/-! ## Numbered lines -/

/-- The log lines of turns that were played from the first one on. -/
def Turn.logLines (turns : List Turn) : List String :=
  turns.mapIdx fun i turn ↦ turn.logLine (i + 1)

theorem Turn.logLines_concat (turns : List Turn) (turn : Turn) :
    logLines (turns ++ [turn]) = logLines turns ++ [turn.logLine (turns.length + 1)] :=
  List.mapIdx_concat

/-! ## Turns by hand -/

namespace RuleSet

variable {w w' : RuleSet} {turn : Turn}

/-- The rule set after one turn, or why the turn fails. What is said changes nothing, but the
speaker has to be there. -/
def turnByHand (w : RuleSet) : Turn → Except RuleError RuleSet
  | .act user action targets =>
    match w.perform (useAction user action targets) with
    | (.ok _, w') => .ok w'
    | (.error err, _) => .error err
  | .say speaker _ =>
    if w.entities.contains speaker then .ok w else .error (.unknownEntity speaker)

/-- A turn changes entities at most. -/
theorem turnByHand_frame (h : w.turnByHand turn = .ok w') :
    w' = { w with entities := w'.entities } := by
  cases turn with
  | act user action targets =>
    rw [turnByHand, perform_useAction] at h
    rcases hr : w.rehearse user action targets with err | o
    · rw [hr] at h
      exact absurd h (by simp)
    · rw [hr] at h
      obtain rfl := Except.ok.inj h
      rfl
  | say speaker text =>
    rw [turnByHand] at h
    split at h
    · obtain rfl := Except.ok.inj h
      rfl
    · exact absurd h (by simp)

/-- A use by hand fails as its rehearsal does. -/
theorem turnByHand_act_eq_error_iff {user action : String} {targets : List String}
    {err : RuleError} :
    w.turnByHand (.act user action targets) = .error err ↔
      w.rehearse user action targets = .error err := by
  rw [turnByHand, perform_useAction]
  cases w.rehearse user action targets with
  | error err' => simp
  | ok o => simp

/-- The error that a run ended with, if it failed. -/
def failureOf : Except RuleError Unit → Option RuleError
  | .ok () => none
  | .error err => some err

end RuleSet

namespace Event

/-- From `k` turns that were played, in the rule set `w`, the script is played by hand to `k'` turns
and the rule set `w'`. Before each turn the end condition is known not to hold. -/
inductive Plays (e : Event) : Nat → RuleSet → Nat → RuleSet → Prop where
  /-- No turn is played. -/
  | refl (k : Nat) (w : RuleSet) : Plays e k w k w
  /-- The next turn is played, and then others. -/
  | turn {k k' : Nat} {w w₁ w' : RuleSet} {turn : Turn} :
    w.endConditionMet { e with turnIndex := k } = .ok false → e.script[k]? = some turn →
      w.turnByHand turn = .ok w₁ → Plays e (k + 1) w₁ k' w' → Plays e k w k' w'

/-- After `k` turns, in the rule set `w`, no other turn is played. The end condition is looked at
first, then whether there is a turn, and the turn itself last. -/
inductive Stops (e : Event) (k : Nat) (w : RuleSet) : Except RuleError Unit → Prop where
  /-- It cannot be told whether the end condition holds. -/
  | unclear {err : RuleError} :
    w.endConditionMet { e with turnIndex := k } = .error err → Stops e k w (.error err)
  /-- The end condition holds. -/
  | ended : w.endConditionMet { e with turnIndex := k } = .ok true → Stops e k w (.ok ())
  /-- There is no other turn. -/
  | exhausted :
    w.endConditionMet { e with turnIndex := k } = .ok false → k = e.script.length →
      Stops e k w (.error (.scriptExhausted e.name e.script.length))
  /-- The next turn fails. -/
  | failed {turn : Turn} {err : RuleError} :
    w.endConditionMet { e with turnIndex := k } = .ok false → e.script[k]? = some turn →
      w.turnByHand turn = .error err → Stops e k w (.error err)

variable {e : Event} {k k' : Nat} {w w' : RuleSet}

/-- The end of the script is not passed. -/
theorem Plays.le_length (h : e.Plays k w k' w') (hk : k ≤ e.script.length) :
    k' ≤ e.script.length := by
  induction h with
  | refl k w => exact hk
  | turn _ hturn _ _ ih =>
    apply ih
    exact (List.getElem?_eq_some_iff.mp hturn).1

/-- Playing changes entities at most. -/
theorem Plays.frame (h : e.Plays k w k' w') : w' = { w with entities := w'.entities } := by
  induction h with
  | refl k w => rfl
  | turn _ _ hplayed _ ih =>
    rw [ih, RuleSet.turnByHand_frame hplayed]

/-- **Every script comes to a stop.** -/
theorem exists_stops (e : Event) (hk : k ≤ e.script.length) (w : RuleSet) :
    ∃ k' w' result, e.Plays k w k' w' ∧ e.Stops k' w' result := by
  -- the induction is on how many turns are left
  induction hleft : e.script.length - k generalizing k w with
  | zero =>
    have hend : k = e.script.length := by omega
    rcases hcondition : w.endConditionMet { e with turnIndex := k } with err | _ | _
    · exact ⟨k, w, _, .refl k w, .unclear hcondition⟩
    · exact ⟨k, w, _, .refl k w, .exhausted hcondition hend⟩
    · exact ⟨k, w, _, .refl k w, .ended hcondition⟩
  | succ left ih =>
    have hlt : k < e.script.length := by omega
    have hturn : e.script[k]? = some e.script[k] := List.getElem?_eq_getElem hlt
    rcases hcondition : w.endConditionMet { e with turnIndex := k } with err | _ | _
    · exact ⟨k, w, _, .refl k w, .unclear hcondition⟩
    · rcases hplayed : w.turnByHand e.script[k] with err | w₁
      · exact ⟨k, w, _, .refl k w, .failed hcondition hturn hplayed⟩
      · obtain ⟨k', w', result, hplays, hstops⟩ := ih hlt w₁ (by omega)
        exact ⟨k', w', result, .turn hcondition hturn hplayed hplays, hstops⟩
    · exact ⟨k, w, _, .refl k w, .ended hcondition⟩

end Event

/-! ## Runs go as by hand -/

/-- The copy of an event that a run has brought to `k` turns. -/
def Event.played (e : Event) (status : Status) (k : Nat) : Event :=
  { e with status, turnIndex := k, log := Turn.logLines (e.script.take k) }

/-- One more turn brings one more line. -/
theorem Event.advance_played {e : Event} {status : Status} {k : Nat} {turn : Turn}
    (h : e.script[k]? = some turn) :
    (e.played status k).advance turn = e.played status (k + 1) := by
  obtain ⟨hlt, rfl⟩ := List.getElem?_eq_some_iff.mp h
  have hlog : Turn.logLines (e.script.take (k + 1)) =
      Turn.logLines (e.script.take k) ++ [e.script[k].logLine (k + 1)] := by
    rw [List.take_succ_eq_append_getElem hlt, Turn.logLines_concat,
      List.length_take_of_le (Nat.le_of_lt hlt)]
  rw [advance, played, played, hlog]

namespace RuleSet

variable {w w' : RuleSet} {e : Event} {k k' : Nat} {status : Status} {running : Option String}
  {result : Except RuleError Unit}

/-- A turn of a run is the turn by hand, whatever event is marked as being played. -/
theorem perform_playTurn_of_running (w : RuleSet) (running : Option String) (turn : Turn) :
    { w with running }.perform (playTurn turn) = match w.turnByHand turn with
      | .error err => (.error err, { w with running })
      | .ok w' => (.ok (), { w' with running }) := by
  cases turn with
  | act user action targets =>
    -- the rehearsal of a use reads actions and entities only
    have hrehearse : { w with running }.rehearse user action targets =
        w.rehearse user action targets := rfl
    rw [playTurn, perform_discard, perform_useAction, hrehearse, turnByHand, perform_useAction]
    cases w.rehearse user action targets <;> rfl
  | say speaker text =>
    rw [playTurn, perform_get_bind, perform_discard, perform_lift, turnByHand, Table.contains]
    change ((need _ (w.entities.get? speaker)).map _, _) = _
    cases w.entities.get? speaker <;> rfl

/-- A run stops as the end condition says for the number of turns it has played. -/
theorem stop?_played (w : RuleSet) (running : Option String) (e : Event) (status : Status)
    (k : Nat) :
    { w with running }.stop? (e.played status k) =
      match w.endConditionMet { e with turnIndex := k } with
      | .error err => some (.error err)
      | .ok true => some (.ok ())
      | .ok false => none := rfl

/-- What is left to play begins with the next turn. -/
theorem drop_eq_cons {turn : Turn} (h : e.script[k]? = some turn) :
    e.script.drop k = turn :: e.script.drop (k + 1) := by
  obtain ⟨hlt, rfl⟩ := List.getElem?_eq_some_iff.mp h
  exact List.drop_eq_getElem_cons hlt

/-- **A run makes the turns that are made by hand.** -/
theorem playOn_of_plays (h : e.Plays k w k' w') :
    playOn { w with running } (e.played status k) (e.script.drop k) =
      playOn { w' with running } (e.played status k') (e.script.drop k') := by
  induction h with
  | refl k w => rfl
  | turn hcondition hturn hplayed _ ih =>
    rw [drop_eq_cons hturn, playOn, stop?_played, hcondition,
      perform_playTurn_of_running, hplayed, ← ih, Event.advance_played hturn]

/-- **A run stops where playing by hand stops.** -/
theorem playOn_of_stops (h : e.Stops k w result) :
    playOn { w with running } (e.played status k) (e.script.drop k) =
      (result, e.played status k, { w with running }) := by
  -- a run that is over does not ask whether there are turns left
  have hstopped : ∀ {result} (turns : List Turn),
      { w with running }.stop? (e.played status k) = some result →
        playOn { w with running } (e.played status k) turns =
          (result, e.played status k, { w with running }) := by
    intro result turns hstop
    cases turns with
    | nil => rw [playOn, hstop, Option.getD_some]
    | cons turn turns => rw [playOn, hstop]
  cases h with
  | unclear hcondition => exact hstopped _ (by rw [stop?_played, hcondition])
  | ended hcondition => exact hstopped _ (by rw [stop?_played, hcondition])
  | exhausted hcondition hend =>
    rw [hend, List.drop_length, playOn, ← hend, stop?_played, hcondition,
      Option.getD_none, hend]
    rfl
  | failed hcondition hturn hplayed =>
    rw [drop_eq_cons hturn, playOn, stop?_played, hcondition,
      perform_playTurn_of_running, hplayed]

/-- **Starting an event is playing its script by hand**, for an event that has not started. -/
theorem perform_startEvent_of_plays {name : String} (hidle : w.running = none)
    (hget : w.events.get? name = some e) (hfresh : e.reset = e) (hplays : e.Plays 0 w k w')
    (hstops : e.Stops k w' result) :
    w.perform (startEvent name) =
      (result.map fun _ ↦ Turn.logLines (e.script.take k),
        { w with
          entities := w'.entities
          events := w.events.put { e.played .finished k with failure := failureOf result } }) := by
  have hunplayed : { e with status := .running } = e.played .running 0 := by
    rw [← hfresh]
    rfl
  have hnotFinished : e.status ≠ .finished := by
    rw [← hfresh]
    exact Status.noConfusion
  have hrun : { w with running := some e.name }.runEvent { e with status := .running } =
      (result, e.played .running k, { w' with running := some e.name }) := by
    rw [runEvent, hunplayed]
    exact (playOn_of_plays hplays).trans (playOn_of_stops hstops)
  have hfinish : (e.played .running k).finish result =
      { e.played .finished k with failure := failureOf result } := by
    rw [← hfresh]
    cases result <;> rfl
  rw [perform_startEvent, hget, hidle]
  dsimp only
  rw [if_neg hnotFinished, hrun, hfinish, hplays.frame]
  rfl

end RuleSet

end Tabletop
