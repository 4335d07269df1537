import Tabletop.Proofs.RuleSet.ByHand

/-!
# Runs from anywhere

A run goes on from the progress that its event has, and nothing says that this is a progress which
runs lead to: the turn index may stand beyond the end of the script, the log may hold anything, and
another event may be marked as being played. So what is said here is said of all rule sets and all
events.

A run is taken apart into moves. A move looks at the end condition, then at the script, and then
plays one turn (`nextMove`); a run makes moves until one of them is to stop (`runEvent_eq`). Each
turn brings the index nearer to the end of the script, so there is a last move, and what is to be
shown of runs is shown along their moves (`run_induct`).

Stopping leaves the rule set and the event alone. That is plain where the end condition stops a run
or the script ends. A turn that fails is broken off on the way, and there it matters that a use
which fails has written nothing and that the index is moved last. It is why a run that is called
again stops at once, for the reason it stopped before (`runEvent_stable`), and why a script that ran
out can be extended as if it had been longer from the start (`runEvent_extend`).
-/

namespace Tabletop

namespace Event

variable {e : Event} {turn : Turn} {k k' n : Nat} {w w' : RuleSet}

/-! ## Progress -/

/-- The event with `n` more turns of its script behind it, wherever it was, and a numbered line for
each of them. -/
def further (e : Event) (n : Nat) : Event :=
  { e with
    turnIndex := e.turnIndex + n
    log := e.log ++ ((e.script.drop e.turnIndex).take n).mapIdx fun i turn ↦
      turn.logLine (e.turnIndex + i + 1) }

@[simp] theorem further_zero (e : Event) : e.further 0 = e := by simp [further]

/-- One turn, and others after it. -/
theorem further_advance (h : e.script[e.turnIndex]? = some turn) (n : Nat) :
    (e.advance turn).further n = e.further (n + 1) := by
  have hlines : (e.script.drop e.turnIndex).take (n + 1) =
      turn :: (e.script.drop (e.turnIndex + 1)).take n := by
    rw [RuleSet.drop_eq_cons h, List.take_succ_cons]
  simp only [further, advance, hlines, List.mapIdx_cons, List.append_assoc, List.singleton_append,
    Nat.add_assoc, Nat.add_comm 1]

theorem length_log_further (h : n ≤ e.script.length - e.turnIndex) :
    (e.further n).log.length = e.log.length + n := by
  simpa [further] using h

/-! ## Scripts -/

/-- The event with more turns at the end of its script. -/
def extend (e : Event) (turns : List Turn) : Event := { e with script := e.script ++ turns }

/-- Playing by hand goes by the script and the end condition. -/
theorem Plays.congr {e' : Event} (h : e'.Plays k w k' w') (hscript : e'.script = e.script)
    (hending : e'.ending = e.ending) : e.Plays k w k' w' := by
  induction h with
  | refl k w => exact .refl k w
  | turn hcondition hturn hplayed _ ih =>
    refine .turn ?_ (hscript ▸ hturn) hplayed ih
    rw [← hcondition, RuleSet.endConditionMet, RuleSet.endConditionMet, hending]

/-- No more turns are played than are left, and none beyond the end of the script. -/
theorem Plays.sub_le (h : e.Plays k w k' w') : k' - k ≤ e.script.length - k := by
  cases h with
  | refl => omega
  | turn _ hturn _ hplays =>
    have hlt : k < e.script.length := (List.getElem?_eq_some_iff.mp hturn).1
    have hle := hplays.le_length hlt
    omega

end Event

namespace RuleSet

variable {w w' : RuleSet} {e : Event} {turn : Turn} {result : Except RuleError Unit}

/-! ## Moves -/

/-- What a run does next. -/
inductive Move where
  /-- It stops. -/
  | stop (result : Except RuleError Unit)
  /-- It plays a turn, which leaves a rule set behind. -/
  | play (turn : Turn) (w : RuleSet)

/-- The next move of a run. The end condition is looked at first, then whether the script has a turn
at the index, and the turn itself last. -/
def nextMove (w : RuleSet) (e : Event) : Move :=
  match w.stop? e with
  | some result => .stop result
  | none =>
    match e.script[e.turnIndex]? with
    | none => .stop (.error (.scriptExhausted e.name e.script.length))
    | some turn =>
      match w.turnByHand turn with
      | .error err => .stop (.error err)
      | .ok w' => .play turn w'

theorem stop?_eq_none_iff : w.stop? e = none ↔ w.endConditionMet e = .ok false := by
  rw [stop?]
  rcases w.endConditionMet e with err | _ | _ <;> simp

theorem nextMove_eq_play_iff :
    w.nextMove e = .play turn w' ↔
      w.endConditionMet e = .ok false ∧ e.script[e.turnIndex]? = some turn ∧
        w.turnByHand turn = .ok w' := by
  rw [nextMove, ← stop?_eq_none_iff]
  cases w.stop? e with
  | some result => simp
  | none =>
    cases e.script[e.turnIndex]? with
    | none => simp
    | some turn' =>
      dsimp only
      constructor
      · intro hplay
        rcases hplayed : w.turnByHand turn' with err | w₁
        · rw [hplayed] at hplay
          exact absurd hplay (by simp)
        · rw [hplayed] at hplay
          obtain ⟨rfl, rfl⟩ := Move.play.inj hplay
          exact ⟨rfl, rfl, hplayed⟩
      · rintro ⟨-, hturn, hplayed⟩
        obtain rfl := Option.some.inj hturn
        rw [hplayed]

/-- A turn of a run is the turn by hand, and one that fails has changed nothing. -/
theorem perform_playTurn_eq (w : RuleSet) (turn : Turn) :
    w.perform (playTurn turn) = match w.turnByHand turn with
      | .error err => (.error err, w)
      | .ok w' => (.ok (), w') := by
  refine (perform_playTurn_of_running w w.running turn).trans ?_
  cases hplayed : w.turnByHand turn with
  | error err => rfl
  | ok w' => rw [turnByHand_frame hplayed]

/-- **A run is its next move, and then the rest of the run.** -/
theorem runEvent_eq (w : RuleSet) (e : Event) :
    w.runEvent e = match w.nextMove e with
      | .stop result => (result, e, w)
      | .play turn w' => w'.runEvent (e.advance turn) := by
  rw [runEvent, nextMove]
  cases hturn : e.script[e.turnIndex]? with
  | none =>
    rw [List.drop_eq_nil_of_le (List.getElem?_eq_none_iff.mp hturn), playOn]
    cases w.stop? e <;> rfl
  | some turn =>
    rw [drop_eq_cons hturn, playOn]
    cases w.stop? e with
    | some result => rfl
    | none =>
      dsimp only
      rw [perform_playTurn_eq]
      cases w.turnByHand turn <;> rfl

theorem runEvent_of_stop (h : w.nextMove e = .stop result) : w.runEvent e = (result, e, w) := by
  rw [runEvent_eq, h]

theorem runEvent_of_play (h : w.nextMove e = .play turn w') :
    w.runEvent e = w'.runEvent (e.advance turn) := by
  rw [runEvent_eq, h]

/-- **There is a last move.** What holds where a run stops, and holds before a turn if it holds
after it, holds everywhere. -/
theorem run_induct {motive : RuleSet → Event → Prop}
    (stop : ∀ w e result, w.nextMove e = .stop result → motive w e)
    (play : ∀ w e turn w', w.nextMove e = .play turn w' → motive w' (e.advance turn) → motive w e)
    (w : RuleSet) (e : Event) : motive w e := by
  -- the induction is on how many turns are left
  induction hleft : e.script.length - e.turnIndex using Nat.strong_induction_on
    generalizing w e with
  | h left ih =>
    cases hmove : w.nextMove e with
    | stop result => exact stop w e result hmove
    | play turn w' =>
      obtain ⟨-, hturn, -⟩ := nextMove_eq_play_iff.mp hmove
      have hlt : e.turnIndex < e.script.length := (List.getElem?_eq_some_iff.mp hturn).1
      have hless : e.script.length - (e.turnIndex + 1) < left := by omega
      exact play w e turn w' hmove (ih _ hless w' (e.advance turn) rfl)

/-! ## Runs stop and stay -/

/-- A run plays turns by hand until its last move. -/
theorem exists_further (w : RuleSet) (e : Event) :
    ∃ n w' result, e.Plays e.turnIndex w (e.turnIndex + n) w' ∧
      w'.nextMove (e.further n) = .stop result ∧ w.runEvent e = (result, e.further n, w') := by
  induction w, e using run_induct with
  | stop w e result hmove =>
    have hrun := runEvent_of_stop hmove
    exact ⟨0, w, result, .refl _ w, by rwa [Event.further_zero], by rwa [Event.further_zero]⟩
  | play w e turn w₁ hmove ih =>
    obtain ⟨n, w', result, hplays, hstop, hrun⟩ := ih
    obtain ⟨hcondition, hturn, hplayed⟩ := nextMove_eq_play_iff.mp hmove
    rw [Event.further_advance hturn] at hstop hrun
    refine ⟨n + 1, w', result, .turn hcondition hturn hplayed ?_, hstop,
      (runEvent_of_play hmove).trans hrun⟩
    have hindex : (e.advance turn).turnIndex + n = e.turnIndex + (n + 1) := by
      change e.turnIndex + 1 + n = _
      omega
    rw [← hindex]
    exact hplays.congr rfl rfl

/-- **A run stops, and stays where it stopped.** From any rule set and any progress of an event, a
run plays turns of the script by hand, no more than are left of it, and none if the index is beyond
its end. It adds a line for each of them, and comes to a move that is to stop. Called again on what
it left behind, it stops at once, with the same result, the same event and the same rule set. -/
theorem runEvent_stable (w : RuleSet) (e : Event) :
    ∃ n w' result,
      n ≤ e.script.length - e.turnIndex ∧
        e.Plays e.turnIndex w (e.turnIndex + n) w' ∧
        w'.nextMove (e.further n) = .stop result ∧
        w.runEvent e = (result, e.further n, w') ∧
        (e.further n).turnIndex = e.turnIndex + n ∧
        (e.further n).log.length = e.log.length + n ∧
        w'.runEvent (e.further n) = (result, e.further n, w') := by
  obtain ⟨n, w', result, hplays, hstop, hrun⟩ := exists_further w e
  have hle : n ≤ e.script.length - e.turnIndex := by
    have hsub := hplays.sub_le
    omega
  exact ⟨n, w', result, hle, hplays, hstop, hrun, rfl, Event.length_log_further hle,
    runEvent_of_stop hstop⟩

/-! ## Longer scripts -/

/-- With a longer script the next move is the same, unless the shorter one has no turn left. -/
theorem nextMove_extend (w : RuleSet) (e : Event) (turns : List Turn) :
    w.nextMove (e.extend turns) = w.nextMove e ∨
      w.nextMove e = .stop (.error (.scriptExhausted e.name e.script.length)) := by
  have hstop : w.stop? (e.extend turns) = w.stop? e := rfl
  rw [nextMove, nextMove, hstop]
  cases w.stop? e with
  | some result => exact .inl rfl
  | none =>
    cases hturn : e.script[e.turnIndex]? with
    | none => exact .inr rfl
    | some turn =>
      have hlt : e.turnIndex < e.script.length := (List.getElem?_eq_some_iff.mp hturn).1
      have hsame : (e.extend turns).script[(e.extend turns).turnIndex]? = some turn :=
        (List.getElem?_append_left hlt).trans hturn
      rw [hsame]
      exact .inl rfl

/-- **More turns matter only when the script runs out.** A run with a longer script that stops for
another reason stops in the same way, with the same rule set, index and log. Where the shorter
script is exhausted, the run goes on from there as if it had been called again with the longer
one. -/
theorem runEvent_extend (w : RuleSet) (e : Event) (turns : List Turn) :
    w.runEvent (e.extend turns) =
      match w.runEvent e with
      | (.error (.scriptExhausted _ _), e', w') => w'.runEvent (e'.extend turns)
      | (result, e', w') => (result, e'.extend turns, w') := by
  induction w, e using run_induct with
  | stop w e result hmove =>
    rw [runEvent_of_stop hmove]
    obtain hsame | hexhausted := nextMove_extend w e turns
    · have hrun := runEvent_of_stop (hsame.trans hmove)
      split
      · rename_i heq
        obtain ⟨-, rfl, rfl⟩ := heq
        rfl
      · rename_i heq
        obtain ⟨rfl, rfl, rfl⟩ := heq
        exact hrun
    · obtain rfl := Move.stop.inj (hmove.symm.trans hexhausted)
      rfl
  | play w e turn w₁ hmove ih =>
    have hextended : w.nextMove (e.extend turns) = .play turn w₁ := by
      obtain hsame | hexhausted := nextMove_extend w e turns
      · exact hsame.trans hmove
      · exact absurd (hmove.symm.trans hexhausted) (by simp)
    rw [runEvent_of_play hmove]
    exact (runEvent_of_play hextended).trans ih

end RuleSet

end Tabletop
