import Tabletop.Proofs.Number.Order
import Tabletop.Proofs.RuleSet.Progress

/-!
# Waiting for a number of turns

An event that waits for a number of turns goes through the numbers one by one, beginning with none,
and ends at the first that compares with its count as it should. So each comparator has a number at
which it is met first, or it is never met (`Comparator.firstCount?`). If that many turns are there
and can be played, they are all that is played; if not, the script is played to its end and is
exhausted there (`startEvent_of_turnCount`).

No other number matters: a count that has to be exceeded, or not to be equalled, is met again later,
but nobody looks any more. And it does not matter that the numbers may be taken for doubles to
compare them, since a count has thirty-two bits.
-/

namespace Tabletop

/-! ## The first count that is met -/

namespace Comparator

variable {c : Comparator} {v n : Nat}

/-- The least number that stands to a count as the comparator says, if there is one. -/
def firstCount? : Comparator → Nat → Option Nat
  | eq, v => some v
  | ge, v => some v
  | gt, v => some (v + 1)
  | le, _ => some 0
  | ne, v => some (if v = 0 then 1 else 0)
  | lt, v => if v = 0 then none else some 0

/-- At the first number a count is met, and before it never. -/
theorem firstCount?_eq_some (h : c.firstCount? v = some n) :
    c.compareCounts n v = true ∧ ∀ i < n, c.compareCounts i v = false := by
  cases c with
  | eq | ge | gt | le =>
    obtain rfl := Option.some.inj h
    refine ⟨by simp [compareCounts], fun i hi ↦ ?_⟩
    simp only [compareCounts, beq_eq_false_iff_ne, decide_eq_false_iff_not]
    omega
  | ne =>
    obtain rfl := Option.some.inj h
    refine ⟨?_, fun i hi ↦ ?_⟩
    · rw [compareCounts, bne_iff_ne]
      split <;> omega
    · rw [compareCounts, bne_eq_false_iff_eq]
      split at hi <;> omega
  | lt =>
    obtain ⟨hv, heq⟩ := Option.ite_none_left_eq_some.mp h
    obtain rfl := Option.some.inj heq
    exact ⟨decide_eq_true (Nat.pos_of_ne_zero hv), fun i hi ↦ absurd hi (Nat.not_lt_zero i)⟩

theorem firstCount?_eq_none (h : c.firstCount? v = none) (i : Nat) :
    c.compareCounts i v = false := by
  cases c with
  | lt =>
    have hv : v = 0 := by simpa [firstCount?] using h
    simp [compareCounts, hv]
  | _ => exact absurd h (by simp [firstCount?])

/-- Up to a number that the first count lies beyond, a count is never met. -/
theorem compareCounts_of_lt_firstCount {m i : Nat} (h : ∀ n, c.firstCount? v = some n → m < n)
    (hi : i ≤ m) : c.compareCounts i v = false := by
  cases hfirst : c.firstCount? v with
  | none => exact firstCount?_eq_none hfirst i
  | some n => exact (firstCount?_eq_some hfirst).2 i (hi.trans_lt (h n hfirst))

/-- **The first count is the least that is met.** -/
theorem firstCount?_eq_some_iff :
    c.firstCount? v = some n ↔ IsLeast {i | c.compareCounts i v = true} n := by
  have hleast {n : Nat} (h : c.firstCount? v = some n) :
      IsLeast {i | c.compareCounts i v = true} n := by
    obtain ⟨hmet, hbefore⟩ := firstCount?_eq_some h
    refine ⟨hmet, fun i hi ↦ not_lt.mp fun hlt ↦ ?_⟩
    exact absurd hi (Bool.eq_false_iff.mp (hbefore i hlt))
  refine ⟨hleast, fun h ↦ ?_⟩
  cases hfirst : c.firstCount? v with
  | none => exact absurd h.1 (Bool.eq_false_iff.mp (firstCount?_eq_none hfirst n))
  | some m => rw [(hleast hfirst).unique h]

end Comparator

/-! ## Turns that can be played -/

namespace RuleSet

variable {w w' : RuleSet} {e : Event} {comparator : Comparator} {count : UInt32} {k n : Nat}

/-- Turns that can be played one after the other are played, as long as the end condition does not
hold before any of them. -/
theorem plays_of_foldlM
    (hcondition : ∀ i w, k ≤ i → i < k + n →
      endConditionMet w { e with turnIndex := i } = .ok false)
    (hn : k + n ≤ e.script.length)
    (h : ((e.script.drop k).take n).foldlM turnByHand w = .ok w') : e.Plays k w (k + n) w' := by
  induction n generalizing k w with
  | zero =>
    obtain rfl := Except.ok.inj h
    exact .refl k w
  | succ n ih =>
    have hturn : e.script[k]? = some e.script[k] := List.getElem?_eq_getElem (by omega)
    rw [drop_eq_cons hturn, List.take_succ_cons, List.foldlM_cons] at h
    obtain ⟨w₁, hplayed, hrest⟩ := bind_eq_ok_iff.mp h
    refine .turn (hcondition k w le_rfl (by omega)) hturn hplayed ?_
    have hindex : k + (n + 1) = k + 1 + n := by omega
    rw [hindex]
    exact ih (fun i w hk hi ↦ hcondition i w (by omega) (by omega)) (by omega) hrest

/-- **An event that waits for a number of turns plays that many**, whatever led to the rule set.
The number is the least that compares with its count as it should, and comparing it as a double
makes no difference. If the turns up to it can be played by hand, one after the other, a start plays
them, answers a line for each, and leaves everything as they do. If the script is too short, or
there is no such number, a start plays the whole script, if that can be played, and then fails,
because it is exhausted after so many turns. -/
theorem startEvent_of_turnCount (h : w.Reachable) (he : e ∈ w.events.rows)
    (hidle : e.status = .idle) (hending : e.ending = .turnCount comparator count)
    (hplayed : ((comparator.firstCount? count.toNat).elim e.script e.script.take).foldlM turnByHand
      w = .ok w') :
    (∀ n, comparator.firstCount? count.toNat = some n ↔
        IsLeast {i | comparator.compareCounts i count.toNat = true} n) ∧
      (∀ i : Nat, comparator.compare (.number (.ofInt i)) (.number (.ofInt count.toNat)) =
        .ok (comparator.compareCounts i count.toNat)) ∧
      (∀ n, comparator.firstCount? count.toNat = some n → n ≤ e.script.length →
        (Turn.logLines (e.script.take n)).length = n ∧
          w.perform (startEvent e.name) =
            (.ok (Turn.logLines (e.script.take n)),
              { w with
                entities := w'.entities
                events := w.events.put
                  { e with
                    status := .finished
                    turnIndex := n
                    log := Turn.logLines (e.script.take n)
                    failure := none }
                running := none })) ∧
      ((∀ n, comparator.firstCount? count.toNat = some n → e.script.length < n) →
        w.perform (startEvent e.name) =
          (.error (.scriptExhausted e.name e.script.length),
            { w with
              entities := w'.entities
              events := w.events.put
                { e with
                  status := .finished
                  turnIndex := e.script.length
                  log := Turn.logLines e.script
                  failure := some (.scriptExhausted e.name e.script.length) }
              running := none })) := by
  have horderly := h.orderly
  have hget : w.events.get? e.name = some e := Table.get?_of_mem horderly.nodup he
  have hfresh : e.reset = e := (horderly.events e he).reset_eq hidle
  have hcount : count.toNat < 2 ^ 53 := count.toNat_lt.trans (by norm_num)
  -- the end condition looks at the number of turns only
  have hmet (i : Nat) (w : RuleSet) : w.endConditionMet { e with turnIndex := i } =
      .ok (comparator.compareCounts i count.toNat) := by
    rw [endConditionMet, hending]
  refine ⟨fun n ↦ Comparator.firstCount?_eq_some_iff,
    fun i ↦ comparator.compare_ofInt hcount, fun n hn hle ↦ ?_, fun hlong ↦ ?_⟩
  · obtain ⟨hend, hbefore⟩ := Comparator.firstCount?_eq_some hn
    rw [hn, Option.elim_some] at hplayed
    have hplays : e.Plays 0 w (0 + n) w' :=
      plays_of_foldlM (fun i w _ hi ↦ by rw [hmet, hbefore i (by omega)]) (by omega) hplayed
    rw [Nat.zero_add] at hplays
    have hstops : e.Stops n w' (.ok ()) := .ended (by rw [hmet, hend])
    refine ⟨by rw [Turn.logLines, List.length_mapIdx, List.length_take_of_le hle], ?_⟩
    rw [perform_startEvent_of_plays horderly.idle hget hfresh hplays hstops, horderly.idle]
    rfl
  · -- no number up to the length of the script is the one that is waited for
    have hnever (i : Nat) (hi : i ≤ e.script.length) :
        comparator.compareCounts i count.toNat = false :=
      Comparator.compareCounts_of_lt_firstCount hlong hi
    have hwhole : (comparator.firstCount? count.toNat).elim e.script e.script.take =
        (e.script.drop 0).take e.script.length := by
      rw [List.drop_zero, List.take_length]
      cases hfirst : comparator.firstCount? count.toNat with
      | none => rfl
      | some n => exact List.take_of_length_le (hlong n hfirst).le
    rw [hwhole] at hplayed
    have hplays : e.Plays 0 w (0 + e.script.length) w' :=
      plays_of_foldlM (fun i w _ hi ↦ by rw [hmet, hnever i (by omega)]) (by omega) hplayed
    rw [Nat.zero_add] at hplays
    have hstops : e.Stops e.script.length w'
        (.error (.scriptExhausted e.name e.script.length)) :=
      .exhausted (by rw [hmet, hnever _ le_rfl]) rfl
    rw [perform_startEvent_of_plays horderly.idle hget hfresh hplays hstops, horderly.idle,
      List.take_length]
    simp only [Event.played, List.take_length]
    rfl

/-- A race that is over after more than one turn. -/
def race : Event :=
  .ofScript "race" ["Ann", "Bob"]
    [.say "Ann" "Catch!", .act "Ann" "pass" ["Bob"], .act "Bob" "pass" ["Ann"]] (.turnCount .gt 1)

/-- Two runners, one of whom may pass the baton to the other. -/
def relay : RuleSet :=
  [.defineAttribute "baton" .boolean,
    .defineAction "pass" [⟨"baton", .user, .assign, .literal (.boolean false), none⟩,
      ⟨"baton", .single, .assign, .literal (.boolean true), none⟩],
    .defineEntity "Ann" [⟨"baton", .boolean, .boolean true⟩] ["pass"],
    .defineEntity "Bob" [⟨"baton", .boolean, .boolean false⟩] [],
    .defineEvent race.name race.participants race.script race.ending].foldl after (.empty "relay")

theorem startEvent_of_turnCount_relay :
    (relay.Reachable ∧ race ∈ relay.events.rows ∧ race.status = .idle ∧
        race.ending = .turnCount .gt 1 ∧
        ((Comparator.gt.firstCount? 1).elim race.script race.script.take).foldlM turnByHand relay =
          .ok (relay.after (.useAction "Ann" "pass" ["Bob"]))) ∧
      Comparator.gt.firstCount? 1 = some 2 ∧
      relay.perform (startEvent "race") =
        (.ok ["1| Ann said 'Catch!'", "2| Ann used pass on Bob"],
          { relay with
            entities := (relay.after (.useAction "Ann" "pass" ["Bob"])).entities
            events := relay.events.put
              { race with
                status := .finished
                turnIndex := 2
                log := ["1| Ann said 'Catch!'", "2| Ann used pass on Bob"]
                failure := none }
            running := none }) := by
  have hreachable : relay.Reachable := .foldl_after (.empty "relay") _
  have hmem : race ∈ relay.events.rows := by decide +kernel
  have hplayed : ((Comparator.gt.firstCount? 1).elim race.script race.script.take).foldlM turnByHand
      relay = .ok (relay.after (.useAction "Ann" "pass" ["Bob"])) := rfl
  refine ⟨⟨hreachable, hmem, rfl, rfl, hplayed⟩, rfl, ?_⟩
  exact ((startEvent_of_turnCount hreachable hmem rfl rfl hplayed).2.2.1 2 rfl (by decide)).2

end RuleSet

end Tabletop
