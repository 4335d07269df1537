import Tabletop.Action.Apply
import Tabletop.RuleSet.Basic

/-!
# Playing by the rules

Using an action, and running an event.

## Events

The end condition is looked at before every turn, the first one included, so an event whose
condition already holds plays no turn. A run ends in one of four ways: the condition holds, the
condition cannot be evaluated, the script is exhausted, or a turn fails. In the last three the
event is finished all the same, with the log so far and the error recorded.
-/

namespace Tabletop

namespace RuleSet

/-! ## Using an action -/

/-- The entity of a name. -/
def knownEntity (w : RuleSet) (name : String) : Except RuleError Entity :=
  need (.unknownEntity name) (w.entities.get? name)

/-- The action of a name. -/
def knownAction (w : RuleSet) (name : String) : Except RuleError Action :=
  need (.unknownAction name) (w.actions.get? name)

/-- Writes one working copy back into its row. -/
def commit (e : Entity) : Edit Unit := do
  let w ← get
  let entities ← w.entities.replace e
  set { w with entities }

/-- Has an entity use one of its actions on targets. Either every effect is carried out, or no
entity changes. -/
def useAction (user action : String) (targets : List String) : Edit Outcome := do
  let w ← get
  let user ← w.knownEntity user
  let action ← w.knownAction action
  user.ensureCanUse action
  let targets ← targets.mapM (w.knownEntity ·)
  let outcome ← action.apply user targets
  outcome.cast.members.forM commit
  return outcome

/-! ## Running an event -/

/-- Whether the end condition of an event holds now. -/
def endConditionMet (w : RuleSet) (e : Event) : Except RuleError Bool :=
  match e.ending with
  | .turnCount comparator count => .ok (comparator.compareCounts e.turnIndex count.toNat)
  | .participant name attr comparator value => do
    let entity ← w.knownEntity name
    let current ← need (.unknownAttribute attr (.entity name)) (entity.value? attr)
    comparator.compare current value

/-- Plays one turn. What is said changes nothing, but there has to be somebody to say it. -/
def playTurn : Turn → Edit Unit
  | .act user action targets => discard (useAction user action targets)
  | .say speaker _ => do discard ((← get).knownEntity speaker)

/-- How a run stops before the next turn: at its end, or because that cannot be told. -/
def stop? (w : RuleSet) (e : Event) : Option (Except RuleError Unit) :=
  match w.endConditionMet e with
  | .error err => some (.error err)
  | .ok true => some (.ok ())
  | .ok false => none

/-- Plays the turns that are left until the end condition holds. The answer is how the run ended,
the event with its progress, and the rule set left behind. -/
def playOn (w : RuleSet) (e : Event) : List Turn → Except RuleError Unit × Event × RuleSet
  | [] => ((w.stop? e).getD (.error (.scriptExhausted e.name e.script.length)), e, w)
  | turn :: rest =>
    match w.stop? e with
    | some result => (result, e, w)
    | none =>
      match w.perform (playTurn turn) with
      | (.error err, w) => (.error err, e, w)
      | (.ok (), w) => playOn w (e.advance turn) rest

/-- Runs an event on from where it is, whatever its status. -/
def runEvent (w : RuleSet) (e : Event) : Except RuleError Unit × Event × RuleSet :=
  playOn w e (e.script.drop e.turnIndex)

/-- Runs an event of the rule set to its end and answers its log. Only one event runs at a time,
and a finished one has to be reset first. -/
def startEvent (name : String) : Edit (List String) := do
  let w ← get
  let event ← need (RuleError.unknownEvent name) (w.events.get? name)
  match w.running with
  | some other => throw (.eventAlreadyRunning other)
  | none =>
    require (RuleError.eventFinished name) (event.status != .finished)
    let (result, event, w) :=
      { w with running := some event.name }.runEvent { event with status := .running }
    let failure := match result with
      | .ok () => event.failure
      | .error err => some err
    let event := { event with status := .finished, failure }
    set { w with running := none }
    let events ← w.events.replace event
    set { w with running := none, events }
    result
    return event.log

/-- Brings an event back to where it has not started. -/
def resetEvent (name : String) : Edit Unit := do
  let w ← get
  require (RuleError.unknownEvent name) (w.events.contains name)
  set { w with events := w.events.adjust name Event.reset }

end RuleSet

end Tabletop
