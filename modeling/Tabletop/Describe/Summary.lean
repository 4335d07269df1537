import Tabletop.Describe.Basic
import Tabletop.RuleSet.Basic

/-!
# The summary of a rule set

Every table on a few lines, and at the end the dangling references: names that rows mention and
that no longer resolve. Removing a row does not touch what refers to it, so this is where stale
names come to light.
-/

namespace Tabletop

/-! ## Dangling references -/

/-- A name that a row mentions and that does not resolve. -/
inductive Dangling where
  /-- An action changes an attribute that is not defined. -/
  | changed (action attr : String)
  /-- An entity holds an attribute that is not defined. -/
  | held (entity attr : String)
  /-- An entity lists an action that does not exist. -/
  | listed (entity action : String)
  /-- An event includes an entity that does not exist. -/
  | included (event entity : String)
deriving DecidableEq, Repr

/-- The text of a dangling reference. -/
def Dangling.message : Dangling → String
  | changed action a => s!"action {action} changes missing attribute {a}"
  | held entity a => s!"entity {entity} holds missing attribute {a}"
  | listed entity action => s!"entity {entity} lists missing action {action}"
  | included event entity => s!"event {event} includes missing entity {entity}"

namespace RuleSet

/-- The dangling references of an action. -/
def danglingInAction (w : RuleSet) (a : Action) : List Dangling :=
  (a.effects.filter (!w.attributes.contains ·.attr)).map fun e ↦ .changed a.name e.attr

/-- The dangling references of an entity. -/
def danglingInEntity (w : RuleSet) (e : Entity) : List Dangling :=
  (e.slots.filter (!w.attributes.contains ·.attr)).map (fun s ↦ .held e.name s.attr) ++
    (e.actions.filter (!w.actions.contains ·)).map (.listed e.name)

/-- The dangling references of an event. -/
def danglingInEvent (w : RuleSet) (e : Event) : List Dangling :=
  (e.participants.filter (!w.entities.contains ·)).map (.included e.name)

/-- The dangling references that are looked for, table by table. -/
def dangling (w : RuleSet) : List Dangling :=
  w.actions.rows.flatMap w.danglingInAction ++ w.entities.rows.flatMap w.danglingInEntity ++
    w.events.rows.flatMap w.danglingInEvent

end RuleSet

/-! ## The summary -/

/-- The lines of an action. -/
def Action.summaryLines (a : Action) : List String :=
  s!"  {a.name}" :: a.effects.map fun e ↦ s!"    - {e.describe}"

/-- The line of an entity. -/
def Entity.summaryLine (e : Entity) : String :=
  let values := e.slots.map fun s ↦ s!"{s.attr}={s.value.described}"
  s!"  {e.name}: {commaSeparated values}"

/-- The line of an event. -/
def Event.summaryLine (e : Event) : String :=
  s!"  {e.name} " ++ "[" ++ e.status.word ++ "]" ++
    s!" {e.script.length} turns, ends when {e.ending.describe}"

namespace RuleSet

/-- The lines about dangling references, if there are any. -/
def issueLines (w : RuleSet) : List String :=
  let issues := w.dangling
  if issues.isEmpty then []
  else s!"Issues ({issues.length})" :: issues.map fun d ↦ s!"  ! {d.message}"

/-- The summary of a rule set. -/
def summary (w : RuleSet) : String :=
  unlines
    ([s!"=== Rule Set: {w.name} ===", s!"Attributes ({w.attributes.rows.length})"] ++
      (w.attributes.rows.map fun a ↦ s!"  {a.name}: {a.kind.word}") ++
      [s!"Actions ({w.actions.rows.length})"] ++ w.actions.rows.flatMap Action.summaryLines ++
      [s!"Entities ({w.entities.rows.length})"] ++ w.entities.rows.map Entity.summaryLine ++
      [s!"Events ({w.events.rows.length})"] ++ w.events.rows.map Event.summaryLine ++
      (w.running.toList.map fun name ↦ s!"Running: {name}") ++ w.issueLines)

end RuleSet

end Tabletop
