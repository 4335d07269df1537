import Tabletop.RuleError
import Tabletop.Value

/-!
# Events

An event is a script of turns among entities, played until its end condition holds. It knows
entities by name only, and keeps its own progress: how many turns were played, a log line for each
of them, and the error that stopped it, if one did.
-/

namespace Tabletop

/-- How far an event is. -/
inductive Status where
  /-- Not started. -/
  | idle
  /-- Being played. -/
  | running
  /-- Played, whether to its end or to an error. -/
  | finished
deriving DecidableEq, Repr

/-- The name of a status. -/
def Status.word : Status → String
  | idle => "Idle"
  | running => "Running"
  | finished => "Finished"

/-- One turn of a script. -/
inductive Turn where
  /-- An entity uses an action on targets. -/
  | act (user action : String) (targets : List String)
  /-- An entity says something. -/
  | say (speaker text : String)
deriving DecidableEq, Repr

/-- The log line of a turn that was played, under its number. -/
def Turn.logLine (number : Nat) : Turn → String
  | act user action targets =>
    let on := if targets.isEmpty then "no one" else ", ".intercalate targets
    s!"{number}| {user} used {action} on {on}"
  | say speaker text => s!"{number}| {speaker} said '{text}'"

/-- When an event ends. -/
inductive EndCondition where
  /-- When the number of turns played compares with a count. -/
  | turnCount (comparator : Comparator) (count : UInt32)
  /-- When an attribute of a participant compares with a value. -/
  | participant (name attr : String) (comparator : Comparator) (value : Value)
deriving DecidableEq, Repr

/-- Compares two counts. -/
def Comparator.compareCounts (c : Comparator) (l r : Nat) : Bool :=
  match c with
  | eq => l == r
  | ne => l != r
  | gt => r < l
  | ge => r ≤ l
  | lt => l < r
  | le => l ≤ r

/-- A scripted event and its progress. -/
structure Event where
  /-- The name. -/
  name : String
  /-- The names of the entities that take part. -/
  participants : List String
  /-- The turns in order. -/
  script : List Turn
  /-- When it ends. -/
  ending : EndCondition
  /-- How far it is. -/
  status : Status
  /-- How many turns were played. -/
  turnIndex : Nat
  /-- A line for each turn that was played. -/
  log : List String
  /-- What stopped the last run, if it failed. -/
  failure : Option RuleError
deriving DecidableEq, Repr

namespace Event

/-- An event that has not started. -/
def ofScript (name : String) (participants : List String) (script : List Turn)
    (ending : EndCondition) : Event :=
  ⟨name, participants, script, ending, .idle, 0, [], none⟩

/-- The event without its progress. -/
def reset (e : Event) : Event := ofScript e.name e.participants e.script e.ending

/-- The event after one more turn. -/
def advance (e : Event) (turn : Turn) : Event :=
  { e with turnIndex := e.turnIndex + 1, log := e.log ++ [turn.logLine (e.turnIndex + 1)] }

end Event

end Tabletop
