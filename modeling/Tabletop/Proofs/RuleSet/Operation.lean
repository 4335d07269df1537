import Tabletop.Document.Build
import Tabletop.Proofs.RuleSet.Perform
import Tabletop.RuleSet.Play

/-!
# Operations as data

Every operation on a rule set, together with its arguments, as a value: so that statements can
speak about all operations, and about rule sets that any sequence of them leads to. An operation
that fails is a step of such a sequence too, with the rule set it leaves behind.
-/

namespace Tabletop

/-- An operation on a rule set, with its arguments. -/
inductive Op where
  /-- Gives the rule set another name. -/
  | rename (name : String)
  /-- Defines an attribute. -/
  | defineAttribute (name : String) (kind : Kind)
  /-- Defines an action. -/
  | defineAction (name : String) (effects : List Effect)
  /-- Defines an entity. -/
  | defineEntity (name : String) (slots : List Slot) (actions : List String)
  /-- Defines an event. -/
  | defineEvent (name : String) (participants : List String) (script : List Turn)
      (ending : EndCondition)
  /-- Changes an attribute. -/
  | modifyAttribute (name : String) (newName? : Option String) (newKind? : Option Kind)
  /-- Changes an action. -/
  | modifyAction (name : String) (newName? : Option String) (newEffects? : Option (List Effect))
  /-- Changes an entity. -/
  | modifyEntity (name : String) (newName? : Option String) (newSlots? : Option (List Slot))
      (newActions? : Option (List String))
  /-- Removes an attribute. -/
  | removeAttribute (name : String)
  /-- Removes an action. -/
  | removeAction (name : String)
  /-- Removes an entity. -/
  | removeEntity (name : String)
  /-- Removes an event. -/
  | removeEvent (name : String)
  /-- Has an entity use an action. -/
  | useAction (user action : String) (targets : List String)
  /-- Runs an event. -/
  | startEvent (name : String)
  /-- Brings an event back to where it has not started. -/
  | resetEvent (name : String)
  /-- Replaces the rule set by the one that a document describes. -/
  | load (document : Document)

namespace Op

/-- What an operation answers. -/
def Answer : Op → Type
  | defineAttribute .. | modifyAttribute .. | removeAttribute .. => AttributeDef
  | defineAction .. | modifyAction .. | removeAction .. => Action
  | defineEntity .. | modifyEntity .. | removeEntity .. => Entity
  | defineEvent .. | removeEvent .. => Event
  | useAction .. => Outcome
  | startEvent .. => List String
  | rename .. | resetEvent .. | load .. => Unit

/-- The operation that a value stands for. -/
def edit : (op : Op) → Edit op.Answer
  | rename name => RuleSet.rename name
  | defineAttribute name kind => RuleSet.defineAttribute name kind
  | defineAction name effects => RuleSet.defineAction name effects
  | defineEntity name slots actions => RuleSet.defineEntity name slots actions
  | defineEvent name participants script ending =>
    RuleSet.defineEvent name participants script ending
  | modifyAttribute name newName? newKind? => RuleSet.modifyAttribute name newName? newKind?
  | modifyAction name newName? newEffects? => RuleSet.modifyAction name newName? newEffects?
  | modifyEntity name newName? newSlots? newActions? =>
    RuleSet.modifyEntity name newName? newSlots? newActions?
  | removeAttribute name => RuleSet.removeAttribute name
  | removeAction name => RuleSet.removeAction name
  | removeEntity name => RuleSet.removeEntity name
  | removeEvent name => RuleSet.removeEvent name
  | useAction user action targets => RuleSet.useAction user action targets
  | startEvent name => RuleSet.startEvent name
  | resetEvent name => RuleSet.resetEvent name
  | load document => RuleSet.load document

/-- Whether an operation runs an event. A run that fails on the way is recorded, so this is the one
operation that leaves a trace when it fails. -/
def RunsEvent : Op → Prop
  | startEvent _ => True
  | _ => False

end Op

namespace RuleSet

/-- The rule set that an operation leaves behind, whether it succeeds or fails. -/
def after (w : RuleSet) (op : Op) : RuleSet := (w.perform op.edit).2

/-- The rule sets that operations lead to, from empty ones. -/
inductive Reachable : RuleSet → Prop where
  /-- A new rule set. -/
  | empty (name : String) : Reachable (.empty name)
  /-- One more operation. -/
  | after {w : RuleSet} (op : Op) : Reachable w → Reachable (w.after op)

/-- Operations one after the other lead on. -/
theorem Reachable.foldl_after {w : RuleSet} (h : w.Reachable) (ops : List Op) :
    (ops.foldl RuleSet.after w).Reachable := by
  induction ops generalizing w with
  | nil => exact h
  | cons op ops ih => exact ih (.after op h)

end RuleSet

end Tabletop
