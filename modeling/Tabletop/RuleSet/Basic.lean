import Tabletop.Action.Basic
import Tabletop.Event
import Tabletop.Table

/-!
# Rule sets

A rule set owns four tables: attribute definitions, actions, entities and events. Rows refer to
each other by name only, and a name that a row mentions may be gone by the time it is used.

Operations on a rule set are values of `Edit`: they yield an answer or an error, and in either case
the rule set that is left behind.
-/

namespace Tabletop

instance : Named AttributeDef := ⟨AttributeDef.name⟩
instance : Named Action := ⟨Action.name⟩
instance : Named Entity := ⟨Entity.name⟩
instance : Named Event := ⟨Event.name⟩

/-- A rule set. -/
structure RuleSet where
  /-- The name. -/
  name : String
  /-- What entities can hold. -/
  attributes : Table AttributeDef
  /-- What entities can do. -/
  actions : Table Action
  /-- Who takes part. -/
  entities : Table Entity
  /-- What is scripted. -/
  events : Table Event
  /-- The event being played, if one is. -/
  running : Option String
deriving DecidableEq, Repr

/-- A rule set without rows. -/
def RuleSet.empty (name : String) : RuleSet :=
  ⟨name, .empty .attr, .empty .action, .empty .entity, .empty .event, none⟩

/-- An operation on a rule set. -/
abbrev Edit := ExceptT RuleError (StateM RuleSet)

/-- Performs an operation: its answer, and the rule set it leaves behind. -/
def RuleSet.perform (w : RuleSet) (edit : Edit α) : Except RuleError α × RuleSet :=
  (edit.run.run w).run

end Tabletop
