import Tabletop.Value

/-!
# What can go wrong with rules

`RuleError` names every cause that makes a definition or a use of a rule set fail, and `message`
is its text. Mismatches of types are causes of their own: `Mismatch` tells apart those that can
only arise when a rule is defined from those that arise when it is carried out.
-/

namespace Tabletop

/-- Why a modifier could not be applied to a value. -/
inductive Refusal where
  /-- The attribute does not hold values of the amount's shape. -/
  | assign (amount : Shape)
  /-- Arithmetic needs numbers on both sides. -/
  | operands (modifier : Modifier) (left right : Shape)
  /-- The result would not be a finite number. -/
  | range (modifier : Modifier) (left right : Number)
deriving DecidableEq, Repr

/-- The text of a refusal. -/
def Refusal.message : Refusal → String
  | assign amount => s!"cannot assign {amount.word} value"
  | operands m l r => s!"operator {m.word} is not applicable to {l.word} and {r.word}"
  | range m l r => s!"operator {m.word} on {l.display} and {r.display} leaves the number range"

/-- Values and kinds that do not fit together. -/
inductive Mismatch where
  /-- An order was asked for between values that are not both numbers. -/
  | comparison (comparator : Comparator) (left right : Shape)
  /-- An amount is drawn from a value that is no number. -/
  | amountSource (attr entity : String) (found : Shape)
  /-- An amount drawn from an attribute is not finite. -/
  | amountRange (entity attr : String)
  /-- An effect could not change the value it touches. -/
  | effect (refusal : Refusal) (action entity attr : String)
  /-- An effect calculates with an attribute that holds no number. -/
  | operatorOnAttribute (modifier : Modifier) (kind : Kind) (attr : String)
  /-- An effect calculates with an amount that is no number. -/
  | operatorOnValue (modifier : Modifier) (found : Shape)
  /-- An effect assigns what its attribute does not hold. -/
  | assignment (found : Shape) (kind : Kind) (attr : String)
  /-- An amount drawn from an attribute needs numbers on both sides. -/
  | amountKinds (attr source : String)
  /-- A comparison asks for an order on a declared value that is no number. -/
  | ordering (found : Shape)
  /-- A declared number is not finite. -/
  | infinite (x : Number)
  /-- An entity is given a value that its attribute does not hold. -/
  | slot (found : Shape) (attr : String) (kind : Kind)
deriving DecidableEq, Repr

/-- The text of a mismatch. -/
def Mismatch.message : Mismatch → String
  | comparison c l r => s!"comparison {c.word} is not applicable between {l.word} and {r.word}"
  | amountSource a e found => s!"attribute {a} of {e} is {found.word}, expected number"
  | amountRange e a => s!"value based on {e}.{a} is not a finite number"
  | effect r action e a => s!"{r.message} of action {action} on {e}.{a}"
  | operatorOnAttribute m k a =>
    s!"operator {m.word} is not applicable on {k.word} attribute {a}"
  | operatorOnValue m found => s!"operator {m.word} is not applicable on value of type {found.word}"
  | assignment found k a => s!"{found.word} value cannot be assigned to {k.word} attribute {a}"
  | amountKinds a source =>
    s!"attribute-based values need numeric attributes ({a} from {source})"
  | ordering found => s!"ordering comparison is not applicable on value of type {found.word}"
  | infinite x => s!"{x.display} is not a finite number"
  | slot found a k => s!"value of type {found.word} does not match attribute {a} of type {k.word}"

/-- Where an attribute was looked for. -/
inductive Holder where
  /-- Among the definitions of the rule set. -/
  | ruleSet
  /-- Among the values of an entity. -/
  | entity (name : String)
deriving DecidableEq, Repr

/-- The text of a holder. -/
def Holder.display : Holder → String
  | ruleSet => "this rule set"
  | entity name => name

/-- What asked for a target where there is none. -/
inductive Demand where
  /-- An effect or a condition of an action. -/
  | action (name : String)
  /-- An amount drawn from an attribute of the target. -/
  | amount (attr : String)
deriving DecidableEq, Repr

/-- The text of a demand. -/
def Demand.display : Demand → String
  | action name => name
  | amount a => s!"value based on target attribute {a}"

/-- Why a definition or a use failed. -/
inductive RuleError where
  /-- The table already has a row of that name. -/
  | duplicateName (kind : RowKind) (name : String)
  /-- The table has no row of that name to change or remove. -/
  | notFound (kind : RowKind) (name : String)
  /-- An attribute is missing where it is needed. -/
  | unknownAttribute (attr : String) (holder : Holder)
  /-- No such action. -/
  | unknownAction (name : String)
  /-- No such entity. -/
  | unknownEntity (name : String)
  /-- No such event. -/
  | unknownEvent (name : String)
  /-- No such kind of attribute. -/
  | unsupportedKind (word : String)
  /-- No such scope or owner. -/
  | unsupportedScope (word : String)
  /-- No such modifier, way to combine or sign. -/
  | unsupportedModifier (word : String)
  /-- No such comparator. -/
  | unsupportedComparator (word : String)
  /-- Values and kinds do not fit together. -/
  | typeMismatch (cause : Mismatch)
  /-- An action without effects. -/
  | emptyAction (name : String)
  /-- A target is needed and none was given. -/
  | missingTarget (demand : Demand)
  /-- The entity does not have the action. -/
  | actionNotOwned (entity action : String)
  /-- Another event is running. -/
  | eventAlreadyRunning (name : String)
  /-- The script ended before the end condition held. -/
  | scriptExhausted (event : String) (turns : Nat)
  /-- The event has to be reset before it can be started again. -/
  | eventFinished (name : String)
deriving DecidableEq, Repr

/-- The text of an error. -/
def RuleError.message : RuleError → String
  | duplicateName kind name => s!"{kind.word} named {name} already exists"
  | notFound kind name => s!"{kind.word} named {name} does not exist"
  | unknownAttribute a holder => s!"attribute {a} is not defined on {holder.display}"
  | unknownAction name => s!"action {name} does not exist"
  | unknownEntity name => s!"entity {name} does not exist"
  | unknownEvent name => s!"event {name} does not exist"
  | unsupportedKind word => s!"value type {word} is not supported"
  | unsupportedScope word => s!"effect type {word} is not supported"
  | unsupportedModifier word => s!"modifier {word} is not supported"
  | unsupportedComparator word => s!"comparison {word} is not supported"
  | typeMismatch cause => s!"type mismatch: {cause.message}"
  | emptyAction name => s!"action {name} has no effects"
  | missingTarget demand => s!"action {demand.display} requires a target but none was given"
  | actionNotOwned entity action => s!"action {action} is not part of {entity}'s action list"
  | eventAlreadyRunning name => s!"event {name} is already running"
  | scriptExhausted event turns => s!"event {event} ran out of script after {turns} turns"
  | eventFinished name => s!"event {name} has already finished"

end Tabletop
