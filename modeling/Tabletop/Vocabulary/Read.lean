import Tabletop.RuleError
import Tabletop.Rows

/-!
# Reading words

Each word of the vocabulary is read where rules are given as text, and a word that is not in it is
refused with an error of its own. Owners share their error with scopes; ways to combine and signs
share theirs with modifiers.
-/

namespace Tabletop

/-- Reads a kind. -/
def Kind.read (word : String) : Except RuleError Kind :=
  need (.unsupportedKind word) (ofWord? word)

/-- Reads a scope. -/
def Scope.read (word : String) : Except RuleError Scope :=
  need (.unsupportedScope word) (ofWord? word)

/-- Reads a modifier. -/
def Modifier.read (word : String) : Except RuleError Modifier :=
  need (.unsupportedModifier word) (ofWord? word)

/-- Reads the owner of an amount. -/
def Owner.read (word : String) : Except RuleError Owner :=
  need (.unsupportedScope word) (ofWord? word)

/-- Reads the owner of a condition. -/
def Owner.readCondition (word : String) : Except RuleError Owner :=
  need (.unsupportedScope word) (ofConditionWord? word)

/-- Reads a way to combine. -/
def Combine.read (word : String) : Except RuleError Combine :=
  need (.unsupportedModifier word) (ofWord? word)

/-- Reads a sign. -/
def Sign.read (word : String) : Except RuleError Sign :=
  need (.unsupportedModifier word) (ofWord? word)

/-- Reads a comparator. -/
def Comparator.read (word : String) : Except RuleError Comparator :=
  need (.unsupportedComparator word) (ofWord? word)

end Tabletop
