/-!
# The vocabulary of rules

The closed sets of words that rules are written in. Each word is one constructor; `word` is how it
is written in documents and messages, and `ofWord?` reads it back. Only the exact word is read, no
other case and no blanks, with one exception: a condition may call its user `self`.
-/

namespace Tabletop

/-! ## Kinds of attribute -/

/-- What an attribute holds. -/
inductive Kind where
  /-- A number. -/
  | number
  /-- A text. -/
  | text
  /-- A truth value. -/
  | boolean
  /-- A number that is read as a share. -/
  | percent
deriving DecidableEq, Repr

namespace Kind

/-- The written form of a kind. -/
def word : Kind → String
  | number => "num"
  | text => "alpha"
  | boolean => "bool"
  | percent => "percent"

/-- Reads a kind. -/
def ofWord? : String → Option Kind
  | "num" => some number
  | "alpha" => some text
  | "bool" => some boolean
  | "percent" => some percent
  | _ => none

/-- Whether attributes of the kind hold numbers. -/
def isNumeric : Kind → Bool
  | number | percent => true
  | text | boolean => false

end Kind

/-! ## Effects -/

/-- Whom an effect touches. -/
inductive Scope where
  /-- The user of the action. -/
  | user
  /-- The first target. -/
  | single
  /-- Every target. -/
  | every
deriving DecidableEq, Repr

namespace Scope

/-- The written form of a scope. -/
def word : Scope → String
  | user => "self"
  | single => "st"
  | every => "mt"

/-- Reads a scope. -/
def ofWord? : String → Option Scope
  | "self" => some user
  | "st" => some single
  | "mt" => some every
  | _ => none

end Scope

/-- How an effect changes a value. -/
inductive Modifier where
  /-- The amount is added. -/
  | add
  /-- The value is multiplied by the amount. -/
  | multiply
  /-- The amount takes the place of the value. -/
  | assign
deriving DecidableEq, Repr

namespace Modifier

/-- The written form of a modifier. -/
def word : Modifier → String
  | add => "+"
  | multiply => "*"
  | assign => "="

/-- Reads a modifier. -/
def ofWord? : String → Option Modifier
  | "+" => some add
  | "*" => some multiply
  | "=" => some assign
  | _ => none

end Modifier

/-! ## Amounts drawn from an attribute -/

/-- Whose attribute an amount or a condition reads. -/
inductive Owner where
  /-- The user of the action. -/
  | user
  /-- The target of the effect. -/
  | target
deriving DecidableEq, Repr

namespace Owner

/-- The written form of an owner. -/
def word : Owner → String
  | user => "user"
  | target => "target"

/-- Reads the owner of an amount. -/
def ofWord? : String → Option Owner
  | "user" => some user
  | "target" => some target
  | _ => none

/-- Reads the owner of a condition, where the user may also be called `self`. -/
def ofConditionWord? : String → Option Owner
  | "self" => some user
  | s => ofWord? s

end Owner

/-- How an amount joins the attribute it is drawn from with its operand. -/
inductive Combine where
  /-- By addition. -/
  | add
  /-- By multiplication. -/
  | multiply
deriving DecidableEq, Repr

namespace Combine

/-- The written form of a way to combine. -/
def word : Combine → String
  | add => "+"
  | multiply => "*"

/-- Reads a way to combine. -/
def ofWord? : String → Option Combine
  | "+" => some add
  | "*" => some multiply
  | _ => none

end Combine

/-- Whether a flat change raises or lowers an amount. -/
inductive Sign where
  /-- It raises the amount. -/
  | plus
  /-- It lowers the amount. -/
  | minus
deriving DecidableEq, Repr

namespace Sign

/-- The written form of a sign. -/
def word : Sign → String
  | plus => "+"
  | minus => "-"

/-- Reads a sign. -/
def ofWord? : String → Option Sign
  | "+" => some plus
  | "-" => some minus
  | _ => none

end Sign

/-! ## Comparisons -/

/-- How a live value is compared with a declared one. -/
inductive Comparator where
  /-- Equal. -/
  | eq
  /-- Not equal. -/
  | ne
  /-- Greater. -/
  | gt
  /-- Greater or equal. -/
  | ge
  /-- Less. -/
  | lt
  /-- Less or equal. -/
  | le
deriving DecidableEq, Repr

namespace Comparator

/-- The written form of a comparator. -/
def word : Comparator → String
  | eq => "="
  | ne => "!="
  | gt => ">"
  | ge => ">="
  | lt => "<"
  | le => "<="

/-- Reads a comparator. -/
def ofWord? : String → Option Comparator
  | "=" => some eq
  | "!=" => some ne
  | ">" => some gt
  | ">=" => some ge
  | "<" => some lt
  | "<=" => some le
  | _ => none

/-- Whether the comparator asks for an order. The others ask for equality only. -/
def isOrdering : Comparator → Bool
  | eq | ne => false
  | gt | ge | lt | le => true

end Comparator

/-! ## Tables -/

/-- What the rows of a table are. -/
inductive RowKind where
  /-- Attribute definitions. -/
  | attr
  /-- Actions. -/
  | action
  /-- Entities. -/
  | entity
  /-- Events. -/
  | event
deriving DecidableEq, Repr

namespace RowKind

/-- The written form of a kind of row. -/
def word : RowKind → String
  | attr => "attribute"
  | action => "action"
  | entity => "entity"
  | event => "event"

/-- Reads a kind of row. -/
def ofWord? : String → Option RowKind
  | "attribute" => some attr
  | "action" => some action
  | "entity" => some entity
  | "event" => some event
  | _ => none

end RowKind

end Tabletop
