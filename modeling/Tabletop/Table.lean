import Tabletop.RuleError
import Tabletop.Rows

/-!
# Tables

Rows with unique names, in the order they were put in. A row that is replaced or changed keeps its
place, and removing one keeps the order of the others.
-/

namespace Tabletop

/-- What has a name. -/
class Named (α : Type) where
  /-- The name. -/
  name : α → String

/-- A table of rows that are found by name. -/
structure Table (α : Type) where
  /-- What its rows are, for messages. -/
  kind : RowKind
  /-- The rows, oldest first. -/
  rows : List α
deriving DecidableEq, Repr

namespace Table

variable {α : Type}

/-- A table without rows. -/
def empty (kind : RowKind) : Table α := ⟨kind, []⟩

variable [Named α]

/-- The row of a name. -/
def get? (t : Table α) (name : String) : Option α := t.rows.find? (Named.name · == name)

/-- Whether there is a row of the name. -/
def contains (t : Table α) (name : String) : Bool := (t.get? name).isSome

/-- The row of a name that has to be there. -/
def get (t : Table α) (name : String) : Except RuleError α :=
  need (.notFound t.kind name) (t.get? name)

/-- Makes sure that no row has the name. -/
def ensureVacant (t : Table α) (name : String) : Except RuleError Unit :=
  require (.duplicateName t.kind name) (!t.contains name)

/-- Makes sure that the row of a name may take another one. It may always keep its own. -/
def ensureRenamable (t : Table α) (name : String) (newName? : Option String) :
    Except RuleError Unit :=
  (newName?.filter (· != name)).forM t.ensureVacant

/-- Puts a row at the end. -/
def insert (t : Table α) (row : α) : Except RuleError (Table α) := do
  t.ensureVacant (Named.name row)
  return { t with rows := t.rows ++ [row] }

/-- Changes the row of a name in its place. Without such a row nothing changes. -/
def adjust (t : Table α) (name : String) (f : α → α) : Table α :=
  { t with rows := changeFirst (Named.name · == name) f t.rows }

/-- Puts a row in the place of the one of its name. -/
def replace (t : Table α) (row : α) : Except RuleError (Table α) := do
  discard (t.get (Named.name row))
  return t.adjust (Named.name row) fun _ ↦ row

/-- Takes out the row of a name. -/
def remove (t : Table α) (name : String) : Except RuleError (α × Table α) := do
  let row ← t.get name
  return (row, { t with rows := t.rows.eraseP (Named.name · == name) })

/-- Changes every row. -/
def map (t : Table α) (f : α → α) : Table α := { t with rows := t.rows.map f }

end Table

end Tabletop
