import Tabletop.Rows

/-!
# Ledgers

A ledger keeps texts by name in one file of four pages:

* the head, with a count of the changes of the file;
* the version of the layout;
* the rows, each with a name, a text, and a number by which it is known;
* the index, which leads from names to numbers, ascending by name, code point by code point.

A page of a file can be damaged, and a user of a ledger need not know all of its pages. Both are
`Ledger.Pages`, where any page may be missing. A change writes whole pages anew: `added`, `revised`,
`replaced` and `removed` say which.
-/

namespace Tabletop

namespace Ledger

/-- A text under a name. -/
structure Row where
  /-- The number by which the index knows it. -/
  number : Nat
  /-- The name. -/
  name : String
  /-- The text. -/
  text : String
  /-- Whether the row says when it was written, as rows of a library do. -/
  isDated : Bool
deriving DecidableEq, Repr

/-- Names and the numbers of their rows, ascending by name. -/
abbrev Index := List (String × Nat)

/-- A page other than the head. -/
inductive Page where
  /-- The version of the layout. -/
  | version (v : Int)
  /-- The rows. -/
  | rows (rs : List Row)
  /-- The index. -/
  | index (names : Index)
deriving DecidableEq, Repr

/-- Which page it is. -/
inductive Part where
  /-- The version of the layout. -/
  | version
  /-- The rows. -/
  | rows
  /-- The index. -/
  | index
deriving DecidableEq, Repr

/-- Which page a page is. -/
def Page.part : Page → Part
  | version _ => .version
  | rows _ => .rows
  | index _ => .index

/-- The pages of a ledger, as far as they are there. -/
structure Pages where
  /-- The count of changes. -/
  head : Option Nat := none
  /-- The version of the layout. -/
  version : Option Int := none
  /-- The rows. -/
  rows : Option (List Row) := none
  /-- The index. -/
  index : Option Index := none
deriving DecidableEq, Repr

namespace Pages

/-- One of the pages. -/
def get? (ps : Pages) : Part → Option Page
  | .version => ps.version.map .version
  | .rows => ps.rows.map .rows
  | .index => ps.index.map .index

/-- The pages with one of them written anew. -/
def put (ps : Pages) : Page → Pages
  | .version v => { ps with version := some v }
  | .rows rs => { ps with rows := some rs }
  | .index names => { ps with index := some names }

/-- The pages with one of them replaced, perhaps by damage. -/
def replace (ps : Pages) (part : Part) : Option Page → Pages
  | some page => ps.put page
  | none =>
    match part with
    | .version => { ps with version := none }
    | .rows => { ps with rows := none }
    | .index => { ps with index := none }

/-- The pages with some of them written anew. -/
def putAll (ps : Pages) (pages : List Page) : Pages := pages.foldl put ps

/-- The pages after a change, which is counted. -/
def change (ps : Pages) (pages : List Page) : Pages :=
  { ps.putAll pages with head := some (ps.head.getD 0 + 1) }

end Pages

/-! ## Rows and names -/

/-- The version of the layout that is written here. -/
def currentVersion : Int := 1

/-- The row of a number. -/
def rowOf (number : Nat) (rows : List Row) : Option Row := rows.find? (·.number == number)

/-- A number that no row has. -/
def nextNumber (rows : List Row) : Nat := rows.foldr (fun row n ↦ max (row.number + 1) n) 1

/-- Puts a name in its place in an index, or gives its number anew. -/
def insertName (name : String) (number : Nat) : Index → Index
  | [] => [(name, number)]
  | entry :: entries =>
    if entry.1 = name then (name, number) :: entries
    else if name < entry.1 then (name, number) :: entry :: entries
    else entry :: insertName name number entries

/-! ## Changes -/

/-- All pages of a ledger without rows. -/
def empty : List Page := [.version currentVersion, .rows [], .index []]

/-- Adds a row under a new name. -/
def added (rows : List Row) (names : Index) (name text : String) (isDated : Bool) : List Page :=
  let number := nextNumber rows
  [.rows (rows ++ [⟨number, name, text, isDated⟩]), .index (insertName name number names)]

/-- Gives a row another text. Nothing changes if it has that text already and says when. -/
def revised (rows : List Row) (row : Row) (text : String) : List Page :=
  let revision : Row := { row with text, isDated := true }
  if row = revision then []
  else [.rows (changeFirst (·.number == row.number) (fun _ ↦ revision) rows)]

/-- Removes a row. -/
def removed (rows : List Row) (names : Index) (row : Row) : List Page :=
  [.rows (rows.filter (·.number != row.number)), .index (names.filter (·.1 != row.name))]

/-- Puts a new row in the place of another one of its name. -/
def replaced (rows : List Row) (names : Index) (row : Row) (text : String) : List Page :=
  let number := nextNumber rows
  [.rows (rows.filter (·.number != row.number) ++ [⟨number, row.name, text, false⟩]),
    .index (insertName row.name number names)]

end Ledger

end Tabletop
