import Tabletop.Library.LedgerChange

/-!
# Ledger libraries

All rule sets in one ledger, each as a text under its name. A blank file becomes a new ledger; a
file that holds anything else cannot be opened as one, and neither can a ledger of another version.
-/

namespace Tabletop

namespace LedgerLibrary

/-- Makes a library ready for use. -/
def prepare (o : OpenLedger) : Filing Unit := do
  if ← o.start then
    let version ← o.version
    require (LibraryError.version version Ledger.currentVersion) (version == Ledger.currentVersion)
  else
    o.ensureWritable
    o.write Ledger.empty

/-- Opens a library. If it cannot be used, it is closed again. -/
def attach (title : String) (address : LedgerAddress) : Filing OpenLedger := do
  let o ← OpenLedger.attach title address
  tryCatch (prepare o) fun e ↦ do
    o.detach
    throw e
  return o

/-- The names in order, each located in the ledger of the given title. -/
def list (o : OpenLedger) (title : String) : Filing (List Entry) := do
  o.startReady
  let index ← o.index
  return index.map fun (name, _) ↦ ⟨name, title ++ "#" ++ name⟩

/-- Loads a rule set. Its own name may be another one than it is stored under. -/
def load (o : OpenLedger) (title name : String) : Filing RuleSet := do
  ensureUsableName name
  o.startReady
  let index ← o.index
  let number ← need (LibraryError.notFound name) (index.lookup name)
  let row ← o.row number
  let w ← ruleSetOfText title row.text
  return w

/-- Saves a rule set under its name. -/
def save (o : OpenLedger) (w : RuleSet) : Filing Unit := do
  ensureUsableName w.name
  o.startChange
  let rows ← o.rows
  let index ← o.index
  match index.lookup w.name with
  | none => o.write (Ledger.added rows index w.name w.text true)
  | some number => o.write (Ledger.revised rows (← o.row number) w.text)

/-- Deletes a rule set. -/
def delete (o : OpenLedger) (name : String) : Filing Unit := do
  ensureUsableName name
  o.startChange
  let index ← o.index
  let number ← need (LibraryError.notFound name) (index.lookup name)
  let row ← o.row number
  o.write (Ledger.removed (← o.rows) index row)

/-! ## Changes by others -/

/-- Puts a row into a ledger, in the place of any other one of its name. -/
def putRow (o : OpenLedger) (name text : String) : Filing Unit := do
  o.startChange
  let rows ← o.rows
  let index ← o.index
  match index.lookup name with
  | none => o.write (Ledger.added rows index name text false)
  | some number => o.write (Ledger.replaced rows index (← o.row number) text)

/-- Gives a ledger another version. -/
def setVersion (o : OpenLedger) (version : Int) : Filing Unit := do
  o.startChange
  let current ← o.version
  o.write (if current = version then [] else [.version version])

end LedgerLibrary

end Tabletop
