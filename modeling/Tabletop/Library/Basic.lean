import Tabletop.Library.Folder
import Tabletop.Library.Ledger

/-!
# Libraries

A library stores whole rule sets under their names, in a folder or in a ledger. Both kinds behave
alike: the same names are usable, and the same texts are stored.
-/

namespace Tabletop

/-- Where a library is kept. -/
inductive LibraryAddress where
  /-- In a folder of documents. -/
  | folder (root : String)
  /-- In a ledger, with its title in listings and messages. -/
  | ledger (title : String) (address : LedgerAddress)
deriving DecidableEq, Repr

/-- A library that is ready for use. -/
inductive Library where
  /-- A folder of documents. -/
  | folder (root : String)
  /-- A ledger that is open, and its title in listings. -/
  | ledger (title : String) (ledger : OpenLedger)
deriving DecidableEq, Repr

namespace Library

/-- Makes a library ready for use, from nothing if it is not there. -/
def attach : LibraryAddress → Filing Library
  | .folder root => do
    FolderLibrary.prepare root
    return folder root
  | .ledger title address => return ledger title (← LedgerLibrary.attach title address)

/-- Closes a library. -/
def detach : Library → Filing Unit
  | folder _ => return
  | ledger _ o => o.detach

/-- The stored rule sets. -/
def list : Library → Filing (List Entry)
  | folder root => FolderLibrary.list root
  | ledger title o => LedgerLibrary.list o title

/-- Loads a rule set. -/
def load (l : Library) (name : String) : Filing RuleSet :=
  match l with
  | folder root => FolderLibrary.load root name
  | ledger title o => LedgerLibrary.load o title name

/-- Saves a rule set under its name. -/
def save (l : Library) (w : RuleSet) : Filing Unit :=
  match l with
  | folder root => FolderLibrary.save root w
  | ledger _ o => LedgerLibrary.save o w

/-- Deletes a rule set. -/
def delete (l : Library) (name : String) : Filing Unit :=
  match l with
  | folder root => FolderLibrary.delete root name
  | ledger _ o => LedgerLibrary.delete o name

/-- Stores the rule set that a file describes, and answers it. -/
def importFrom (l : Library) (path : String) : Filing RuleSet := do
  let w ← Filing.loadFrom path
  l.save w
  return w

end Library

end Tabletop
