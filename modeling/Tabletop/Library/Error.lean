import Tabletop.Files.LedgerAddress
import Tabletop.Files.Tree
import Tabletop.Json.Decode
import Tabletop.RuleError
import Tabletop.Text.Quoted

/-!
# What can go wrong with a library

An error says which file, name or document is at fault. Errors of the rules themselves are carried
along where a stored document does not describe a rule set.
-/

namespace Tabletop

/-- Why a ledger could not be used. -/
inductive LedgerFault where
  /-- Its address cannot be used. -/
  | address (error : AddressError)
  /-- The file of a ledger of the given title cannot be opened or made. -/
  | cannotOpen (title : String)
  /-- A file beside the ledger cannot be opened or made. -/
  | cannotOpenBeside
  /-- A file that is needed cannot be read or removed. -/
  | unreadable
  /-- The file is no ledger. -/
  | notLedger
  /-- The file is a ledger that has not been made ready. -/
  | noTable
  /-- The ledger cannot be changed. -/
  | readOnly
  /-- Another user keeps the ledger from being changed. -/
  | locked
  /-- A page of the ledger is damaged. -/
  | damaged
  /-- The log cannot be made sense of, and there is no register of it. -/
  | unshared
deriving DecidableEq, Repr

/-- The text of a fault. -/
def LedgerFault.message : LedgerFault → String
  | address error => error.message
  | cannotOpen title => s!"unable to open database file: {title}"
  | cannotOpenBeside => "unable to open database file"
  | unreadable => "disk I/O error"
  | notLedger => "file is not a database"
  | noTable => "no such table: rule_sets"
  | readOnly => "attempt to write a readonly database"
  | locked => "database is locked"
  | damaged => "database disk image is malformed"
  | unshared => "locking protocol"

/-- The text of a fault of a document. -/
def Fault.message : Fault → String
  | malformed => "not a JSON text"
  | misshapen => "not a rule set"

/-- Why an operation of a library failed. -/
inductive LibraryError where
  /-- A file could not be used. -/
  | file (path : String) (cause : FileError)
  /-- A document could not be read. -/
  | document (path : String) (fault : Fault)
  /-- A ledger could not be used. -/
  | ledger (fault : LedgerFault)
  /-- A document does not describe a rule set. -/
  | rules (error : RuleError)
  /-- A ledger has another layout. -/
  | version (found expected : Int)
  /-- No rule set of the name is stored. -/
  | notFound (name : String)
  /-- Nothing can be stored under the name. -/
  | invalidName (name : String)
deriving DecidableEq, Repr

/-- The text of an error. -/
def LibraryError.message : LibraryError → String
  | file path cause => s!"failed to access {path}: {cause.message}"
  | document path fault => s!"malformed rule set document {path}: {fault.message}"
  | ledger fault => s!"sqlite error: {fault.message}"
  | rules error => s!"invalid rule set: {error.message}"
  | version found expected =>
    s!"library_meta version mismatch (found {found}, expected {expected})"
  | notFound name => s!"no rule set named {name}"
  | invalidName name => s!"{quoted name} is not a usable rule set name"

end Tabletop
