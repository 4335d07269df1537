import Tabletop.Files.LedgerAddress
import Tabletop.Files.Node

/-!
# Connections

What is remembered of a ledger that is open: which file it is, what may be done with it, and which
of its pages are known already, so that they need not be read again.
-/

namespace Tabletop

/-- How an open ledger uses a log. -/
structure LogUse where
  /-- The log. -/
  log : FileKey
  /-- The register of the log. -/
  register : FileKey
  /-- How many frames what is known of the ledger accounts for. -/
  seen : Option Nat
deriving DecidableEq, Repr

/-- A ledger that is open. -/
structure Connection where
  /-- Its file, unless it is kept in memory. -/
  home : Option FileKey
  /-- Whether it may be changed. -/
  isWritable : Bool
  /-- Which of the files beside it matter. -/
  sideFiles : SideFiles
  /-- The pages that are known. -/
  known : Ledger.Pages
  /-- The log that is used, if any. -/
  log : Option LogUse
deriving DecidableEq, Repr

end Tabletop
