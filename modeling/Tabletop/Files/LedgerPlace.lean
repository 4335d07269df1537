import Tabletop.Files.Tree

/-!
# Places of ledgers

The path of a ledger is tidied before the file is looked for: a dot is dropped, and two dots take
back the name before them, whether or not anything stands there. A file where a name would have to
stand in it is still an error, and so are names and paths that are too long.

Three more names belong to a ledger: `name-journal`, from which a change that was broken off is
taken back, `name-wal`, a log of changes that are not in the ledger yet, and `name-shm`, the
register of the log, which says what its frames hold.
-/

namespace Tabletop

/-- How many bytes the path of a ledger may have, so that there is room for names beside it. -/
def maxLedgerPathBytes : Nat := 504

/-- How many bytes a path may have on the way to a ledger. -/
def maxTidyPathBytes : Nat := 511

namespace Place

/-- The bytes of the path that leads to a place from the root. -/
def bytes (p : Place) : Nat := p.foldr (fun name n ↦ name.utf8ByteSize + 1 + n) 0

/-- The place of the file whose name goes on from that of another one. -/
def beside (p : Place) (ending : String) : Place := p.dropLast ++ [p.getLast?.getD "" ++ ending]

/-- The place of the journal of a ledger. -/
def journal (p : Place) : Place := beside p "-journal"

/-- The place of the log of a ledger. -/
def log (p : Place) : Place := beside p "-wal"

/-- The place of the register of a log. -/
def register (p : Place) : Place := beside p "-shm"

end Place

namespace FileTree

/-- Whether something can stand at a place, as far as the files on the way tell. -/
def hasRoom (t : FileTree) (p : Place) : Bool :=
  match t.node? p.dropLast with
  | none => true
  | some .folder => (p.getLast?.getD "").utf8ByteSize ≤ maxNameBytes
  | some _ => false

/-- Follows one component of the path of a ledger. -/
def tidyStep? (t : FileTree) (p : Place) (component : String) : Option Place :=
  if component = "" ∨ component = "." then some p
  else if component = ".." then some p.dropLast
  else
    let p := p ++ [component]
    if Place.bytes p ≤ maxTidyPathBytes && t.hasRoom p then some p else none

/-- The place that the path of a ledger leads to. -/
def ledgerPlace? (t : FileTree) (path : String) : Option Place :=
  if path.toList.contains '\x00' then none
  else
    match (pathComponents path).foldlM t.tidyStep? (t.start path) with
    | some p => if p.isEmpty || maxLedgerPathBytes < Place.bytes p then none else some p
    | none => none

end FileTree

end Tabletop
