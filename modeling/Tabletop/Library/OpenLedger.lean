import Tabletop.Files.LedgerPlace
import Tabletop.Library.Filing

/-!
# Open ledgers

How a ledger is opened and read. A blank file becomes a ledger by being written; until then it is
not ready, and a file with any other content never is.

## What is known

Pages that were read are known from then on. They are forgotten when the file has another count of
changes than the head that is known, or the log another number of frames. A page that was changed
without either of them showing it is still taken for what it was.

A file that is removed while it is open goes on being used by those who have it open.

## Files beside a ledger

Each use of a ledger first deals with the files beside it, unless a log is in use already. Changes
are done at once here, so a journal never has anything to take back, and a log is only used if a
file with content stands in its place. But files of such names may be there all the same, and are
taken for what their names say:

* beside a blank file both are remains of another ledger, and are removed if they have content;
* beside a ledger, a journal with content is removed, unless it begins with a null character, the
  mark of a journal that is done with;
* a log with content is used from then on, until the ledger is closed.

A folder of such a name makes the ledger unusable, and so does a file of such a name when nothing
stands at the place of the ledger any more.

A log that is used has a register beside it, which all users of the ledger share. Where a folder
stands in its place there is none, and the log can only be read.
-/

namespace Tabletop

namespace FileTree

/-- The pages of a ledger file. -/
def pagesOf (t : FileTree) (k : FileKey) : Ledger.Pages := ((t.file? k).map Node.toPages).getD {}

/-- The log in use. -/
def logOf (t : FileTree) (u : LogUse) : Log := ((t.file? u.log).getD (.text "")).toLog

/-- Whether the log in use has a register. -/
def hasRegister (t : FileTree) (u : LogUse) : Bool :=
  match t.file? u.register with
  | some (.register _) => true
  | _ => false

/-- The pages that the frames of the log in use have. Without a register this is seen from the log
itself. -/
def logged (t : FileTree) (u : LogUse) : List Ledger.Part :=
  match t.file? u.register with
  | some (.register parts) => parts
  | _ => (t.logOf u).parts

end FileTree

/-- A ledger that is open: its number among those that were opened. -/
structure OpenLedger where
  /-- How many were opened before it. -/
  number : Nat
deriving DecidableEq, Repr

namespace OpenLedger

/-- Makes sure of something that a ledger needs. -/
def ensure (fault : LedgerFault) (condition : Bool) : Filing Unit := do
  require (LibraryError.ledger fault) condition

/-- What is remembered of an open ledger. -/
def connection (o : OpenLedger) : Filing Connection := do
  let t ← get
  let c ← need (LibraryError.ledger .unreadable) (t.opened[o.number]?).join
  return c

/-- Changes what is remembered of an open ledger. -/
def remember (o : OpenLedger) (f : Connection → Connection) : Filing Unit :=
  modify fun t ↦ { t with opened := t.opened.modify o.number fun c? ↦ c?.map f }

/-- Changes what is known of the pages of an open ledger. -/
def know (o : OpenLedger) (f : Ledger.Pages → Ledger.Pages) : Filing Unit :=
  o.remember fun c ↦ { c with known := f c.known }

/-! ## Opening -/

/-- Makes a ledger an open one. -/
def connect (c : Connection) : Filing OpenLedger := do
  let t ← get
  set { t with opened := t.opened ++ [some c] }
  return ⟨t.opened.length⟩

/-- Opens a ledger, whose title is what it is called in messages. A file that is not there is made,
if that is wanted, and left blank. -/
def attach (title : String) : LedgerAddress → Filing OpenLedger
  | .memory isWritable => connect ⟨none, isWritable, .ignored, {}, none⟩
  | .file path use => do
    let t ← get
    let p ← need (LibraryError.ledger (.cannotOpen title)) (t.ledgerPlace? path)
    ensure .unreadable (use.modelPath.all t.has)
    match t.node? p with
    | none =>
      ensure (.cannotOpen title) (use.access == .create && t.isFolder p.dropLast)
      set (t.put p (.text ""))
    | some n => ensure (.cannotOpen title) (n != .folder || use.access == .readOnly)
    let isWritable := use.access != .readOnly && use.sideFiles != .ignored
    connect ⟨some (t.keyAt p), isWritable, use.sideFiles, {}, none⟩

/-! ## Files beside a ledger -/

/-- The log that another user of the same file has in use. -/
def otherLog? (o : OpenLedger) (k : FileKey) (t : FileTree) : Option LogUse :=
  (t.opened.set o.number none).findSome? fun c? ↦
    c?.bind fun c ↦ if c.home = some k then c.log else none

/-- Whether a file is blank. -/
def isBlank (t : FileTree) (k : FileKey) : Bool := (t.file? k).any Node.isBlank

/-- Whether a journal is done with, so that it can stay. -/
def isSpent (t : FileTree) (journal : Place) : Bool :=
  match t.node? journal with
  | some (.text s) => s.toList.head? == some '\x00'
  | _ => false

/-- Deals with a journal. -/
def settleJournal (o : OpenLedger) (c : Connection) (k : FileKey) : Filing Unit := do
  let t ← get
  let journal := k.place.journal
  if t.isTaken journal then
    if isBlank t k then set (t.unlink journal)
    else
      ensure .unreadable ((t.node? k.place).isSome && !t.isFolder journal)
      unless isSpent t journal do
        ensure .readOnly c.isWritable
        ensure .locked (o.otherLog? k t).isNone
        set (t.unlink journal)

/-- Starts to use the log. Its register is the one that other users of the ledger have, or is made
anew from the log. -/
def useLog (o : OpenLedger) (k : FileKey) : Filing Unit := do
  let t ← get
  let log := t.keyAt k.place.log
  let register := (o.otherLog? k t).map (·.register)
  let use : LogUse := ⟨log, register.getD (t.keyAt k.place.register), none⟩
  if register.isNone && !t.isFolder k.place.register then
    set (t.put k.place.register (.register (t.logOf use).parts))
  o.remember fun c ↦ { c with log := some use }

/-- Deals with a log. -/
def settleLog (o : OpenLedger) (c : Connection) (k : FileKey) : Filing Unit := do
  let t ← get
  let log := k.place.log
  if t.isTaken log then
    if isBlank t k then
      ensure .unreadable (!t.isFolder log)
      set (t.unlink log)
    else
      ensure .unreadable (t.node? k.place).isSome
      ensure .cannotOpenBeside (!t.isFolder log && c.sideFiles == .all)
      o.useLog k

/-! ## Reading -/

/-- Forgets what is known if the file has changed. -/
def refresh (o : OpenLedger) (k : FileKey) : Filing Unit := do
  let t ← get
  o.know fun known ↦ if known.head = (t.pagesOf k).head then known else {}

/-- Forgets what is known if the log has changed. -/
def refreshFromLog (o : OpenLedger) (u : LogUse) : Filing Unit := do
  let t ← get
  ensure .unshared (t.hasRegister u || !(t.file? u.log).any Node.isForeignLog)
  let seen := some (t.logged u).length
  if u.seen != seen then
    o.remember fun c ↦ { c with known := {}, log := some { u with seen } }

/-- Makes the head known: whether the ledger is ready for use. -/
def readHead (o : OpenLedger) (k : FileKey) : Filing Bool := do
  let t ← get
  let c ← o.connection
  let isLogged := c.log.any fun u ↦ !(t.logged u).isEmpty
  match c.known.head, t.file? k with
  | some _, n =>
    ensure .damaged (isLogged || n.any Node.isWhole)
    return true
  | none, some (.ledger pages) =>
    let head ← need (LibraryError.ledger .notLedger) pages.head
    o.know ({ · with head := some head })
    return true
  | none, some .folder => throw (LibraryError.ledger .unreadable)
  | none, n =>
    ensure .notLedger (n.any Node.isBlank && !isLogged)
    return false

/-- Starts a use of a ledger: whether it is ready. -/
def start (o : OpenLedger) : Filing Bool := do
  let c ← o.connection
  match c.home, c.log with
  | none, _ => return c.known.head.isSome
  | some k, none =>
    if c.sideFiles.includeJournal then o.settleJournal c k
    o.refresh k
    unless c.sideFiles == .ignored do o.settleLog c k
    (← o.connection).log.forM o.refreshFromLog
    o.readHead k
  | some k, some u =>
    o.refreshFromLog u
    o.readHead k

/-- Starts a use of a ledger that has to be ready. -/
def startReady (o : OpenLedger) : Filing Unit := do
  let isReady ← o.start
  ensure .noTable isReady

/-- A page as it is stored: the newest one in the log, or that of the ledger. -/
def storedPage (t : FileTree) (c : Connection) (part : Ledger.Part) :
    Except LedgerFault Ledger.Page :=
  let frame? := c.log.bind fun u ↦ (Log.lastFrame? (t.logged u) part).map fun frame ↦ (u, frame)
  match frame? with
  | some (u, frame) => need .unreadable ((t.logOf u).page? frame)
  | none => need .damaged (c.home.bind fun k ↦ (t.pagesOf k).get? part)

/-- Makes a page known. -/
def learn (o : OpenLedger) (part : Ledger.Part) : Filing Unit := do
  let t ← get
  let c ← o.connection
  if (c.known.get? part).isNone then
    let page ← (storedPage t c part).mapError LibraryError.ledger
    o.know (·.put page)

/-- What a page says, which is made known first. -/
def page (o : OpenLedger) (part : Ledger.Part) (get? : Ledger.Pages → Option α) : Filing α := do
  o.learn part
  let c ← o.connection
  let a ← need (LibraryError.ledger .damaged) (get? c.known)
  return a

/-- The version of the layout. -/
def version (o : OpenLedger) : Filing Int := o.page .version (·.version)

/-- The rows. -/
def rows (o : OpenLedger) : Filing (List Ledger.Row) := o.page .rows (·.rows)

/-- The index. -/
def index (o : OpenLedger) : Filing Ledger.Index := o.page .index (·.index)

/-- The row of a number, which the index has. -/
def row (o : OpenLedger) (number : Nat) : Filing Ledger.Row := do
  let rows ← o.rows
  let row ← need (LibraryError.ledger .damaged) (Ledger.rowOf number rows)
  return row

end OpenLedger

end Tabletop
