import Tabletop.Library.OpenLedger

/-!
# Changing open ledgers

How an open ledger is changed and closed.

A change of a ledger without a log goes straight into its file, with a count of one more. A journal
is made for the time of the change, in the place of any file that stands there, and is removed
again; so nothing can be changed if a folder stands there, if there is no room for a journal, or if
the file has been removed. Nor can it if another user has the log of the ledger in use; that counts
even for a change that turns out to change nothing.

A change of a ledger with a log goes to the end of the log, and the file stays as it is. Closing the
ledger writes the log into the file, page by page, and removes it, unless another user still needs
it, it has no register, or the ledger has been removed.
-/

namespace Tabletop

namespace OpenLedger

/-- Makes sure that a ledger may be changed. A log without a register may only be read. -/
def ensureWritable (o : OpenLedger) : Filing Unit := do
  let t ← get
  let c ← o.connection
  ensure .readOnly (c.isWritable && c.log.all t.hasRegister)

/-- Whether a file with something to lose was removed from its place. -/
def isLost (t : FileTree) (k : FileKey) : Bool := t.isRemoved k && !isBlank t k

/-- Makes a journal for a change, and removes it. -/
def passJournal (k : FileKey) : Filing Unit := do
  let t ← get
  let journal := k.place.journal
  ensure .readOnly (!isLost t k)
  ensure .cannotOpenBeside (!t.isFolder journal && t.hasRoom journal)
  set (t.unlink journal)

/-- Starts a change of a ledger that has to be ready. That it has become blank since it was last
used shows only when a journal has been made. -/
def startChange (o : OpenLedger) : Filing Unit := do
  let before ← o.connection
  unless ← o.start do
    let c ← o.connection
    if before.known.head.isSome && c.log.isNone then
      o.ensureWritable
      c.home.forM passJournal
    ensure .noTable false
  o.ensureWritable

/-- Writes pages into the file. -/
def writeFile (o : OpenLedger) (k : FileKey) (pages : List Ledger.Page) : Filing Unit := do
  unless pages.isEmpty do passJournal k
  ensure .locked (o.otherLog? k (← get)).isNone
  unless pages.isEmpty do
    let t ← get
    set (t.putFile k (.ledger ((t.pagesOf k).change pages)))
    o.know (·.change pages)

/-- Writes pages to the end of the log. -/
def writeLog (o : OpenLedger) (u : LogUse) (pages : List Ledger.Page) : Filing Unit := do
  unless pages.isEmpty do
    let t ← get
    let log := (t.logOf u).write (t.logged u).length pages
    let parts := t.logged u ++ pages.map Ledger.Page.part
    set ((t.putFile u.log (.log log)).putFile u.register (.register parts))
    o.remember fun c ↦
      { c with known := c.known.putAll pages, log := some { u with seen := some parts.length } }

/-- Writes pages of a ledger in which a change was started. -/
def write (o : OpenLedger) (pages : List Ledger.Page) : Filing Unit := do
  let c ← o.connection
  match c.home, c.log with
  | none, _ => o.know (·.change pages)
  | some k, none => o.writeFile k pages
  | some _, some u => o.writeLog u pages

/-! ## Closing -/

/-- The parts of a ledger in the order in which they stand in its file. -/
def allParts : List Ledger.Part := [.version, .rows, .index]

/-- The newest frame of each part that a log has, where one that is not there is nothing. -/
def newestFrames (log : Log) (logged : List Ledger.Part) :
    List (Ledger.Part × Option (Option Ledger.Page)) :=
  allParts.filterMap fun part ↦
    (Log.lastFrame? logged part).map fun frame ↦ (part, log.frames[frame]?)

/-- The tree without a log that has been written into its ledger. Others who still have the register
find nothing in it. -/
def dropLog (t : FileTree) (k : FileKey) (u : LogUse) : FileTree :=
  let t := if t.hasRegister u then t.putFile u.register (.register []) else t
  (t.unlink k.place.log).unlink k.place.register

/-- Writes a log into its ledger, up to a frame that is not there. Damage is written too. -/
def mergeLog (t : FileTree) (k : FileKey) (u : LogUse) : FileTree :=
  let frames := newestFrames (t.logOf u) (t.logged u)
  let readable := frames.takeWhile (·.2.isSome)
  let pages := readable.foldl (fun ps frame ↦ ps.replace frame.1 frame.2.join) (t.pagesOf k)
  let t := if readable.isEmpty then t else t.putFile k (.ledger pages)
  if readable.length = frames.length then dropLog t k u else t

/-- Closes a ledger. -/
def detach (o : OpenLedger) : Filing Unit := do
  let c ← o.connection
  modify fun t ↦ { t with opened := t.opened.set o.number none }
  let t ← get
  if let (some k, some u) := (c.home, c.log) then
    if t.hasRegister u && !isLost t k && (o.otherLog? k t).isNone then set (mergeLog t k u)

/-- Uses a ledger and closes it, whatever comes of it. -/
def visit (title : String) (address : LedgerAddress) (use : OpenLedger → Filing α) :
    Filing α := do
  let o ← attach title address
  tryCatch (do
    let a ← use o
    o.detach
    return a) fun e ↦ do
      o.detach
      throw e

end OpenLedger

end Tabletop
