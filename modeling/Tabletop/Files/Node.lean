import Tabletop.Files.Log

/-!
# Files

What a file holds, as far as it matters here, and how a file is told from others. Every file can be
taken for a log or for the pages of a ledger, whatever it holds.
-/

namespace Tabletop

/-- What stands at a place. -/
inductive Node where
  /-- A folder. -/
  | folder
  /-- A text. -/
  | text (s : String)
  /-- A ledger, of which some pages may be damaged. -/
  | ledger (pages : Ledger.Pages)
  /-- A log of a ledger. -/
  | log (l : Log)
  /-- The register of a log: which page each of its frames has. -/
  | register (parts : List Ledger.Part)
deriving DecidableEq, Repr

namespace Node

/-- How many bytes a page of a ledger has. -/
def pageBytes : Nat := 4096

/-- How many bytes a file has. A ledger has its four pages, and a register has room for more frames
than there are. -/
def bytes : Node → Nat
  | folder => 0
  | text s => s.utf8ByteSize
  | ledger _ => 4 * pageBytes
  | log l => l.bytes
  | register _ => 8 * pageBytes

/-- Whether a file has content. -/
def isFilled (n : Node) : Bool := n.bytes != 0

/-- Whether a file has so little content that a ledger can be made of it. -/
def isBlank (n : Node) : Bool := n != folder && n.bytes ≤ 1

/-- Whether a file is long enough for all pages of a ledger, the last of which may be cut off. -/
def isWhole (n : Node) : Bool := 3 * pageBytes < n.bytes

/-- A file taken for a log. -/
def toLog : Node → Log
  | log l => l
  | n => .ofBytes n.bytes

/-- The bytes of a text where the head of a log has its mark, which tells it from other logs. A log
that is not known to have been begun has a mark of zeros. -/
def logMark (s : String) : List UInt8 := (s.toUTF8.toList.drop 16).take 8

/-- Whether a file has the head of a log, but of one that is not known. -/
def isForeignLog : Node → Bool
  | text s => Log.headBytes ≤ s.utf8ByteSize && (logMark s).any (· != 0)
  | ledger _ => true
  | _ => false

/-- A file taken for the pages of a ledger. -/
def toPages : Node → Ledger.Pages
  | ledger ps => ps
  | _ => {}

end Node

/-- The names that lead from the root to a file. -/
abbrev Place := List String

/-- What tells a file from others that stand or stood at its place. -/
structure FileKey where
  /-- Its place. -/
  place : Place
  /-- How many files had been removed from there before it came. -/
  removedBefore : Nat
deriving DecidableEq, Repr

end Tabletop
