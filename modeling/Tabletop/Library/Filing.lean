import Tabletop.Document.Build
import Tabletop.Document.Json
import Tabletop.Document.OfRuleSet
import Tabletop.Library.Error
import Tabletop.Text.Blank

/-!
# Filing rule sets

The parts that both kinds of library share: operations on files that may fail part of the way, the
names that can be used, and reading a rule set from a text.

What only reads, writes and removes files is written for any files that can be accessed
(`FileAccess`), of which file trees are one kind.
-/

namespace Tabletop

/-- An operation on files. An error does not undo what was written before it. -/
abbrev Filing := ExceptT LibraryError (StateM FileTree)

/-- Performs an operation: its answer, and the files it leaves behind. -/
def FileTree.perform (t : FileTree) (filing : Filing α) : Except LibraryError α × FileTree :=
  (filing.run.run t).run

/-- One stored rule set in a listing. -/
structure Entry where
  /-- Its name. -/
  name : String
  /-- Where it is stored. -/
  location : String
deriving DecidableEq, Repr

/-- Names double as file names: they are not blank at either end, are no step in a path, and have
no separator of paths in them. -/
def isUsableName (name : String) : Bool :=
  trim name == name && !name.isEmpty && name != "." && name != ".." &&
    !name.toList.any fun c ↦ c == '/' || c == '\\'

/-- Makes sure that a rule set can be stored under a name. -/
def ensureUsableName (name : String) : Except LibraryError Unit :=
  require (.invalidName name) (isUsableName name)

/-- The rule set that a text describes. The path is where the text comes from, for messages. -/
def ruleSetOfText (path text : String) : Except LibraryError RuleSet := do
  let d ← (Document.ofText text).mapError (LibraryError.document path)
  d.build.mapError .rules

/-- The text that describes a rule set. -/
def RuleSet.text (w : RuleSet) : String := w.document.print

/-- Access to files. How it can fail depends on the files. -/
class FileAccess (m : Type → Type) where
  /-- Reads the text of a file. -/
  read (path : String) : m String
  /-- Writes the text of a file. -/
  write (path text : String) : m Unit
  /-- Removes a file. -/
  remove (path : String) : m Unit
  /-- The names in a folder. -/
  list (path : String) : m (List String)
  /-- Whether something stands where a path leads. -/
  has (path : String) : m Bool

namespace Filing

/-- Reads the text of a file. -/
def read (path : String) : Filing String := do
  let t ← get
  let text ← (t.readText path).mapError (LibraryError.file path)
  return text

/-- Writes a file. -/
def put (path : String) (n : Node) : Filing Unit := do
  let t ← get
  let t ← (t.write path n).mapError (LibraryError.file path)
  set t

/-- Writes the text of a file. -/
def write (path text : String) : Filing Unit := put path (.text text)

/-- Removes a file. -/
def remove (path : String) : Filing Unit := do
  let t ← get
  let t ← (t.remove path).mapError (LibraryError.file path)
  set t

/-- The names in a folder. -/
def list (path : String) : Filing (List String) := do
  let t ← get
  let names ← (t.list path).mapError (LibraryError.file path)
  return names

/-- Whether something stands where a path leads. -/
def has (path : String) : Filing Bool := do
  let t ← get
  return t.has path

instance : FileAccess Filing := ⟨read, write, remove, list, has⟩

/-- Makes the folder that a path leads to, and the folders on the way. -/
def makeFolders (path : String) : Filing Unit := do
  let t ← get
  let (result, t) := t.makeFolders path
  set t
  result.mapError (LibraryError.file path)

variable {m : Type → Type} [Monad m] [MonadLiftT (Except LibraryError) m] [FileAccess m]

/-- Loads a rule set from a file. -/
def loadFrom (path : String) : m RuleSet := do
  let text ← FileAccess.read path
  let w ← ruleSetOfText path text
  return w

/-- Saves a rule set in a file. -/
def saveTo (path : String) (w : RuleSet) : m Unit := FileAccess.write path w.text

end Filing

end Tabletop
