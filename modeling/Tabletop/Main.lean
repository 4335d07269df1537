import Tabletop.Console.Run
import Tabletop.Files.NodeText

/-!
# The console program

The console on the files of this machine. Before each line the files it may use are looked up, and
after it those that have changed are written, so that all decisions are left to the session.
-/

namespace Tabletop

namespace Disk

/-- The path of a place. -/
def path (p : Place) : String := "/" ++ "/".intercalate p

/-- What stands at a place, if it can be used. -/
def node? (p : Place) : IO (Option Node) := do
  let file := (← IO.currentDir) / path p
  if ← file.isDir then return some .folder
  let .ok s ← (IO.FS.readFile file).toBaseIO | return none
  return some (.ofText s)

/-- The tree with what stands at a place. -/
def seePlace (t : FileTree) (p : Place) : IO FileTree := do
  if (t.node? p).isSome then return t
  return ((← node? p).map (t.put p)).getD t

/-- The tree with what stands on the way along a path. -/
def seePath (t : FileTree) (path : String) : IO FileTree := do
  let mut t := t
  let mut p := t.start path
  for component in pathComponents path do
    let .ok next := t.step p component | return t
    p := next
    t ← seePlace t p
  return t

/-- The tree with what stands in the folder that a path leads to. -/
def seeFolder (t : FileTree) (path : String) : IO FileTree := do
  let mut t ← seePath t path
  let .ok p := t.resolve path | return t
  if t.node? p == some .folder then
    for entry in ← ((← IO.currentDir) / Disk.path p).readDir do
      t ← seePlace t (p ++ [entry.fileName])
  return t

/-- The tree with what stands on the way to a ledger and beside it. -/
def seeLedger (t : FileTree) (path : String) : IO FileTree := do
  let mut t := t
  let mut p := t.start path
  for component in pathComponents path do
    let some next := t.tidyStep? p component | return t
    p := next
    t ← seePlace t p
  t ← seePlace t p.journal
  t ← seePlace t p.log
  seePlace t p.register

/-- The tree with the files of a library. -/
def seeLibrary (t : FileTree) : LibraryAddress → IO FileTree
  | .folder root => do
    let t ← seeFolder t (FolderLibrary.gamesPath root)
    seePath t (FolderLibrary.indexPath root)
  | .ledger _ (.memory _) => return t
  | .ledger _ (.file path use) => do
    let t ← seeLedger t path
    match use.modelPath with
    | some model => seePath t model
    | none => return t

/-- The files that a command may use, as they are now. What is not on the disk stays as it was. -/
def view (before : FileTree) (library : LibraryAddress) (command : Command) : IO FileTree := do
  let working := (pathComponents (← IO.currentDir).toString).filter (· != "")
  let t := { FileTree.ofWorking working with removed := before.removed, opened := before.opened }
  let t ← seeLibrary t library
  match command with
  | .importFrom path => seePath t path
  | _ => return t

/-- Writes one file. -/
def write (p : Place) : Node → IO Unit
  | .folder => IO.FS.createDirAll (path p)
  | n => IO.FS.writeFile (path p) n.toText

/-- Writes what is new or has changed, and removes what is gone. -/
def commit (before after : FileTree) : IO Unit := do
  for (p, n) in after.nodes do
    if before.node? p != some n then write p n
  for (p, _) in before.nodes do
    if (after.node? p).isNone then IO.FS.removeFile (path p)

end Disk

/-- Reads lines and answers them until one asks to leave or there are no more. -/
def converse (library : LibraryAddress) (s : Session) : IO Unit := do
  let stdin ← IO.getStdin
  let stdout ← IO.getStdout
  let mut s := s
  repeat
    stdout.putStr s.prompt
    stdout.flush
    let .ok line ← stdin.getLine.toBaseIO | break
    if line.isEmpty then break
    let files ← Disk.view s.files library (Command.ofLine line)
    let some (answer, next) := { s with files }.step line | break
    stdout.putStr answer.text
    Disk.commit files next.files
    s := next
  let files ← Disk.view s.files library .quit
  Disk.commit files { s with files }.close

/-- Runs the console with arguments, and answers its exit code. -/
def serve (args : List String) : IO UInt32 := do
  match Options.ofArgs args with
  | .error e =>
    IO.eprintln e.usage
    return 2
  | .ok o =>
    -- An address that cannot be used is reported at the start of the session.
    let address := (Session.addressOf o).toOption.getD (.ledger "" (.memory true))
    let files ← Disk.view (.ofWorking []) address .nothing
    match Session.start o files with
    | .error (message, after) =>
      Disk.commit files after
      IO.eprintln message
      return 1
    | .ok (text, s) =>
      Disk.commit files s.files
      IO.print text
      converse address s
      return 0

end Tabletop

/-- The program. -/
def main (args : List String) : IO UInt32 := Tabletop.serve args
