import Tabletop.Library.Filing

/-!
# Disks

A file tree refuses an operation only for what stands where. A system has other reasons, which are
not seen in the tree: rights that are missing, a disk that is full or that breaks. So a disk is a
tree together with what befalls the operations on its files (`Mishap`), in the order in which they
are made. Nothing is assumed of that.

Of all operations, only writing does something before it can fail: the file is made, or emptied, and
then filled. If that is broken off, the file stays as it is by then.
-/

namespace Tabletop

/-- What can befall an operation on a file. -/
inductive Mishap where
  /-- The operation is refused. -/
  | refused (cause : FileError)
  /-- The operation is broken off. If a file was being written, it is left with some content. -/
  | brokenOff (cause : FileError) (left : Node) (isFile : left ≠ .folder)
deriving Repr

/-- The error that is reported. -/
def Mishap.cause : Mishap → FileError
  | refused cause | brokenOff cause _ _ => cause

/-- Files, and what befalls the operations on them. -/
structure Disk where
  /-- The files. -/
  files : FileTree
  /-- What befalls the operations to come, first the next one. All those after them go well. -/
  mishaps : List (Option Mishap)
deriving Repr

/-- An operation on a disk. An error does not undo what was written before it. -/
abbrev Attempt := ExceptT LibraryError (StateM Disk)

/-- Attempts an operation: its answer, and the disk it leaves behind. -/
def Disk.attempt (d : Disk) (x : Attempt α) : Except LibraryError α × Disk :=
  (x.run.run d).run

namespace Attempt

/-- What befalls the next operation. -/
def nextMishap? : Attempt (Option Mishap) := do
  let d ← get
  set { d with mishaps := d.mishaps.tail }
  return d.mishaps.head?.join

/-- Performs an operation on the files. -/
def onFiles (x : Filing α) : Attempt α := do
  let d ← get
  let (result, files) := d.files.perform x
  set { d with files }
  result

/-- Performs an operation on a file that does nothing before it can fail. -/
def access (path : String) (x : Filing α) : Attempt α := do
  match ← nextMishap? with
  | none => onFiles x
  | some mishap => throw (LibraryError.file path mishap.cause)

/-- Writes the text of a file. -/
def write (path text : String) : Attempt Unit := do
  match ← nextMishap? with
  | none => onFiles (Filing.write path text)
  | some (.refused cause) => throw (LibraryError.file path cause)
  | some (.brokenOff cause left _) =>
    onFiles (Filing.put path left)
    throw (LibraryError.file path cause)

/-- Whether something stands where a path leads. If that cannot be seen, nothing does. -/
def has (path : String) : Attempt Bool := do
  match ← nextMishap? with
  | none => onFiles (Filing.has path)
  | some _ => return false

instance : FileAccess Attempt where
  read path := access path (Filing.read path)
  write := write
  remove path := access path (Filing.remove path)
  list path := access path (Filing.list path)
  has := has

end Attempt

end Tabletop
