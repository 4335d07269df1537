import Tabletop.Files.Connection
import Tabletop.Files.Path

/-!
# File trees

The files that a library works on: folders, texts, ledgers and what belongs to ledgers, each at its
place. A place is the list of names that lead to it from the root folder, which is always there.

Paths are followed one component at a time, from the root or from the working folder, and every
component but the last has to be a folder.

A file that is removed from its place can still be used by those who have it open, and another one
may come to stand there. So a file is known by a key, which tells it from those that stood at its
place before, and the tree remembers what was removed. It also remembers the ledgers that are open,
since whoever has one open goes on with what is already known of it.
-/

namespace Tabletop

/-- Why a file could not be used. -/
inductive FileError where
  /-- There is no such file. -/
  | notFound
  /-- There is a file already. -/
  | alreadyExists
  /-- A file stands where a folder is needed. -/
  | notFolder
  /-- A folder stands where a file is needed. -/
  | isFolder
  /-- A name has more than `maxNameBytes` bytes, or a path more than `maxPathBytes`. -/
  | nameTooLong
  /-- A name has a null character. -/
  | illegalName
  /-- The file does not hold text. -/
  | notText
  /-- The system refuses for another reason, such as missing rights or a full disk. -/
  | system (code : Nat) (reason : String)
deriving DecidableEq, Repr

/-- The text of an error. -/
def FileError.message : FileError → String
  | notFound => "No such file or directory (os error 2)"
  | alreadyExists => "File exists (os error 17)"
  | notFolder => "Not a directory (os error 20)"
  | isFolder => "Is a directory (os error 21)"
  | nameTooLong => "File name too long (os error 36)"
  | illegalName => "file name contained an unexpected NUL byte"
  | notText => "stream did not contain valid UTF-8"
  | system code reason => s!"{reason} (os error {code})"

/-- Files at their places. -/
structure FileTree where
  /-- What stands where, the root left out. -/
  nodes : List (Place × Node)
  /-- The working folder, where paths start unless they say otherwise. -/
  working : Place
  /-- Files that were removed, oldest first. -/
  removed : List (FileKey × Node)
  /-- Ledgers that were opened, oldest first. Those that are closed again are nothing. -/
  opened : List (Option Connection)
deriving DecidableEq, Repr

namespace FileTree

/-- The tree that has only the working folder and the folders on the way to it. -/
def ofWorking (working : Place) : FileTree :=
  ⟨(List.range working.length).map fun (n : Nat) ↦ (working.take (n + 1), .folder), working, [], []⟩

/-- What stands at a place. -/
def node? (t : FileTree) (p : Place) : Option Node :=
  if p.isEmpty then some .folder else t.nodes.lookup p

/-- Whether a folder stands at a place. -/
def isFolder (t : FileTree) (p : Place) : Bool := t.node? p == some .folder

/-- Whether a folder, or a file with content, stands at a place. -/
def isTaken (t : FileTree) (p : Place) : Bool := (t.node? p).any fun n ↦ n == .folder || n.isFilled

/-- The names in a folder. -/
def children (t : FileTree) (p : Place) : List String :=
  t.nodes.filterMap fun (q, _) ↦ if q.dropLast = p then q.getLast? else none

/-- The tree with a node at a place. -/
def put (t : FileTree) (p : Place) (n : Node) : FileTree :=
  { t with
    nodes :=
      if (t.nodes.lookup p).isSome then changeFirst (·.1 == p) (fun _ ↦ (p, n)) t.nodes
      else t.nodes ++ [(p, n)] }

/-- What stands below the working folder, each with the names that lead to it from there. -/
def below (t : FileTree) : List (Place × Node) :=
  t.nodes.filterMap fun (p, n) ↦
    if t.working.isPrefixOf p then some (p.drop t.working.length, n) else none

/-! ## Keys of files -/

/-- The key of the file at a place. -/
def keyAt (t : FileTree) (p : Place) : FileKey := ⟨p, t.removed.countP (·.1.place == p)⟩

/-- Whether a file was removed. -/
def isRemoved (t : FileTree) (k : FileKey) : Bool := (t.removed.lookup k).isSome

/-- The file of a key. -/
def file? (t : FileTree) (k : FileKey) : Option Node := t.removed.lookup k <|> t.node? k.place

/-- The tree with the file of a key changed. -/
def putFile (t : FileTree) (k : FileKey) (n : Node) : FileTree :=
  if t.isRemoved k then
    { t with removed := changeFirst (·.1 == k) (fun _ ↦ (k, n)) t.removed }
  else t.put k.place n

/-- The tree without the file at a place. A folder stays. -/
def unlink (t : FileTree) (p : Place) : FileTree :=
  match t.node? p with
  | none | some .folder => t
  | some n =>
    { t with nodes := t.nodes.filter (·.1 != p), removed := t.removed ++ [(t.keyAt p, n)] }

/-! ## Following a path -/

/-- How many bytes a name may have. -/
def maxNameBytes : Nat := 255

/-- How many bytes a path may have. -/
def maxPathBytes : Nat := 4095

/-- Makes sure that a path can be followed at all. -/
def ensureLegal (path : String) : Except FileError Unit := do
  require .illegalName (!path.toList.contains '\x00')
  require .nameTooLong (path.utf8ByteSize ≤ maxPathBytes)

/-- Follows one component from a place, which has to be a folder. Above the root is the root. -/
def step (t : FileTree) (p : Place) (component : String) : Except FileError Place :=
  match t.node? p with
  | none => .error .notFound
  | some .folder =>
    if component = "" ∨ component = "." then .ok p
    else if component = ".." then .ok p.dropLast
    else do
      require .nameTooLong (component.utf8ByteSize ≤ maxNameBytes)
      return p ++ [component]
  | some _ => .error .notFolder

/-- Where a path starts. -/
def start (t : FileTree) (path : String) : Place := if isAbsolute path then [] else t.working

/-- The place that a path leads to, whether or not something stands there. -/
def resolve (t : FileTree) (path : String) : Except FileError Place := do
  ensureLegal path
  require .notFound (!path.isEmpty)
  (pathComponents path).foldlM t.step (t.start path)

/-! ## Using files -/

/-- Whether something stands where a path leads. -/
def has (t : FileTree) (path : String) : Bool :=
  match t.resolve path with
  | .ok p => (t.node? p).isSome
  | .error _ => false

/-- The text of a file. -/
def readText (t : FileTree) (path : String) : Except FileError String := do
  match t.node? (← t.resolve path) with
  | some (.text s) => .ok s
  | some .folder => .error .isFolder
  | some _ => .error .notText
  | none => .error .notFound

/-- The tree with a file written. The folder it stands in has to be there. -/
def write (t : FileTree) (path : String) (n : Node) : Except FileError FileTree := do
  let p ← t.resolve path
  match t.node? p with
  | some .folder => .error .isFolder
  | _ => .ok (t.put p n)

/-- The tree without a file. -/
def remove (t : FileTree) (path : String) : Except FileError FileTree := do
  let p ← t.resolve path
  match t.node? p with
  | none => .error .notFound
  | some .folder => .error .isFolder
  | some _ => .ok (t.unlink p)

/-- The names in the folder that a path leads to. -/
def list (t : FileTree) (path : String) : Except FileError (List String) := do
  let p ← t.resolve path
  match t.node? p with
  | none => .error .notFound
  | some .folder => .ok (t.children p)
  | some _ => .error .notFolder

/-- Makes the folders that names lead to from a place. The tree that is left behind has the folders
that were made before an error. -/
def makeFoldersFrom (t : FileTree) (p : Place) : List String → Except FileError Unit × FileTree
  | [] => (require .alreadyExists (t.node? p == some .folder), t)
  | name :: names =>
    match t.step p name with
    | .error e => (.error e, t)
    | .ok p => (if (t.node? p).isSome then t else t.put p .folder).makeFoldersFrom p names

/-- Makes the folder that a path leads to, and the folders on the way. -/
def makeFolders (t : FileTree) (path : String) : Except FileError Unit × FileTree :=
  match ensureLegal path with
  | .error e => (.error e, t)
  | .ok () => t.makeFoldersFrom (t.start path) (pathComponents path)

end FileTree

end Tabletop
