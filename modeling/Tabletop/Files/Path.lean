/-!
# Paths

A path is written with slashes between its components. Which file it leads to depends on the file
tree, since a component may be a dot, two dots, or nothing at all; see `FileTree.resolve`.
-/

namespace Tabletop

/-- The pieces of a text between separators. There is always at least one. -/
def pieces (separator : Char) : List Char → List (List Char)
  | [] => [[]]
  | c :: cs =>
    if c = separator then [] :: pieces separator cs
    else match pieces separator cs with
      | [] => [[c]]
      | p :: ps => (c :: p) :: ps

/-- The components of a path. -/
def pathComponents (path : String) : List String := (pieces '/' path.toList).map String.ofList

/-- Whether a path starts at the root of all files. -/
def isAbsolute (path : String) : Bool := path.toList.head? == some '/'

/-- The path of the folder that a path leads into: its last component is left out, and so is what
leads nowhere, nothing and a dot. -/
def parentPath (path : String) : String :=
  let names := (pathComponents path).filter fun c ↦ c != "" && c != "."
  (if isAbsolute path then "/" else "") ++ "/".intercalate names.dropLast

/-- The path of what stands in a folder under a name. -/
def joinPath (folder name : String) : String :=
  if folder.isEmpty || folder.toList.getLast? == some '/' then folder ++ name
  else folder ++ "/" ++ name

end Tabletop
