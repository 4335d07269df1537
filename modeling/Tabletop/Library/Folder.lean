import Tabletop.Library.Filing

/-!
# Folder libraries

A folder with a document for each rule set, `games/<name>.json`, and an index of them in
`global.json`. The index is made anew from the documents that are there after every change, so it
lists documents that were put there by other means; listing only reads it.

A change is two steps, first the document and then the index. If the second fails, the first stays
done.
-/

namespace Tabletop

namespace FolderLibrary

/-! ## Where things are -/

/-- The name of the folder of documents. -/
def gamesName : String := "games"

/-- The folder of documents. -/
def gamesPath (root : String) : String := joinPath root gamesName

/-- The index. -/
def indexPath (root : String) : String := joinPath root "global.json"

/-- The name of the file of a rule set. -/
def fileName (name : String) : String := name ++ ".json"

/-- The document of a rule set. -/
def gamePath (root name : String) : String := joinPath (gamesPath root) (fileName name)

/-- The name of the rule set in a file, if the file is a document: what stands before the ending,
which must not be nothing. -/
def stem? (fileName : String) : Option String :=
  match fileName.toList.reverse with
  | 'n' :: 'o' :: 's' :: 'j' :: '.' :: c :: cs => some (String.ofList (c :: cs).reverse)
  | _ => none

/-! ## The index -/

/-- The entry of a rule set. -/
def entry (name : String) : Entry := ⟨name, gamesName ++ "/" ++ fileName name⟩

/-- The entries of the documents among files, by name, code point by code point. -/
def entriesOf (fileNames : List String) : List Entry :=
  ((fileNames.filterMap stem?).mergeSort fun a b ↦ a ≤ b).map entry

/-- The tree of an entry. -/
def entryToJson (e : Entry) : Json :=
  .object [("name", .string e.name), ("path", .string e.location)]

/-- The text of an index. -/
def indexText (entries : List Entry) : String :=
  (Json.object [("games", .array (entries.map entryToJson))]).pretty

/-- Reads an entry. -/
def entryOfJson : Json → Except Fault Entry :=
  Json.asRecord .malformed ["name", "path"] fun r ↦
    Entry.mk <$> Json.field Json.asString "name" r <*> Json.field Json.asString "path" r

/-- Reads an index. -/
def entriesOfText (s : String) : Except Fault (List Entry) := do
  let j ← need .malformed (Json.ofText? s)
  j.asRecord .malformed ["games"] (Json.fieldD (Json.asList entryOfJson) [] "games")

variable {m : Type → Type} [Monad m] [MonadLiftT (Except LibraryError) m] [FileAccess m]

/-- Makes the index anew. -/
def rebuildIndex (root : String) : m Unit := do
  let fileNames ← FileAccess.list (gamesPath root)
  FileAccess.write (indexPath root) (indexText (entriesOf fileNames))

/-! ## Operations -/

/-- Makes a library ready for use, from nothing if it is not there. -/
def prepare (root : String) : Filing Unit := do
  Filing.makeFolders (gamesPath root)
  rebuildIndex root

/-- What the index lists. -/
def list (root : String) : m (List Entry) := do
  let text ← FileAccess.read (indexPath root)
  let entries ← (entriesOfText text).mapError (LibraryError.document (indexPath root))
  return entries

/-- Makes sure that there is a document of the name, which has to be a usable one. -/
def ensureStored (root name : String) : m Unit := do
  ensureUsableName name
  let isThere ← FileAccess.has (gamePath root name)
  require (LibraryError.notFound name) isThere

/-- Loads a rule set. Its own name may be another one than it is stored under. -/
def load (root name : String) : m RuleSet := do
  ensureStored root name
  Filing.loadFrom (gamePath root name)

/-- Saves a rule set under its name. -/
def save (root : String) (w : RuleSet) : m Unit := do
  ensureUsableName w.name
  Filing.saveTo (gamePath root w.name) w
  rebuildIndex root

/-- Deletes a rule set. -/
def delete (root name : String) : m Unit := do
  ensureStored root name
  FileAccess.remove (gamePath root name)
  rebuildIndex root

end FolderLibrary

end Tabletop
