import Tabletop.Files.Node
import Tabletop.Json.Decode
import Tabletop.Json.Printer
import Tabletop.Json.Reader

/-!
# Files as texts

The form that files have outside of the program. A text is itself; a ledger, a log and a register
are JSON records of one member that says which of them it is. A page that is damaged is left out of
a ledger, and is an empty record in a log.
-/

namespace Tabletop

namespace Ledger

/-- The tree of a row. -/
def Row.toJson (row : Row) : Json :=
  .object [("number", .integer row.number), ("name", .string row.name), ("text", .string row.text),
    ("dated", .boolean row.isDated)]

/-- The tree of an entry of an index. -/
def entryToJson (entry : String × Nat) : Json :=
  .object [("name", .string entry.1), ("number", .integer entry.2)]

/-- A member of a record that may be left out. -/
def optional (key : String) (toJson : α → Json) : Option α → List (String × Json)
  | some a => [(key, toJson a)]
  | none => []

/-- The tree of pages. -/
def Pages.toJson (ps : Pages) : Json :=
  .object (optional "changes" (fun n : Nat ↦ .integer n) ps.head ++
    optional "version" .integer ps.version ++
    optional "rows" (fun rows ↦ .array (rows.map Row.toJson)) ps.rows ++
    optional "index" (fun index ↦ .array (index.map entryToJson)) ps.index)

/-- Reads an integer. -/
def asInteger : Json → Except Fault Int
  | .integer i => .ok i
  | j => .error j.unwanted

/-- Reads a natural number. -/
def asNat (j : Json) : Except Fault Nat := return (← asInteger j).toNat

/-- Reads a truth value. -/
def asBool : Json → Except Fault Bool
  | .boolean b => .ok b
  | j => .error j.unwanted

/-- Reads a row. -/
def Row.ofJson : Json → Except Fault Row :=
  Json.asRecord .malformed ["number", "name", "text", "dated"] fun r ↦
    Row.mk <$> Json.field asNat "number" r <*> Json.field Json.asString "name" r <*>
      Json.field Json.asString "text" r <*> Json.field asBool "dated" r

/-- Reads an entry of an index. -/
def entryOfJson : Json → Except Fault (String × Nat) :=
  Json.asRecord .malformed ["name", "number"] fun r ↦
    Prod.mk <$> Json.field Json.asString "name" r <*> Json.field asNat "number" r

/-- Reads pages. -/
def Pages.ofJson : Json → Except Fault Pages :=
  Json.asRecord .malformed ["changes", "version", "rows", "index"] fun r ↦
    Pages.mk <$> Json.fieldD (Json.asOption asNat) none "changes" r <*>
      Json.fieldD (Json.asOption asInteger) none "version" r <*>
      Json.fieldD (Json.asOption (Json.asList Row.ofJson)) none "rows" r <*>
      Json.fieldD (Json.asOption (Json.asList entryOfJson)) none "index" r

/-- The word for a part. -/
def Part.word : Part → String
  | version => "version"
  | rows => "rows"
  | index => "index"

/-- Reads the word for a part. -/
def Part.ofJson (j : Json) : Except Fault Part := do
  match ← j.asString with
  | "version" => return .version
  | "rows" => return .rows
  | "index" => return .index
  | _ => .error .misshapen

end Ledger

namespace Log

/-- The tree of a frame. -/
def frameToJson (frame : Option Ledger.Page) : Json :=
  (({} : Ledger.Pages).putAll frame.toList).toJson

/-- Reads a frame. -/
def frameOfJson (j : Json) : Except Fault (Option Ledger.Page) := do
  let pages ← Ledger.Pages.ofJson j
  return pages.get? .version <|> pages.get? .rows <|> pages.get? .index

/-- The tree of a log. -/
def toJson (l : Log) : Json :=
  .object [("begun", .boolean l.isBegun), ("frames", .array (l.frames.map frameToJson))]

/-- Reads a log. -/
def ofJson : Json → Except Fault Log :=
  Json.asRecord .malformed ["begun", "frames"] fun r ↦
    Log.mk <$> Json.field Ledger.asBool "begun" r <*>
      Json.field (Json.asList frameOfJson) "frames" r

end Log

namespace Node

/-- The text of a file. -/
def toText : Node → String
  | folder => ""
  | text s => s
  | ledger pages => (Json.object [("ledger", pages.toJson)]).pretty
  | log l => (Json.object [("log", l.toJson)]).pretty
  | register parts => (Json.object [("register", .array (parts.map (.string ·.word)))]).pretty

/-- Reads a file that is no text, if it is one. -/
def ofJson? : Json → Option Node
  | .object [("ledger", j)] => (Ledger.Pages.ofJson j).toOption.map .ledger
  | .object [("log", j)] => (Log.ofJson j).toOption.map .log
  | .object [("register", j)] => (j.asList Ledger.Part.ofJson).toOption.map .register
  | _ => none

/-- Reads the text of a file. -/
def ofText (s : String) : Node := ((Json.ofText? s).bind ofJson?).getD (.text s)

end Node

end Tabletop
