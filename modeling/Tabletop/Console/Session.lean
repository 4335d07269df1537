import Tabletop.Console.Command
import Tabletop.Console.Options
import Tabletop.Console.Token
import Tabletop.Describe.Summary
import Tabletop.Library.Basic
import Tabletop.RuleSet.Play

/-!
# Sessions

A session works on one rule set, next to a library of stored ones. Each line is a command, and each
command has an answer. A command that fails changes neither the rule set nor what is stored, with
one exception: an event that is started and fails is finished all the same, and keeps its log.
-/

namespace Tabletop

/-- What a command prints, and whether it did what was asked. -/
structure Answer where
  /-- Whether the command failed or was not understood. -/
  failed : Bool
  /-- What is printed. -/
  text : String
deriving DecidableEq, Repr

namespace Answer

/-- An answer of one line. -/
def line (s : String) : Answer := ⟨false, unlines [s]⟩

/-- An answer of one line to a command that failed. -/
def failure (s : String) : Answer := ⟨true, unlines [s]⟩

/-- The answer to a command that lacks words. -/
def usage (s : String) : Answer := failure s!"Usage: {s}"

end Answer

/-- The state of a console. -/
structure Session where
  /-- Where rule sets are stored. -/
  library : Library
  /-- The current rule set. -/
  rules : RuleSet
  /-- The files, the library among them. -/
  files : FileTree
deriving DecidableEq, Repr

namespace Session

/-- What is printed before each line is read. -/
def prompt (s : Session) : String := s!"{s.rules.name}> "

/-! ## The ways a command works -/

/-- Shows something. -/
def tell (s : Session) (a : Answer) : Answer × Session := (a, s)

/-- Edits the rule set, and shows the outcome or, after a title, the error. -/
def edit (s : Session) (title : String) (edit : Edit α) (answer : α → Answer) : Answer × Session :=
  match s.rules.perform edit with
  | (.ok a, rules) => (answer a, { s with rules })
  | (.error e, rules) => (.failure s!"{title} failed: {e.message}", { s with rules })

/-- Works on the library, and shows the outcome or, after a title, the error. -/
def file (s : Session) (title : String) (filing : Filing α)
    (answer : α → Session → Answer × Session) : Answer × Session :=
  match s.files.perform filing with
  | (.ok a, files) => answer a { s with files }
  | (.error e, files) => (.failure s!"{title} failed: {e.message}", { s with files })

/-- Goes on with what a token says, or shows why it says nothing. -/
def withToken (s : Session) (token : Except TokenError α) (next : α → Answer × Session) :
    Answer × Session :=
  match token with
  | .ok a => next a
  | .error e => (.failure e.message, s)

/-! ## Answers -/

/-- The answer to listing the library. -/
def listing (entries : List Entry) : Answer :=
  if entries.isEmpty then .line "No saved rule sets."
  else ⟨false, unlines (entries.map fun e ↦ s!"  {e.name} ({e.location})")⟩

/-- The line of a change. -/
def changeLine (c : Change) : String :=
  s!"  {c.entity} {c.attr}: {c.before.display} -> {c.after.display}"

/-- The answer to using an action. -/
def outcomeAnswer (o : Outcome) : Answer :=
  let skipped := if o.skipped = 0 then [] else [s!"  ({o.skipped} effect(s) skipped by conditions)"]
  ⟨false, unlines (o.changes.map changeLine ++ skipped)⟩

/-- The log of an event, if the event exists. -/
def eventLog (w : RuleSet) (name : String) : List String :=
  ((w.events.get? name).map Event.log).getD []

/-- Runs an event. If it fails, the lines of the turns that were played come first. -/
def startEvent (s : Session) (name : String) : Answer × Session :=
  match s.rules.perform (RuleSet.startEvent name) with
  | (.ok log, rules) =>
    (⟨false, unlines (log ++ [s!"Event {name} finished"])⟩, { s with rules })
  | (.error e, rules) =>
    (⟨true, unlines (eventLog rules name ++ [s!"Event failed: {e.message}"])⟩, { s with rules })

/-- The answer to showing an event. -/
def eventAnswer (w : RuleSet) (name : String) : Answer :=
  match w.events.get? name with
  | some event => ⟨false, event.card ++ unlines (event.log.map fun line ↦ s!"    {line}")⟩
  | none => .failure s!"No event named {name}"

/-- The answer to showing an entity. -/
def entityAnswer (w : RuleSet) (name : String) : Answer :=
  match w.entities.get? name with
  | some entity => ⟨false, entity.card⟩
  | none => .usage Command.cardUsage

/-- The answer to showing one attribute of an entity. -/
def valueAnswer (w : RuleSet) (name attr : String) : Answer :=
  match (w.entities.get? name).bind (·.line? attr) with
  | some line => .line line
  | none => .failure s!"{name} has no attribute {attr}"

/-! ## Performing commands -/

/-- Makes a rule set the current one, and says so. -/
def adopt (s : Session) (what : String) (rules : RuleSet) : Answer × Session :=
  (.line s!"{what} {rules.name}", { s with rules })

/-- Performs a command. -/
def perform (s : Session) : Command → Answer × Session
  | .nothing | .quit => s.tell ⟨false, ""⟩
  | .help => s.tell (.line Command.overview)
  | .list => s.file "List" s.library.list fun entries s ↦ s.tell (listing entries)
  | .new name => { s with rules := .empty name }.tell (.line s!"Started empty rule set {name}")
  | .load name => s.file "Open" (s.library.load name) fun w s ↦ s.adopt "Opened" w
  | .importFrom path => s.file "Import" (s.library.importFrom path) fun w s ↦ s.adopt "Imported" w
  | .save =>
    s.file "Save" (s.library.save s.rules) fun _ s ↦ s.tell (.line s!"Saved {s.rules.name}")
  | .delete name =>
    s.file "Delete" (s.library.delete name) fun _ s ↦ s.tell (.line s!"Deleted {name}")
  | .rename name =>
    s.edit "Rename" (RuleSet.rename name) fun _ ↦ .line s!"Rule set renamed to {name}"
  | .summary => s.tell ⟨false, s.rules.summary⟩
  | .card entity => s.tell (entityAnswer s.rules entity)
  | .value entity attr => s.tell (valueAnswer s.rules entity attr)
  | .defineAttribute name kind =>
    s.withToken ((Kind.read kind).mapError .rule) fun kind ↦
      s.edit "Define" (RuleSet.defineAttribute name kind) fun row ↦
        .line s!"Defined {row.name}: {row.kind.word}"
  | .defineAction name effects =>
    s.withToken (effects.mapM Effect.ofToken) fun effects ↦
      s.edit "Define" (RuleSet.defineAction name effects) fun row ↦
        .line s!"Defined {row.name} ({row.effects.length} effect(s))"
  | .defineEntity name parts =>
    s.withToken (s.rules.entityPartsOfTokens parts) fun (slots, actions) ↦
      s.edit "Define" (RuleSet.defineEntity name slots actions) fun row ↦ ⟨false, row.card⟩
  | .remove table name =>
    match RowKind.ofToken table with
    | .ok kind =>
      s.edit "Remove" (RuleSet.remove kind name) fun _ ↦ .line s!"Removed {table} {name}"
    | .error e => s.tell (.failure s!"Remove failed: {e.message}")
  | .use user action targets =>
    s.edit "Action" (RuleSet.useAction user action targets) outcomeAnswer
  | .startEvent name => s.startEvent name
  | .eventCard name => s.tell (eventAnswer s.rules name)
  | .resetEvent name =>
    s.edit "Reset" (RuleSet.resetEvent name) fun _ ↦ .line s!"Event {name} reset"
  | .incomplete usage => s.tell (.usage usage)
  | .unknown => s.tell (.failure "Unknown command. Type 'help' for commands.")

end Session

end Tabletop
