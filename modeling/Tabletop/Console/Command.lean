import Tabletop.Text.Blank

/-!
# Commands

What a line at the console asks for. A line is split into words at blanks; the first word names the
command in any case, and the others are taken as they stand. Words that a command has no use for
are passed over.
-/

namespace Tabletop

/-- What a line asks for. -/
inductive Command where
  /-- Nothing: the line is blank. -/
  | nothing
  /-- To leave. -/
  | quit
  /-- To list the commands. -/
  | help
  /-- To list the library. -/
  | list
  /-- To start an empty rule set. -/
  | new (name : String)
  /-- To open a stored rule set. -/
  | load (name : String)
  /-- To store the rule set of a file and open it. -/
  | importFrom (path : String)
  /-- To store the current rule set. -/
  | save
  /-- To delete a stored rule set. -/
  | delete (name : String)
  /-- To give the current rule set another name. -/
  | rename (name : String)
  /-- To sum up the current rule set. -/
  | summary
  /-- To see an entity. -/
  | card (entity : String)
  /-- To see one attribute of an entity. -/
  | value (entity attr : String)
  /-- To define an attribute. -/
  | defineAttribute (name kind : String)
  /-- To define an action. -/
  | defineAction (name : String) (effects : List String)
  /-- To define an entity. -/
  | defineEntity (name : String) (parts : List String)
  /-- To remove a row. -/
  | remove (table name : String)
  /-- To use an action. -/
  | use (user action : String) (targets : List String)
  /-- To run an event. -/
  | startEvent (name : String)
  /-- To see an event. -/
  | eventCard (name : String)
  /-- To reset an event. -/
  | resetEvent (name : String)
  /-- A command that lacks words. It should read as given. -/
  | incomplete (usage : String)
  /-- No command. -/
  | unknown
deriving DecidableEq, Repr

namespace Command

/-- The text that lists the commands. -/
def overview : String :=
  "Commands: list | new <name> | open <name> | import <path> | save | delete <name>" ++
  " | rename <name> | summary | show <entity> | attr <entity> <attribute>" ++
  " | define <attribute> <num|alpha|bool|percent>" ++
  " | action <name> <attribute:scope:modifier:value>..." ++
  " | entity <name> [attribute=value...] [+action...]" ++
  " | remove <attribute|action|entity|event> <name> | use <user> <action> [targets...]" ++
  " | event <start|show|reset> <name> | quit"

/-- The usage of the command that shows an entity. -/
def cardUsage : String := "show <entity>"

/-- Reads the words after the name of the command for events. -/
def ofEventWords : List String → Command
  | "start" :: name :: _ => startEvent name
  | "show" :: name :: _ => eventCard name
  | "reset" :: name :: _ => resetEvent name
  | _ => incomplete "event <start|show|reset> <name>"

/-- A command with one word. -/
def withWord (usage : String) (command : String → Command) : List String → Command
  | word :: _ => command word
  | [] => incomplete usage

/-- A command with two words. -/
def withTwoWords (usage : String) (command : String → String → Command) : List String → Command
  | first :: second :: _ => command first second
  | _ => incomplete usage

/-- Reads the command of a name with the words after it. -/
def ofName (name : String) (args : List String) : Command :=
  match name with
  | "quit" | "exit" => quit
  | "help" => help
  | "list" => list
  | "new" => withWord "new <name>" new args
  | "open" => withWord "open <name>" load args
  | "import" => withWord "import <path>" importFrom args
  | "save" => save
  | "delete" => withWord "delete <name>" delete args
  | "rename" => withWord "rename <name>" rename args
  | "summary" => summary
  | "show" => withWord cardUsage card args
  | "attr" => withTwoWords "attr <entity> <attribute>" value args
  | "define" =>
    withTwoWords "define <attribute> <num|alpha|bool|percent>" defineAttribute args
  | "action" =>
    withWord "action <name> <attribute:scope:modifier:value>..." (defineAction · args.tail) args
  | "entity" =>
    withWord "entity <name> [attribute=value...] [+action...]" (defineEntity · args.tail) args
  | "remove" => withTwoWords "remove <attribute|action|entity|event> <name>" remove args
  | "use" => withTwoWords "use <user> <action> [targets...]" (use · · args.tail.tail) args
  | "event" => ofEventWords args
  | _ => unknown

/-- Reads a line. Only letters of the ASCII range have two cases here, which is enough: no letter
outside it becomes one of those in the names by changing its case to the lower one. -/
def ofLine (line : String) : Command :=
  match words line with
  | [] => nothing
  | name :: args => ofName (String.ofList (name.toList.map Char.toLower)) args

end Command

end Tabletop
