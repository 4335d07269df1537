import Tabletop.Console.Session

/-!
# Running the console

The console from its arguments to its exit: the library is made ready, the rule set to start with
is opened, and lines are read until one asks to leave or there are no more. A prompt stands before
each line, and before the end of the input too.
-/

namespace Tabletop

/-- What a run of the console leaves behind. -/
structure Transcript where
  /-- The exit code. -/
  exit : Nat
  /-- What was printed. -/
  output : String
  /-- What was printed as an error. -/
  errors : String
  /-- The files. -/
  files : FileTree
deriving DecidableEq, Repr

namespace Session

/-- The library that options ask for. -/
def addressOf (o : Options) : Except LibraryError LibraryAddress :=
  match o.ledger with
  | some text => do
    return .ledger text (← (LedgerAddress.ofText text).mapError (LibraryError.ledger ∘ .address))
  | none => .ok (.folder o.dataDir)

/-- The rule set a session starts with when none is opened. -/
def untitled : RuleSet := .empty "Untitled"

/-- Opens the rule set that options ask for. -/
def openFirst (s : Session) (o : Options) : Answer × Session :=
  match o.startWith with
  | none => s.tell ⟨false, ""⟩
  | some name =>
    match s.files.perform (s.library.load name) with
    | (.ok w, files) => { s with files }.adopt "Opened" w
    | (.error e, files) => (.failure s!"Could not open {name}: {e.message}", { s with files })

/-- The title of the console. -/
def title : String := "Tabletop rules console"

/-- Opens the library that options ask for. -/
def attachLibrary (o : Options) : Filing Library := do Library.attach (← addressOf o)

/-- Starts a session: what is printed before the first prompt, and the session; or, if the library
cannot be used, the text of the error and the files. -/
def start (o : Options) (files : FileTree) : Except (String × FileTree) (String × Session) :=
  match files.perform (attachLibrary o) with
  | (.error e, files) => .error (s!"Failed to open rule-set library: {e.message}", files)
  | (.ok library, files) =>
    let (answer, s) := openFirst ⟨library, untitled, files⟩ o
    .ok (unlines [title] ++ answer.text ++ unlines [Command.overview], s)

/-- Reads one line: what is printed, and the session after it unless the line asks to leave. -/
def step (s : Session) (line : String) : Option (Answer × Session) :=
  match Command.ofLine line with
  | .quit => none
  | command => some (s.perform command)

/-- Reads lines: what is printed, prompts included, and the session after them. -/
def play (s : Session) : List String → String × Session
  | [] => (s.prompt, s)
  | line :: lines =>
    match s.step line with
    | none => (s.prompt, s)
    | some (answer, next) =>
      let (rest, last) := next.play lines
      (s.prompt ++ answer.text ++ rest, last)

/-- Ends a session: the files that are left when its library is closed. -/
def close (s : Session) : FileTree := (s.files.perform s.library.detach).2

end Session

/-- The lines of an input. What stands after the last line end counts if it is not empty. -/
def inputLines (s : String) : List String :=
  let lines := (pieces '\n' s.toList).map String.ofList
  if lines.getLast? == some "" then lines.dropLast else lines

/-- The text about arguments that cannot be used. -/
def OptionsError.usage (e : OptionsError) : String :=
  s!"{e.message}. Usage: [--data <dir>] [--sqlite <file>] [--open <name>]"

/-- Runs the console on an input. -/
def runConsole (args : List String) (input : String) (files : FileTree) : Transcript :=
  match Options.ofArgs args with
  | .error e => ⟨2, "", unlines [e.usage], files⟩
  | .ok o =>
    match Session.start o files with
    | .error (message, files) => ⟨1, "", unlines [message], files⟩
    | .ok (greeting, s) =>
      let (output, s) := s.play (inputLines input)
      ⟨0, greeting ++ output, "", s.close⟩

end Tabletop
