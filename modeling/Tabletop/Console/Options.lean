/-!
# Options of the console

Where the console keeps its rule sets, and which one it opens first.
-/

namespace Tabletop

/-- What the console is started with. -/
structure Options where
  /-- The directory of a folder library. -/
  dataDir : String := "./data"
  /-- The file of a ledger library, which is then used in place of the folder. -/
  ledger : Option String := none
  /-- The rule set to open at the start. -/
  startWith : Option String := none
deriving DecidableEq, Repr

/-- Why the arguments could not be read. -/
inductive OptionsError where
  /-- A flag is the last argument, and its value is missing. -/
  | missingValue (flag : String)
  /-- An argument is no flag. -/
  | unknownFlag (arg : String)
deriving DecidableEq, Repr

/-- The text of an error. -/
def OptionsError.message : OptionsError → String
  | missingValue flag => s!"{flag} expects a value"
  | unknownFlag arg => s!"unknown argument {arg}"

namespace Options

/-- A flag and what its value sets. -/
def flag? : String → Option (Options → String → Options)
  | "--data" => some fun o value ↦ { o with dataDir := value }
  | "--sqlite" => some fun o value ↦ { o with ledger := some value }
  | "--open" => some fun o value ↦ { o with startWith := some value }
  | _ => none

/-- Reads arguments on top of given options. The last mention of a flag counts. -/
def update (o : Options) : List String → Except OptionsError Options
  | [] => .ok o
  | [arg] => .error (if (flag? arg).isSome then .missingValue arg else .unknownFlag arg)
  | arg :: value :: rest =>
    match flag? arg with
    | some set => update (set o value) rest
    | none => .error (.unknownFlag arg)

/-- Reads the arguments. -/
def ofArgs (args : List String) : Except OptionsError Options := update {} args

end Options

end Tabletop
