import Tabletop.Files.Path
import Tabletop.Number.Numeral
import Tabletop.Rows
import Tabletop.Text.Octets

/-!
# Ledger addresses

What a ledger can be called: the path of its file; nothing, or `:memory:`, for a ledger that is
gone when it is closed; or an address with options, of the form
`file:path?name=value&name=value#remark`. Only the file of this machine can be meant, so a machine
named before the path, as in `file://localhost/path`, is this one or is refused.

In an address any octet can be written as `%` and two hexadecimal digits. Once `%00` is met, the
rest of the path, name or value that it stands in is dropped. These options matter here:

* `mode` says how the file may be used, and `mode=memory` that there is none. A mode may not allow
  more than one given before it, where memory counts as no limit.
* `vfs` names the way to the files; with `memdb` there are none, and some ways know no logs.
* `cache` says what is shared with other programs, which makes no difference here, but its value
  has to be a known one.
* `immutable` says that nobody changes the file, so that the files beside it do not matter.
* `nolock` says that nobody else uses the file, so that there is no log to be shared.
* `modeof` names a file whose permissions a new one gets. It has to be there in any case.

Of the last three the first value counts.
-/

namespace Tabletop

/-- How a ledger file may be used. -/
inductive Access where
  /-- It has to be there, and is not changed. -/
  | readOnly
  /-- It has to be there. -/
  | readWrite
  /-- It is made if it is not there. -/
  | create
deriving DecidableEq, Repr

/-- Which of the files beside a ledger matter. -/
inductive SideFiles where
  /-- The journal and the log. -/
  | all
  /-- The journal. A log cannot be used and is in the way. -/
  | journalOnly
  /-- None, but a log is in the way. -/
  | none
  /-- None at all. -/
  | ignored
deriving DecidableEq, Repr

/-- Whether a journal is looked for. -/
def SideFiles.includeJournal : SideFiles → Bool
  | all | journalOnly => true
  | none | ignored => false

/-- How a ledger file is opened. -/
structure LedgerUse where
  /-- How it may be used. -/
  access : Access := .create
  /-- Which of the files beside it matter. -/
  sideFiles : SideFiles := .all
  /-- The path of a file that has to be there too. -/
  modelPath : Option String := none
deriving DecidableEq, Repr

/-- Where a ledger is kept. -/
inductive LedgerAddress where
  /-- Nowhere, only as long as it is open. -/
  | memory (isWritable : Bool)
  /-- In a file. -/
  | file (path : String) (use : LedgerUse)
deriving DecidableEq, Repr

/-- Why an address cannot be used. -/
inductive AddressError where
  /-- The address is one of another machine. -/
  | foreign (machine : String)
  /-- An option has no such value. -/
  | unknownMode (option value : String)
  /-- The value of an option allows more than one before. -/
  | refusedMode (option value : String)
  /-- There is no such way to the files. -/
  | unknownSystem (name : String)
deriving DecidableEq, Repr

/-- The text of an error. -/
def AddressError.message : AddressError → String
  | foreign machine => s!"invalid uri authority: {machine}"
  | unknownMode option value => s!"no such {option} mode: {value}"
  | refusedMode option value => s!"{option} mode not allowed: {value}"
  | unknownSystem name => s!"no such vfs: {name}"

/-! ## Octets -/

/-- The octet that two hexadecimal digits stand for. -/
def octet? (a b : Char) : Option Nat := do return 16 * (← hexDigit? a) + (← hexDigit? b)

/-- The octets that a part of an address stands for. -/
def octets : List Char → List UInt8
  | [] => []
  | '%' :: a :: b :: cs =>
    match octet? a b with
    | some 0 => []
    | some n => UInt8.ofNat n :: octets cs
    | none => String.utf8EncodeChar '%' ++ octets (a :: b :: cs)
  | c :: cs => String.utf8EncodeChar c ++ octets cs

/-- The text of a part of an address. -/
def decodedPart (cs : List Char) : String := Octets.text (octets cs)

/-! ## Options -/

/-- The part of a text before the first of a character, and the part behind it. -/
def splitFirst (separator : Char) (cs : List Char) : List Char × List Char :=
  (cs.takeWhile (· != separator), (cs.dropWhile (· != separator)).drop 1)

/-- The options of an address. One without a name is left out. -/
def addressOptions (cs : List Char) : List (String × String) :=
  let options := (pieces '&' cs).map fun option ↦
    let (name, value) := splitFirst '=' option
    (decodedPart name, decodedPart value)
  options.filter (·.1 != "")

/-- What `mode` says: how the file may be used, nothing for memory. -/
abbrev Mode := Option Access

/-- The mode that a word stands for. -/
def mode? : String → Option Mode
  | "ro" => some (some .readOnly)
  | "rw" => some (some .readWrite)
  | "rwc" => some (some .create)
  | "memory" => some none
  | _ => none

/-- How much is allowed. -/
def Access.rank : Access → Nat
  | readOnly => 1
  | readWrite => 2
  | create => 3

/-- Whether a mode may follow another one. -/
def Mode.allows (before : Mode) (after : Mode) : Bool :=
  match before, after with
  | some a, some b => b.rank ≤ a.rank
  | _, _ => true

/-- The greatest number that an option can have. Greater ones count as zero. -/
def maxOptionNumber : Nat := 2147483647

/-- Whether a value says yes: a word for it, or a number whose last octet is not zero. -/
def saysYes (value : String) : Bool :=
  let digits := value.toList.takeWhile Char.isDigit
  if digits.isEmpty then ["on", "yes", "true"].contains value.toLower
  else digitsValue digits ≤ maxOptionNumber && digitsValue digits % 256 != 0

/-- Where a ledger is kept, by its options so far. -/
structure AddressSettings where
  /-- How the file may be used. -/
  mode : Mode := some .create
  /-- The way to the files. -/
  system : String := "unix"
  /-- Whether nobody changes the file, if that was said. -/
  isFixed : Option Bool := none
  /-- Whether nobody else uses the file, if that was said. -/
  isAlone : Option Bool := none
  /-- The file whose permissions a new one gets. -/
  modelPath : Option String := none

namespace AddressSettings

/-- Takes one more option into account. -/
def apply (s : AddressSettings) : String × String → Except AddressError AddressSettings
  | ("vfs", value) => .ok { s with system := value }
  | ("mode", value) => do
    let mode ← need (.unknownMode "access" value) (mode? value)
    require (.refusedMode "access" value) (s.mode.allows mode)
    return { s with mode }
  | ("cache", value) => do
    require (.unknownMode "cache" value) (value == "shared" || value == "private")
    return s
  | ("immutable", value) => .ok { s with isFixed := s.isFixed <|> some (saysYes value) }
  | ("nolock", value) => .ok { s with isAlone := s.isAlone <|> some (saysYes value) }
  | ("modeof", value) => .ok { s with modelPath := s.modelPath <|> some value }
  | _ => .ok s

/-- The ways to the files. -/
def systems : List String := ["unix", "unix-none", "unix-dotfile", "unix-excl", "memdb"]

/-- Which of the files beside a ledger matter. -/
def sideFiles (s : AddressSettings) : SideFiles :=
  if s.isFixed == some true then .ignored
  else if s.system == "unix-dotfile" then .none
  else if s.system == "unix-none" || s.isAlone == some true then .journalOnly
  else .all

/-- Whether a ledger in memory may be changed. Where it has the name of a file, it can be said that
nobody changes it, as of any file. -/
def isWritable (s : AddressSettings) (path : String) (access : Access) : Bool :=
  let isNamed := s.system == "memdb" && path != "" && path != ":memory:"
  access != .readOnly && !(isNamed && s.isFixed == some true)

/-- The address of a path. -/
def address (s : AddressSettings) (path : String) : Except AddressError LedgerAddress := do
  require (.unknownSystem s.system) (systems.contains s.system)
  match s.mode with
  | none => return .memory true
  | some access =>
    if s.system == "memdb" || path == "" || path == ":memory:" then
      return .memory (s.isWritable path access)
    else return .file path ⟨access, s.sideFiles, s.modelPath⟩

end AddressSettings

namespace LedgerAddress

/-- Drops the machine from the front of an address. -/
def dropMachine : List Char → Except AddressError (List Char)
  | '/' :: '/' :: cs => do
    let machine := String.ofList (cs.takeWhile (· != '/'))
    require (.foreign machine) (machine == "" || machine == "localhost")
    return cs.dropWhile (· != '/')
  | cs => .ok cs

/-- Reads an address. -/
def ofText (s : String) : Except AddressError LedgerAddress :=
  match s.toList with
  | 'f' :: 'i' :: 'l' :: 'e' :: ':' :: cs => do
    let (path, options) := splitFirst '?' (splitFirst '#' (← dropMachine cs)).1
    let settings ← (addressOptions options).foldlM AddressSettings.apply {}
    settings.address (decodedPart path)
  | _ => ({} : AddressSettings).address s

end LedgerAddress

end Tabletop
