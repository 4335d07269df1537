import Tabletop.Json.Basic
import Tabletop.Rows

/-!
# Decoding JSON

What a reader of documents needs from a tree: single values of a wanted type, lists, and records.

## Faults

A text that is no JSON, or uses a part that cannot be represented, is malformed. A text that is
JSON but does not say what was asked for is misshapen. Of several faults the one that stands first
in the text counts.

## Records

A record is written as an object, or as an array of its fields in order. An object may have keys
that the record does not know: they are skipped, whatever they hold. A known key given twice is a
fault, and so is an array with more items than the record has fields.

The fields of a record are read one by one in the order in which the record declares them, which
need not be the order of the text. So each fault is noted together with the member where it shows,
and `Reading` puts two readings together so that the earlier fault wins.
-/

namespace Tabletop

/-- Why a text could not be read. -/
inductive Fault where
  /-- The text is not JSON, or not JSON that can be represented. -/
  | malformed
  /-- The text is JSON of another shape. -/
  | misshapen
deriving DecidableEq, Repr

namespace Json

/-- The fault of a tree that is not of the wanted type. A container is not looked into. -/
def unwanted : Json → Fault
  | array _ => .misshapen
  | object _ => .misshapen
  | j => if j.isSound then .misshapen else .malformed

/-- Reads a string. -/
def asString : Json → Except Fault String
  | string s => .ok s
  | j => .error j.unwanted

/-- Reads a number, written as an integer or not. -/
def asNumber (j : Json) : Except Fault Number := need j.unwanted j.number?

/-- Reads a list. -/
def asList (decode : Json → Except Fault α) : Json → Except Fault (List α)
  | array items => items.mapM decode
  | j => .error j.unwanted

/-- Reads what may be `null`. -/
def asOption (decode : Json → Except Fault α) : Json → Except Fault (Option α)
  | null => .ok none
  | j => (decode j).map some

/-- Makes sure that no part of a tree is flawed, where all of it is looked at before it is read. -/
def ensureSound (j : Json) : Except Fault Unit := require .malformed j.isSound

/-! ## Records -/

/-- What is read from some fields of a record, or the first fault and the number of the member
where it shows. -/
def Reading (α : Type) : Type := Except (Nat × Fault) α

namespace Reading

/-- A reading of something that is there. -/
def ok (a : α) : Reading α := Except.ok a

/-- A fault at a member. -/
def fault (position : Nat) (f : Fault) : Reading α := Except.error (position, f)

/-- Two readings, both of which have to succeed. Of two faults the earlier one is kept. -/
def apply (f : Reading (α → β)) (a : Reading α) : Reading β :=
  match f, a with
  | .ok f, .ok a => ok (f a)
  | .ok _, .error e => .error e
  | .error e, .ok _ => .error e
  | .error e, .error e' => .error (if e'.1 < e.1 then e' else e)

instance : Applicative Reading where
  pure := ok
  seq f a := apply f (a ())

/-- What was read, or its fault. -/
def toExcept (r : Reading α) : Except Fault α := Except.mapError Prod.snd r

end Reading

/-- The members of a record in the order of the text. -/
abbrev Members := List (String × Json)

/-- Where the first key that the record knows is given a second time. -/
def repeated? (keys : List String) (seen : List String) (position : Nat) : Members → Option Nat
  | [] => none
  | (key, _) :: members =>
    if seen.contains key then some position
    else repeated? keys (if keys.contains key then key :: seen else seen) (position + 1) members

/-- Reads a record with fields of the given keys. The fault of an array that is too long is given,
since it depends on whether the record is read while its text is. -/
def asRecord (tooLong : Fault) (keys : List String) (read : Members → Reading α) :
    Json → Except Fault α
  | array items =>
    let room := if items.length ≤ keys.length then .ok () else .fault keys.length tooLong
    (room *> read (keys.zip items)).toExcept
  | object members =>
    let once := match repeated? keys [] 0 members with
      | none => .ok ()
      | some position => .fault position .misshapen
    (once *> read members).toExcept
  | j => .error j.unwanted

/-- Reads the member of a key, or does otherwise if there is none. -/
def fieldOr (decode : Json → Except Fault α) (missing : Reading α) (key : String)
    (members : Members) : Reading α :=
  match members.lookup key with
  | some j => Except.mapError (members.findIdx (·.1 == key), ·) (decode j)
  | none => missing

/-- Reads a field that has to be there. If it is not, that shows at the end of the record. -/
def field (decode : Json → Except Fault α) (key : String) (members : Members) : Reading α :=
  fieldOr decode (.fault members.length .misshapen) key members

/-- Reads a field that may be left out, with what is read in its place. -/
def fieldD (decode : Json → Except Fault α) (default : α) (key : String) (members : Members) :
    Reading α :=
  fieldOr decode (.ok default) key members

end Json

end Tabletop
