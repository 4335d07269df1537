import Tabletop.Document.Basic
import Tabletop.Json.Decode
import Tabletop.Json.Printer
import Tabletop.Json.Reader
import Tabletop.Number.Layout

/-!
# Documents as JSON

The grammar of documents, in both directions. Keys are written in a fixed order; they are read in
any order, and unknown ones are skipped.

## Parts that are looked at as a whole

A value, the amount of an effect, a turn and an end condition can take more than one form. The
whole part is looked at before a form is chosen, so a flaw anywhere in it is a fault, even under a
key that is then skipped. Only the word that says which turn it is has to be one of the known words
as soon as it is met. An amount is read as a record first and as a literal otherwise. An end
condition is read in its participant form first; only a turn count refuses unknown keys, so that a
participant form with a field missing does not pass for one.

## Numbers

A whole number below nine times ten to the fifteenth is written as an integer, every other one
with a point or an exponent. What is not finite is written as `null`.
-/

namespace Tabletop

/-! ## Writing -/

/-- The tree of a number. -/
def Number.toJson (x : Number) : Json :=
  match x.toInt? with
  | some i => if i.natAbs < 9 * tenTo 15 then .integer i else .real x.document
  | none => if x.isFinite then .real x.document else .null

/-- The tree of a value. -/
def Value.toJson : Value → Json
  | .boolean b => .boolean b
  | .number x => x.toJson
  | .text s => .string s

/-- The tree of a list of names. -/
def Json.ofNames (names : List String) : Json := .array (names.map Json.string)

/-- The tree of a turn. -/
def Turn.toJson : Turn → Json
  | .act user action targets =>
    .object [("turn", .string "action"), ("user", .string user), ("action", .string action),
      ("targets", .ofNames targets)]
  | .say speaker text =>
    .object [("turn", .string "speech"), ("speaker", .string speaker), ("text", .string text)]

namespace Document

/-- The tree of an attribute. -/
def AttributeRow.toJson (r : AttributeRow) : Json :=
  .object [("name", .string r.name), ("value type", .string r.kind)]

/-- The tree of a flat change. -/
def FlatRow.toJson (r : FlatRow) : Json :=
  .object [("modifier", .string r.sign), ("value", r.magnitude.toJson)]

/-- The tree of an amount drawn from an attribute. -/
def DrawRow.toJson (r : DrawRow) : Json :=
  .object [("attribute", .string r.source), ("attribute owner", .string r.owner),
    ("modifier", .string r.combine), ("value", r.operand.toJson),
    ("flat", (r.flat.map FlatRow.toJson).getD .null)]

/-- The tree of an amount. -/
def AmountRow.toJson : AmountRow → Json
  | .drawn r => r.toJson
  | .literal value => value.toJson

/-- The tree of a condition. -/
def ConditionRow.toJson (r : ConditionRow) : Json :=
  .object [("attribute", .string r.attr), ("attribute owner", .string r.owner),
    ("comparison", .string r.comparator), ("value", r.value.toJson)]

/-- The tree of an effect. -/
def EffectRow.toJson (r : EffectRow) : Json :=
  .object [("attribute", .string r.attr), ("effect type", .string r.scope),
    ("modifier", .string r.modifier), ("value", r.amount.toJson),
    ("condition", (r.condition.map ConditionRow.toJson).getD .null)]

/-- The tree of an action. -/
def ActionRow.toJson (r : ActionRow) : Json :=
  .object [("name", .string r.name), ("effects", .array (r.effects.map EffectRow.toJson))]

/-- The tree of a slot. -/
def SlotRow.toJson (r : SlotRow) : Json :=
  .object [("name", .string r.attr), ("value type", .string r.kind), ("value", r.value.toJson)]

/-- The tree of an entity. -/
def EntityRow.toJson (r : EntityRow) : Json :=
  .object [("name", .string r.name), ("attributes", .array (r.slots.map SlotRow.toJson)),
    ("actions", .ofNames r.actions)]

/-- The tree of an end condition. -/
def EndingRow.toJson : EndingRow → Json
  | .participant name attr comparator value =>
    .object [("participant", .string name), ("attribute", .string attr),
      ("comparison", .string comparator), ("value", value.toJson)]
  | .turnCount comparator count =>
    .object [("comparison", .string comparator), ("value", .integer count.toNat)]

/-- The tree of an event. -/
def EventRow.toJson (r : EventRow) : Json :=
  .object [("name", .string r.name), ("participants", .ofNames r.participants),
    ("script", .array (r.script.map Turn.toJson)), ("end condition", r.ending.toJson)]

/-- The tree of a document. Events are left out when there are none. -/
def toJson (d : Document) : Json :=
  .object ([("name", .string d.name), ("attributes", .array (d.attributes.map AttributeRow.toJson)),
    ("actions", .array (d.actions.map ActionRow.toJson)),
    ("entities", .array (d.entities.map EntityRow.toJson))] ++
    if d.events.isEmpty then [] else [("events", .array (d.events.map EventRow.toJson))])

/-- The text of a document. -/
def print (d : Document) : String := d.toJson.pretty

end Document

/-! ## Reading -/

namespace Json

/-- Reads a list of names. -/
def asNames : Json → Except Fault (List String) := asList asString

/-- Reads a literal. -/
def asLiteral : Json → Except Fault Value
  | boolean b => .ok (.boolean b)
  | string s => .ok (.text s)
  | j => j.asNumber.map .number

/-- Reads a value. -/
def asValue (j : Json) : Except Fault Value := do
  j.ensureSound
  j.asLiteral

/-- Reads the count of a turn count, an integer of thirty-two bits. -/
def asCount : Json → Except Fault UInt32
  | integer i => do
    require .misshapen (0 ≤ i && i < UInt32.size)
    return UInt32.ofNat i.toNat
  | _ => .error .misshapen

/-- What a turn is read from, by the word that says which turn it is. Nothing for another word. -/
def turnOfWord? : String → Option (Json → Except Fault Turn)
  | "action" => some (asRecord .misshapen ["user", "action", "targets"] fun r ↦
      Turn.act <$> field asString "user" r <*> field asString "action" r <*>
        fieldD asNames [] "targets" r)
  | "speech" => some (asRecord .misshapen ["speaker", "text"] fun r ↦
      Turn.say <$> field asString "speaker" r <*> field asString "text" r)
  | _ => none

/-- Reads the word that says which turn it is. -/
def asTurnWord (j : Json) : Except Fault (Json → Except Fault Turn) := do
  need .misshapen (turnOfWord? (← j.asString))

/-- Makes sure that no member of a turn is flawed, its word apart. -/
def ensureSoundTurn (members : Members) : Reading Unit :=
  match members.findIdx? fun (key, j) ↦ key != "turn" && !j.isSound with
  | none => .ok ()
  | some position => .fault position .malformed

/-- Reads a turn. As an array, it begins with the word that says which turn it is, and the word is
read before the rest is looked at. -/
def asTurn : Json → Except Fault Turn
  | array [] => .error .misshapen
  | array (word :: items) => do
    let read ← asTurnWord word
    ensureSound (array items)
    read (array items)
  | object members => do
    let once := match repeated? ["turn"] [] 0 members with
      | none => .ok ()
      | some position => .fault position .misshapen
    let read ← (once *> ensureSoundTurn members *> field asTurnWord "turn" members).toExcept
    read (object (members.filter (·.1 != "turn")))
  | j => .error j.unwanted

end Json

namespace Document

open Json

/-- Reads an attribute. -/
def AttributeRow.ofJson : Json → Except Fault AttributeRow :=
  asRecord .malformed ["name", "value type"] fun r ↦
    AttributeRow.mk <$> field asString "name" r <*> field asString "value type" r

/-- Reads a flat change. -/
def FlatRow.ofJson : Json → Except Fault FlatRow :=
  asRecord .misshapen ["modifier", "value"] fun r ↦
    FlatRow.mk <$> field asString "modifier" r <*> field asNumber "value" r

/-- Reads an amount drawn from an attribute. -/
def DrawRow.ofJson : Json → Except Fault DrawRow :=
  asRecord .misshapen ["attribute", "attribute owner", "modifier", "value", "flat"] fun r ↦
    DrawRow.mk <$> field asString "attribute" r <*> field asString "attribute owner" r <*>
      field asString "modifier" r <*> field asNumber "value" r <*>
      fieldD (asOption FlatRow.ofJson) none "flat" r

/-- Reads an amount: drawn from an attribute if it can be read so, a literal otherwise. -/
def AmountRow.ofJson (j : Json) : Except Fault AmountRow := do
  j.ensureSound
  match DrawRow.ofJson j with
  | .ok r => return .drawn r
  | .error _ => return .literal (← j.asLiteral)

/-- Reads a condition. -/
def ConditionRow.ofJson : Json → Except Fault ConditionRow :=
  asRecord .malformed ["attribute", "attribute owner", "comparison", "value"] fun r ↦
    ConditionRow.mk <$> field asString "attribute" r <*> field asString "attribute owner" r <*>
      field asString "comparison" r <*> field asValue "value" r

/-- Reads an effect. -/
def EffectRow.ofJson : Json → Except Fault EffectRow :=
  asRecord .malformed ["attribute", "effect type", "modifier", "value", "condition"] fun r ↦
    EffectRow.mk <$> field asString "attribute" r <*> field asString "effect type" r <*>
      field asString "modifier" r <*> field AmountRow.ofJson "value" r <*>
      fieldD (asOption ConditionRow.ofJson) none "condition" r

/-- Reads an action. -/
def ActionRow.ofJson : Json → Except Fault ActionRow :=
  asRecord .malformed ["name", "effects"] fun r ↦
    ActionRow.mk <$> field asString "name" r <*> field (asList EffectRow.ofJson) "effects" r

/-- Reads a slot. -/
def SlotRow.ofJson : Json → Except Fault SlotRow :=
  asRecord .malformed ["name", "value type", "value"] fun r ↦
    SlotRow.mk <$> field asString "name" r <*> field asString "value type" r <*>
      field asValue "value" r

/-- Reads an entity. -/
def EntityRow.ofJson : Json → Except Fault EntityRow :=
  asRecord .malformed ["name", "attributes", "actions"] fun r ↦
    EntityRow.mk <$> field asString "name" r <*>
      fieldD (asList SlotRow.ofJson) [] "attributes" r <*> fieldD asNames [] "actions" r

/-- Reads an end condition on a participant. -/
def EndingRow.participantOfJson : Json → Except Fault EndingRow :=
  asRecord .misshapen ["participant", "attribute", "comparison", "value"] fun r ↦
    EndingRow.participant <$> field asString "participant" r <*> field asString "attribute" r <*>
      field asString "comparison" r <*> field asLiteral "value" r

/-- Reads an end condition on the number of turns, which has no other keys than its own. -/
def EndingRow.turnCountOfJson (j : Json) : Except Fault EndingRow := do
  let keys := ["comparison", "value"]
  match j with
  | object members => require .misshapen (members.all (keys.contains ·.1))
  | _ => pure ()
  j.asRecord .misshapen keys fun r ↦
    EndingRow.turnCount <$> field asString "comparison" r <*> field asCount "value" r

/-- Reads an end condition: on a participant if it can be read so, on the number of turns
otherwise. -/
def EndingRow.ofJson (j : Json) : Except Fault EndingRow := do
  j.ensureSound
  match EndingRow.participantOfJson j with
  | .ok r => return r
  | .error _ => EndingRow.turnCountOfJson j

/-- Reads an event. -/
def EventRow.ofJson : Json → Except Fault EventRow :=
  asRecord .malformed ["name", "participants", "script", "end condition"] fun r ↦
    EventRow.mk <$> field asString "name" r <*> fieldD asNames [] "participants" r <*>
      fieldD (asList asTurn) [] "script" r <*> field EndingRow.ofJson "end condition" r

/-- Reads a document. -/
def ofJson : Json → Except Fault Document :=
  asRecord .malformed ["name", "attributes", "actions", "entities", "events"] fun r ↦
    Document.mk <$> field asString "name" r <*>
      fieldD (asList AttributeRow.ofJson) [] "attributes" r <*>
      fieldD (asList ActionRow.ofJson) [] "actions" r <*>
      fieldD (asList EntityRow.ofJson) [] "entities" r <*>
      fieldD (asList EventRow.ofJson) [] "events" r

/-- Reads the text of a document. -/
def ofText (s : String) : Except Fault Document := do
  ofJson (← need .malformed (Json.ofText? s))

end Document

end Tabletop
