import Tabletop.Number.Numeral
import Tabletop.RuleSet.Edit
import Tabletop.Vocabulary.Read

/-!
# Tokens of the console

How rules are written on one line. An effect is `attribute:scope:modifier:value`, a value of an
entity is `attribute=value`, and an action it may use is `+action`. The words `true` and `false`
are truth values, what reads as a number is one, and everything else is text.
-/

namespace Tabletop

/-- What a token was to be. -/
inductive TokenRole where
  /-- An effect of an action. -/
  | effect
  /-- An action that an entity may use. -/
  | grant
  /-- A value of an entity. -/
  | slot
deriving DecidableEq, Repr

/-- The name of a role. -/
def TokenRole.word : TokenRole → String
  | effect => "effect"
  | grant => "action grant"
  | slot => "attribute value"

/-- Why tokens could not be used. -/
inductive TokenError where
  /-- A token is not written as its role asks. -/
  | malformed (role : TokenRole) (token : String)
  /-- There is no table of the name. -/
  | unknownTable (word : String)
  /-- The rules refuse what the tokens say. -/
  | rule (error : RuleError)
deriving DecidableEq, Repr

/-- The text of an error. -/
def TokenError.message : TokenError → String
  | malformed role token => s!"malformed {role.word}: {token}"
  | unknownTable word => s!"unknown table {word}, expected attribute, action, entity or event"
  | rule error => error.message

/-- The text before and the text after the first separator. -/
def cut? (separator : Char) (s : String) : Option (String × String) :=
  match s.toList.dropWhile (· != separator) with
  | [] => none
  | _ :: rest => some (String.ofList (s.toList.takeWhile (· != separator)), String.ofList rest)

/-- The value that a token stands for. -/
def Value.ofToken (token : String) : Value :=
  if token = "true" then .boolean true
  else if token = "false" then .boolean false
  else match Number.ofText? token with
    | some x => .number x
    | none => .text token

/-- Reads the name of a table. -/
def RowKind.ofToken (token : String) : Except TokenError RowKind :=
  need (.unknownTable token) (ofWord? token)

/-- The four parts of an effect. The last one takes every colon after the third. -/
def effectParts? (token : String) : Option (String × String × String × String) := do
  let (attr, rest) ← cut? ':' token
  let (scope, rest) ← cut? ':' rest
  let (modifier, value) ← cut? ':' rest
  if attr.isEmpty then none else some (attr, scope, modifier, value)

/-- Reads an effect. It assigns, adds or multiplies by a value as it stands, under no condition. -/
def Effect.ofToken (token : String) : Except TokenError Effect := do
  let (attr, scope, modifier, value) ← need (.malformed .effect token) (effectParts? token)
  let scope ← (Scope.read scope).mapError .rule
  let modifier ← (Modifier.read modifier).mapError .rule
  return ⟨attr, scope, modifier, .literal (.ofToken value), none⟩

/-- The kind of an attribute that is not defined, going by a value for it. -/
def Shape.kind : Shape → Kind
  | number => .number
  | text => .text
  | boolean => .boolean

/-- Reads a value of an entity, under the kind of its attribute if that is defined. -/
def RuleSet.slotOfToken (w : RuleSet) (token : String) : Except TokenError Slot := do
  let (attr, raw) ← need (.malformed .slot token) (cut? '=' token)
  let value := Value.ofToken raw
  let kind := ((w.attributes.get? attr).map AttributeDef.kind).getD value.shape.kind
  return ⟨attr, kind, value⟩

/-- A part of an entity. -/
inductive EntityPart where
  /-- A value. -/
  | slot (slot : Slot)
  /-- An action it may use. -/
  | grant (action : String)
deriving DecidableEq, Repr

/-- The slot a part is, if it is one. -/
def EntityPart.slot? : EntityPart → Option Slot
  | slot s => some s
  | grant _ => none

/-- The action a part grants, if it does. -/
def EntityPart.grant? : EntityPart → Option String
  | slot _ => none
  | grant action => some action

/-- Reads a part of an entity. -/
def RuleSet.entityPartOfToken (w : RuleSet) (token : String) : Except TokenError EntityPart :=
  match token.toList with
  | '+' :: action =>
    if action.isEmpty then .error (.malformed .grant token)
    else .ok (.grant (String.ofList action))
  | _ => (w.slotOfToken token).map .slot

/-- Reads the parts of an entity: its values and its actions, each in their order. -/
def RuleSet.entityPartsOfTokens (w : RuleSet) (tokens : List String) :
    Except TokenError (List Slot × List String) := do
  let parts ← tokens.mapM w.entityPartOfToken
  return (parts.filterMap EntityPart.slot?, parts.filterMap EntityPart.grant?)

end Tabletop
