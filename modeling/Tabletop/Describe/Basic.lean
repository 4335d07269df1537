import Tabletop.Action.Basic
import Tabletop.Event

/-!
# Descriptions

One-line texts of effects, turns and end conditions, and the cards of entities and events, which
take several lines. A text value stands between quotes, so that it is told apart from a number.
-/

namespace Tabletop

/-- Several lines, each with its line end. -/
def unlines (lines : List String) : String := String.join (lines.map (· ++ "\n"))

/-- Names with commas between them. -/
def commaSeparated (names : List String) : String := ", ".intercalate names

/-! ## Rules -/

/-- The text of an amount drawn from an attribute. -/
def Draw.describe (d : Draw) : String :=
  let base := s!"{d.owner.word}.{d.source} {d.combine.word} {d.operand.display}"
  match d.flat with
  | some flat => s!"{base} {flat.sign.word} {flat.magnitude.display}"
  | none => base

/-- The text of an amount. -/
def Amount.describe : Amount → String
  | literal value => value.described
  | drawn d => d.describe

/-- The text of a condition. -/
def Condition.describe (c : Condition) : String :=
  s!"{c.owner.word}.{c.attr} {c.comparator.word} {c.value.described}"

/-- The text of an effect. -/
def Effect.describe (e : Effect) : String :=
  let base := s!"{e.attr} ({e.scope.word}) {e.modifier.word} {e.amount.describe}"
  match e.condition with
  | some c => s!"{base} if {c.describe}"
  | none => base

/-! ## Events -/

/-- The text of a turn. -/
def Turn.describe : Turn → String
  | act user action targets => s!"{user} uses {action} on [{commaSeparated targets}]"
  | say speaker text => s!"{speaker} says '{text}'"

/-- The text of an end condition. -/
def EndCondition.describe : EndCondition → String
  | turnCount comparator count => s!"turns {comparator.word} {count.toNat}"
  | participant name attr comparator value =>
    s!"{name}.{attr} {comparator.word} {value.described}"

/-! ## Cards -/

/-- The line of a slot on a card. -/
def Slot.cardLine (s : Slot) : String := s!"  {s.attr} ({s.kind.word}): {s.value.described}"

/-- The card of an entity. -/
def Entity.card (e : Entity) : String :=
  let actions := if e.actions.isEmpty then "none" else commaSeparated e.actions
  unlines (e.name :: e.slots.map Slot.cardLine ++ [s!"  Actions: {actions}"])

/-- The line of one attribute of an entity, if the entity has it. -/
def Entity.line? (e : Entity) (attr : String) : Option String :=
  (e.value? attr).map fun value ↦ s!"{e.name} {attr}: {value.display}"

/-- The card of an event. -/
def Event.card (e : Event) : String :=
  let title :=
    e.name ++ " [" ++ e.status.word ++ s!", turn {e.turnIndex}/{e.script.length}" ++ "]"
  let turns := e.script.zipIdx.map fun (turn, i) ↦ s!"  {i + 1}. {turn.describe}"
  let failures := e.failure.toList.map fun failure ↦ s!"  Failed: {failure.message}"
  unlines
    ([title, s!"  Participants: {commaSeparated e.participants}",
      s!"  Ends when: {e.ending.describe}"] ++ turns ++ failures)

end Tabletop
