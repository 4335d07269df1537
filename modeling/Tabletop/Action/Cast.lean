import Tabletop.Entity

/-!
# Casts

The working copies of the entities that take part in an action: the user first, then each other
target in the order of its first mention. An entity that is named twice, or a user that targets
itself, shares one copy, so a change through one mention is seen through the other.
-/

namespace Tabletop

/-- The copies an action works on. -/
structure Cast where
  /-- One copy for each name, the user at the front. -/
  members : List Entity
  /-- For each mention of a target, where its copy stands. -/
  targets : List Nat
deriving DecidableEq, Repr

namespace Cast

/-- Mentions one more target. -/
def mention (c : Cast) (target : Entity) : Cast :=
  match c.members.findIdx? (·.name == target.name) with
  | some i => ⟨c.members, c.targets ++ [i]⟩
  | none => ⟨c.members ++ [target], c.targets ++ [c.members.length]⟩

/-- The cast of a user and its targets. -/
def ofTargets (user : Entity) (targets : List Entity) : Cast := targets.foldl mention ⟨[user], []⟩

/-- The place of the user. -/
def userPlace : Nat := 0

/-- Puts a copy back in its place. -/
def set (c : Cast) (place : Nat) (e : Entity) : Cast := { c with members := c.members.set place e }

end Cast

end Tabletop
