/-!
# Rows

Rows are kept in a list, and a row is found from the front. Two small tools that go with that:
changing the first row that fits, and insisting on something that may be missing.
-/

namespace Tabletop

/-- The list with the first member that satisfies `p` changed by `f`. -/
def changeFirst (p : α → Bool) (f : α → α) : List α → List α
  | [] => []
  | a :: as => if p a then f a :: as else a :: changeFirst p f as

/-- Changing a member keeps the length. -/
@[simp] theorem length_changeFirst (p : α → Bool) (f : α → α) (as : List α) :
    (changeFirst p f as).length = as.length := by
  induction as with
  | nil => rfl
  | cons a as ih => by_cases h : p a <;> simp [changeFirst, h, ih]

/-- What is there, or the error if nothing is. -/
def need (error : ε) : Option α → Except ε α
  | some a => .ok a
  | none => .error error

/-- The error unless the condition holds. -/
def require (error : ε) (condition : Bool) : Except ε Unit :=
  if condition then .ok () else .error error

end Tabletop
