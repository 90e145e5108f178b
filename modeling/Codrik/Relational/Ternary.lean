/-! The three-valued logic of SQL conditions: a comparison with NULL is neither true nor
false, and a WHERE clause keeps only the rows whose condition is true.
-/

namespace Codrik.Relational

/-- A truth value, where `none` is NULL. -/
abbrev Ternary := Option Bool

namespace Ternary

def and : Ternary → Ternary → Ternary
  | some false, _ => some false
  | _, some false => some false
  | some true, some true => some true
  | _, _ => none

def not : Ternary → Ternary :=
  Option.map Bool.not

/-- `a = b` on columns that may be NULL -/
def eq {α : Type} [DecidableEq α] : Option α → Option α → Ternary
  | some a, some b => some (decide (a = b))
  | _, _ => none

/-- The rows a WHERE clause keeps. -/
def IsTrue (value : Ternary) : Prop := value = some true

instance (value : Ternary) : Decidable value.IsTrue :=
  inferInstanceAs (Decidable (value = some true))

/-- A conjunction is refuted by one part that is false, whatever the other one is. -/
theorem isTrue_not_and {a b : Ternary}
    : (not (and a b)).IsTrue ↔ a = some false ∨ b = some false := by
  rcases a with _ | _ | _ <;> rcases b with _ | _ | _ <;> simp [not, and, IsTrue]

/-- Two columns differ for certain only when both are known. -/
theorem eq_eq_false {α : Type} [DecidableEq α] {a b : Option α}
    : eq a b = some false ↔ a ≠ none ∧ b ≠ none ∧ a ≠ b := by
  rcases a with _ | a <;> rcases b with _ | b <;> simp [eq]

end Ternary

end Codrik.Relational
