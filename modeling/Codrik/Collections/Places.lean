import Mathlib.Algebra.BigOperators.Group.List.Basic
import Mathlib.Algebra.GroupWithZero.Nat

/-! Lists that change at one place, and what their elements add up to. -/

namespace Codrik.Collections

variable {α : Type*} {f : α → Nat} {items : List α} {number : Nat} {a : α}

/-- One place of a list, and what stands there after a change, by induction on the list. -/
theorem exists_set (found : items[number]? = some a)
    : ∃ before after, items = before ++ a :: after
      ∧ ∀ b, items.set number b = before ++ b :: after := by
  induction items generalizing number with
  | nil => cases found
  | cons head rest ih =>
      cases number with
      | zero =>
          cases found
          exact ⟨[], rest, rfl, fun _ => rfl⟩
      | succ number =>
          obtain ⟨before, after, same, changed⟩ := ih found
          refine ⟨head :: before, after, by rw [same]; rfl, ?_⟩
          intro b
          rw [List.set_cons_succ, changed]
          rfl

/-- A change at one place replaces what the element there counts for. -/
theorem sum_map_set {b : α} (found : items[number]? = some a)
    : ((items.set number b).map f).sum + f a = (items.map f).sum + f b := by
  obtain ⟨before, after, same, changed⟩ := exists_set found
  rw [changed, same]
  simp only [List.map_append, List.map_cons, List.sum_append, List.sum_cons]
  omega

/-- Chosen elements that count for something each, by induction on the list. -/
theorem countP_mul_le_sum {p : α → Bool} {least : Nat} (items : List α)
    (each : ∀ a, p a = true → least ≤ f a)
    : items.countP p * least ≤ (items.map f).sum := by
  induction items with
  | nil => exact Nat.zero_mul least ▸ Nat.zero_le _
  | cons a rest ih =>
      rw [List.countP_cons, List.map_cons, List.sum_cons, Nat.add_mul]
      have counted : (if p a = true then 1 else 0) * least ≤ f a := by
        split
        case isTrue chosen => simpa using each a chosen
        case isFalse => simp
      omega

end Codrik.Collections
