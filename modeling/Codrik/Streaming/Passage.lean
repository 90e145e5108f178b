import Mathlib.Data.List.Perm.Basic

/-! How items pass from where they are published to one that follows them, when several
publishers carry them there at the same time.
-/

namespace Codrik.Streaming

variable {α : Type}

/-- The items that were published, those that are under way, publisher by publisher, and those
that arrived.
-/
structure Passage (α : Type) where
  published : List α
  underway : List α
  arrived : List α

/-- One step of the passage to a follower that is `joined` or not. When it is `alone`, a
publisher that has items under way is the only one.
-/
inductive Passage.Step (alone joined : Prop) : Passage α → Passage α → Prop
  | still (p : Passage α) : Step alone joined p p
  | published {before after items published arrived : List α} (here : joined)
      (only : alone → items ≠ [] → before = [] ∧ after = [])
    : Step alone joined ⟨published, before ++ after, arrived⟩
        ⟨published ++ items, before ++ (items ++ after), arrived⟩
  | missed {underway published arrived : List α} (items : List α) (left : ¬joined)
    : Step alone joined ⟨published, underway, arrived⟩ ⟨published ++ items, underway, arrived⟩
  | arrived {before after items published arrived : List α}
      (only : alone → items ≠ [] → before = [] ∧ after = [])
    : Step alone joined ⟨published, before ++ (items ++ after), arrived⟩
        ⟨published, before ++ after, arrived ++ items⟩

namespace Passage

variable {p p' : Passage α} {alone joined joined' : Prop}

/-- Nothing arrives that was not published, and nothing arrives twice. -/
def Conserved (p : Passage α) : Prop :=
  (p.arrived ++ p.underway).Subperm p.published

/-- The items arrive in the order they are published, and all of them while the follower is
there.
-/
structure Ordered (joined : Prop) (p : Passage α) : Prop where
  inOrder : p.arrived ++ p.underway <+: p.published
  complete : joined → p.arrived ++ p.underway = p.published

/-- Items that move past others make the same list up to its order. -/
theorem perm_move (before items after : List α)
    : (before ++ (items ++ after)).Perm (items ++ (before ++ after)) := by
  have swapped : (before ++ items).Perm (items ++ before) := List.perm_append_comm
  simpa only [List.append_assoc] using swapped.append_right after

/-- Items with nothing beside them make the same list wherever they are. -/
theorem append_only {before items after : List α}
    (only : items ≠ [] → before = [] ∧ after = [])
    : before ++ (items ++ after) = items ++ (before ++ after)
      ∧ before ++ (items ++ after) = before ++ after ++ items := by
  by_cases none : items = []
  · subst none
    simp
  · obtain ⟨rfl, rfl⟩ := only none
    simp

/-- Every step conserves the items. -/
theorem Conserved.step (conserved : p.Conserved) (step : p.Step alone joined p')
    : p'.Conserved := by
  cases step with
  | still => exact conserved
  | @published before after items published arrived here only =>
      have moved : (arrived ++ (before ++ (items ++ after))).Perm
          (arrived ++ (before ++ after) ++ items) := by
        have last : (items ++ (before ++ after)).Perm ((before ++ after) ++ items) :=
          List.perm_append_comm
        simpa only [List.append_assoc] using
          ((perm_move before items after).trans last).append_left arrived
      exact moved.subperm.trans ((List.subperm_append_right items).mpr conserved)
  | missed items left =>
      exact List.Subperm.trans conserved (List.sublist_append_left _ _).subperm
  | @arrived before after items published arrived only =>
      have moved : ((arrived ++ items) ++ (before ++ after)).Perm
          (arrived ++ (before ++ (items ++ after))) := by
        simpa only [List.append_assoc] using
          (perm_move before items after).symm.append_left arrived
      exact moved.subperm.trans conserved

/-- A follower that leaves has what arrived in order. -/
theorem Ordered.leave (ordered : p.Ordered joined) (leaves : joined' → joined)
    : p.Ordered joined' :=
  ⟨ordered.inOrder, fun stays => ordered.complete (leaves stays)⟩

/-- Every step of publishers that take turns keeps the order. -/
theorem Ordered.step (ordered : p.Ordered joined) (turns : alone)
    (step : p.Step alone joined p')
    : p'.Ordered joined := by
  cases step with
  | still => exact ordered
  | @published before after items published arrived here only =>
      have complete : arrived ++ (before ++ (items ++ after)) = published ++ items := by
        have before := ordered.complete here
        simp only at before
        rw [(append_only (only turns)).2, ← List.append_assoc, before]
      exact ⟨complete ▸ List.prefix_refl _, fun _ => complete⟩
  | missed items left =>
      exact ⟨ordered.inOrder.trans (List.prefix_append _ _), fun here => absurd here left⟩
  | @arrived before after items published arrived only =>
      have same : (arrived ++ items) ++ (before ++ after)
          = arrived ++ (before ++ (items ++ after)) := by
        rw [(append_only (only turns)).1, List.append_assoc]
      exact ⟨same ▸ ordered.inOrder, fun here => same.trans (ordered.complete here)⟩

/-- What arrived is the beginning of what was published, in some order. -/
theorem Conserved.exists_order (conserved : p.Conserved)
    : ∃ order, order.Perm p.published ∧ p.arrived <+: order := by
  obtain ⟨middle, perm, sublist⟩ := conserved
  obtain ⟨rest, whole⟩ := sublist.exists_perm_append
  have parts : (p.arrived ++ (p.underway ++ rest)).Perm (middle ++ rest) := by
    rw [← List.append_assoc]
    exact (perm.append_right rest).symm
  exact ⟨_, parts.trans whole.symm, List.prefix_append _ _⟩

end Passage

end Codrik.Streaming
