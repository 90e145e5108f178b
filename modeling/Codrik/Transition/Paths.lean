import Codrik.Transition.System

/-! Runs with the labels of their steps, and progress that is counted in steps of one kind. -/

namespace Codrik.Transition.System

variable {σ ι : Type*} {sys : System σ ι}

/-- The labels of a run, in order. -/
inductive Path (sys : System σ ι) (s : σ) : List ι → σ → Prop
  | nil : sys.Path s [] s
  | snoc {labels t label u} (before : sys.Path s labels t) (taken : sys.Step t label u)
    : sys.Path s (labels ++ [label]) u

theorem Path.run {s t : σ} {labels : List ι} (path : sys.Path s labels t) : sys.Run s t := by
  induction path with
  | nil => exact .refl
  | snoc _ taken ih => exact .step ih taken

/-- Something that is due within some steps of one kind, and that every step brings no
further away, is due within as many fewer steps as a run has taken, by induction on the run.
-/
theorem Path.countdown {due : σ → Nat → Prop} {own : ι → Bool}
    (counts : ∀ s label t n, sys.Reachable s → due s n → sys.Step s label t →
      due t (n - (if own label then 1 else 0)))
    {s t : σ} {labels : List ι} {n : Nat} (reached : sys.Reachable s)
    (path : sys.Path s labels t) (start : due s n)
    : due t (n - labels.countP own) := by
  induction path with
  | nil => exact start
  | @snoc labels t label u before taken ih =>
      have next := counts t label u _ (reached.run before.run) ih taken
      rwa [Nat.sub_sub, show labels.countP own + (if own label then 1 else 0)
        = (labels ++ [label]).countP own by simp [List.countP_append, List.countP_cons]] at next

end Codrik.Transition.System
