import Mathlib.Tactic.TypeStar

/-! Labelled transition systems: reachable states, runs, and runs whose steps all meet a
condition on the state before the step and its label.
-/

namespace Codrik.Transition

/-- A system is given by its initial states and its labelled steps. -/
structure System (σ ι : Type*) where
  Initial : σ → Prop
  Step : σ → ι → σ → Prop

namespace System

variable {σ ι : Type*}

/-- The states some finite sequence of steps leads to from an initial state. -/
inductive Reachable (sys : System σ ι) : σ → Prop
  | initial {s} (start : sys.Initial s) : sys.Reachable s
  | step {s label t} (before : sys.Reachable s) (taken : sys.Step s label t)
    : sys.Reachable t

/-- `sys.Run s t` holds when a finite sequence of steps leads from `s` to `t`. -/
inductive Run (sys : System σ ι) (s : σ) : σ → Prop
  | refl : sys.Run s s
  | step {t label u} (before : sys.Run s t) (taken : sys.Step t label u) : sys.Run s u

/-- The system that takes only the steps meeting `allowed`. -/
def restrict (sys : System σ ι) (allowed : σ → ι → Prop) : System σ ι where
  Initial := sys.Initial
  Step s label t := allowed s label ∧ sys.Step s label t

/-- The system that also keeps a record of what its steps show, newest last. -/
def recording {α : Type*} (sys : System σ ι) (shows : σ → ι → σ → List α)
    : System (σ × List α) ι where
  Initial s := sys.Initial s.1 ∧ s.2 = []
  Step s label t := sys.Step s.1 label t.1 ∧ t.2 = s.2 ++ shows s.1 label t.1

variable {sys : System σ ι}

/-- An invariant that holds initially and survives each step from a reachable state holds
of every reachable state, by induction on the run.
-/
theorem Reachable.invariant {J : σ → Prop}
    (start : ∀ s, sys.Initial s → J s)
    (preserved
      : ∀ s label t, sys.Reachable s → J s → sys.Step s label t → J t)
    {s : σ} (reached : sys.Reachable s)
    : J s := by
  induction reached with
  | initial initial => exact start _ initial
  | step before taken ih => exact preserved _ _ _ before ih taken

/-- A property kept by every step from a reachable state is kept by every run. -/
theorem Run.invariant {J : σ → Prop}
    (preserved
      : ∀ s label t, sys.Reachable s → J s → sys.Step s label t → J t)
    {s t : σ} (reached : sys.Reachable s) (run : sys.Run s t) (holds : J s)
    : sys.Reachable t ∧ J t := by
  induction run with
  | refl => exact ⟨reached, holds⟩
  | step _ taken ih => exact ⟨.step ih.1 taken, preserved _ _ _ ih.1 ih.2 taken⟩

/-- A property kept by every step is kept by every run, from whatever state it starts. -/
theorem Run.kept {J : σ → Prop}
    (preserved : ∀ s label t, J s → sys.Step s label t → J t)
    {s t : σ} (run : sys.Run s t) (holds : J s)
    : J t := by
  induction run with
  | refl => exact holds
  | step _ taken ih => exact preserved _ _ _ ih taken

/-- Runs extend reachability. -/
theorem Reachable.run {s t : σ} (reached : sys.Reachable s) (run : sys.Run s t)
    : sys.Reachable t :=
  (run.invariant (fun _ _ _ _ (kept : True) _ => kept) reached trivial).1

/-- Restricting the steps reaches no new state. -/
theorem Reachable.of_restrict {allowed : σ → ι → Prop} {s : σ}
    (reached : (sys.restrict allowed).Reachable s)
    : sys.Reachable s := by
  induction reached with
  | initial start => exact .initial start
  | step _ taken ih => exact .step ih taken.2

/-- A run of the restricted system is a run. -/
theorem Run.of_restrict {allowed : σ → ι → Prop} {s t : σ} (run : (sys.restrict allowed).Run s t)
    : sys.Run s t := by
  induction run with
  | refl => exact .refl
  | step _ taken ih => exact .step ih taken.2

/-- Recording reaches no new state. -/
theorem Reachable.of_recording {α : Type*} {shows : σ → ι → σ → List α} {s : σ × List α}
    (reached : (sys.recording shows).Reachable s)
    : sys.Reachable s.1 := by
  induction reached with
  | initial start => exact .initial start.1
  | step _ taken ih => exact .step ih taken.1

/-- Every reachable state is reached with some record, by induction on the run. -/
theorem Reachable.recorded {α : Type*} (shows : σ → ι → σ → List α) {s : σ}
    (reached : sys.Reachable s)
    : ∃ log, (sys.recording shows).Reachable (s, log) := by
  induction reached with
  | initial start => exact ⟨[], .initial ⟨start, rfl⟩⟩
  | @step s label t _ taken ih =>
      obtain ⟨log, recorded⟩ := ih
      have next : (sys.recording shows).Step (s, log) label (t, log ++ shows s label t) :=
        ⟨taken, rfl⟩
      exact ⟨_, .step recorded next⟩

/-- What the restricted system records, the system records. -/
theorem Reachable.recording_of_restrict {α : Type*} {shows : σ → ι → σ → List α}
    {allowed : σ → ι → Prop} {s : σ × List α}
    (reached : ((sys.restrict allowed).recording shows).Reachable s)
    : (sys.recording shows).Reachable s := by
  induction reached with
  | initial start => exact .initial start
  | step _ taken ih => exact .step ih ⟨taken.1.2, taken.2⟩

/-- Runs compose. -/
theorem Run.trans {s t u : σ} (first : sys.Run s t) (second : sys.Run t u)
    : sys.Run s u := by
  induction second with
  | refl => exact first
  | step _ taken ih => exact .step ih taken

/-- Calls made one after another lead to a reachable state, by induction on the calls. -/
theorem Reachable.foldlM {perform : σ → ι → Option σ}
    (steps : ∀ s call t, perform s call = some t → sys.Step s call t) {calls : List ι} {s t : σ}
    (reached : sys.Reachable s) (made : calls.foldlM perform s = some t)
    : sys.Reachable t := by
  induction calls generalizing s with
  | nil =>
      cases made
      exact reached
  | cons call rest ih =>
      rw [List.foldlM_cons] at made
      obtain ⟨middle, first, later⟩ := Option.bind_eq_some_iff.mp made
      exact ih (.step reached (steps s call middle first)) later

end System

end Codrik.Transition
