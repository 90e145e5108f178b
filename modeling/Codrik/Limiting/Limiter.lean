import Mathlib.Order.Lattice

/-! Limits on failed attempts: failures are counted in a window that starts at the first of them,
and the last one that is let pass starts a block.
-/

namespace Codrik.Limiting

/-- What an attempt counts as. -/
inductive Verdict
  | success
  | failure
  | neither
deriving DecidableEq

/-- What is remembered of past attempts. -/
inductive Limiter (τ : Type)
  | idle
  | counting (since : τ) (failures : Nat)
  | blocked (ends : τ)
deriving DecidableEq

namespace Limiter

variable {τ : Type} [LinearOrder τ] (expiry : τ → τ) (cap : Nat)

/-- The failures are counted up to `cap`; windows and blocks end at the `expiry` of the time they
start at.
-/
def after (limiter : Limiter τ) (now : τ) : Verdict → Limiter τ
  | .success => idle
  | .neither => limiter
  | .failure =>
      match limiter with
      | counting since failures =>
          if now < expiry since then
            if failures + 1 < cap then counting since (failures + 1) else blocked (expiry now)
          else
            counting now 1
      | _ => counting now 1

/-- The end of the block, if an attempt at this time falls into one. -/
def blockedAt (now : τ) : Limiter τ → Option τ
  | blocked ends => if now < ends then some ends else none
  | _ => none

/-- The window or block is over. -/
def Lapsed (now : τ) : Limiter τ → Prop
  | idle => True
  | counting since _ => expiry since ≤ now
  | blocked ends => ends ≤ now

/-- Two memories that make no difference any more. -/
def Agree (now : τ) (a b : Limiter τ) : Prop := a = b ∨ (a.Lapsed expiry now ∧ b.Lapsed expiry now)

variable {expiry} {cap}

/-- What is over stays over. -/
theorem Lapsed.later {now later : τ} {limiter : Limiter τ} (lapsed : limiter.Lapsed expiry now)
    (le : now ≤ later)
    : limiter.Lapsed expiry later := by
  cases limiter with
  | idle => trivial
  | counting since failures => exact le_trans lapsed le
  | blocked ends => exact le_trans lapsed le

/-- No attempt is blocked by what is over. -/
theorem Lapsed.not_blocked {now : τ} {limiter : Limiter τ} (lapsed : limiter.Lapsed expiry now)
    : limiter.blockedAt now = none := by
  cases limiter with
  | idle => rfl
  | counting since failures => rfl
  | blocked ends => exact if_neg (not_lt.mpr lapsed)

/-- The count starts again when the window or the block is over. -/
theorem Lapsed.after_failure {now : τ} {limiter : Limiter τ} (lapsed : limiter.Lapsed expiry now)
    : limiter.after expiry cap now .failure = counting now 1 := by
  cases limiter with
  | idle => rfl
  | counting since failures => exact if_neg (not_lt.mpr lapsed)
  | blocked ends => rfl

theorem Agree.refl (now : τ) (a : Limiter τ) : Agree expiry now a a := Or.inl rfl

theorem Agree.symm {now : τ} {a b : Limiter τ} (agree : Agree expiry now a b)
    : Agree expiry now b a :=
  agree.imp Eq.symm And.symm

theorem Agree.trans {now : τ} {a b c : Limiter τ} (first : Agree expiry now a b)
    (second : Agree expiry now b c)
    : Agree expiry now a c := by
  rcases first with rfl | ⟨lapsed, lapsed'⟩
  · exact second
  · rcases second with rfl | ⟨-, lapsed''⟩
    · exact Or.inr ⟨lapsed, lapsed'⟩
    · exact Or.inr ⟨lapsed, lapsed''⟩

theorem Agree.later {now later : τ} {a b : Limiter τ} (agree : Agree expiry now a b)
    (le : now ≤ later)
    : Agree expiry later a b :=
  agree.imp_right (fun lapsed => ⟨lapsed.1.later le, lapsed.2.later le⟩)

/-- Memories that agree block the same attempts. -/
theorem Agree.blockedAt {now : τ} {a b : Limiter τ} (agree : Agree expiry now a b)
    : a.blockedAt now = b.blockedAt now := by
  rcases agree with rfl | ⟨lapsed, lapsed'⟩
  · rfl
  · rw [lapsed.not_blocked, lapsed'.not_blocked]

/-- Memories that agree still do after an attempt. -/
theorem Agree.after {now : τ} {a b : Limiter τ} (agree : Agree expiry now a b)
    (verdict : Verdict)
    : Agree expiry now (a.after expiry cap now verdict) (b.after expiry cap now verdict) := by
  cases verdict with
  | success => exact Or.inl rfl
  | neither => exact agree
  | failure =>
      left
      rcases agree with rfl | ⟨lapsed, lapsed'⟩
      · rfl
      · rw [lapsed.after_failure, lapsed'.after_failure]

end Limiter

end Codrik.Limiting
