import Codrik.Interaction.Program
import Codrik.Transition.System
import Mathlib.Logic.Function.Basic

/-! A service runs at most one program for each key at a time over a shared state. What each
program promises the others bounds what the others may expect of the state.
-/

namespace Codrik.Interaction

open Codrik.Transition

-----------------------------------------------------------------------------------------
-- Services
-----------------------------------------------------------------------------------------

/-- The shared state and the programs under way. -/
structure Configuration (I : Interface) (α : Type) (κ σ : Type*) where
  state : σ
  sessions : κ → Option (Program I α)

/-- The steps of a service: something from outside, or a session that starts, performs its
next operation, finishes or is lost.
-/
inductive Move (I : Interface) (α : Type) (κ ι : Type*)
  | outside (label : ι)
  | start (key : κ) (program : Program I α)
  | perform (key : κ) (op : I.Op) (answer : I.Answer op)
  | finish (key : κ) (value : α)
  | crash (key : κ)

structure Service (I : Interface) (α : Type) (κ σ ι : Type*) where
  Initial : σ → Prop
  Outside : σ → ι → σ → Prop
  Launches : κ → Program I α → Prop
  Answers : σ → (op : I.Op) → I.Answer op → σ → Prop

namespace Service

variable {I : Interface} {α : Type} {κ σ ι : Type*} [DecidableEq κ]

/-- What a move does to a configuration. -/
def Step (service : Service I α κ σ ι) (c : Configuration I α κ σ)
    : Move I α κ ι → Configuration I α κ σ → Prop
  | .outside label, c' =>
      service.Outside c.state label c'.state ∧ c'.sessions = c.sessions
  | .start key program, c' =>
      service.Launches key program ∧ c.sessions key = none ∧ c'.state = c.state
        ∧ c'.sessions = Function.update c.sessions key (some program)
  | .perform key op answer, c' =>
      ∃ next, c.sessions key = some (.perform op next)
        ∧ service.Answers c.state op answer c'.state
        ∧ c'.sessions = Function.update c.sessions key (some (next answer))
  | .finish key value, c' =>
      c.sessions key = some (.done value) ∧ c'.state = c.state
        ∧ c'.sessions = Function.update c.sessions key none
  | .crash key, c' =>
      c'.state = c.state ∧ c'.sessions = Function.update c.sessions key none

/-- All runs of a service. -/
def system (service : Service I α κ σ ι)
    : System (Configuration I α κ σ) (Move I α κ ι) where
  Initial c := service.Initial c.state ∧ ∀ key, c.sessions key = none
  Step := service.Step

end Service

-----------------------------------------------------------------------------------------
-- Soundness
-----------------------------------------------------------------------------------------

/-- What is to be shown of a service whose moves are `allowed`: an invariant of the state, and
contracts that the programs keep and that fit together.
-/
structure Certificate {I : Interface} {α : Type} {κ σ ι : Type*} (service : Service I α κ σ ι)
    (allowed : Configuration I α κ σ → Move I α κ ι → Prop)
    (invariant : σ → Prop) (contract : κ → Contract I σ) (post : κ → α → σ → Prop) : Prop where
  initial : ∀ s, service.Initial s → invariant s
  launched : ∀ key program s, service.Launches key program → invariant s →
    program.Meets (contract key) (post key) s
  answers : ∀ (c : Configuration I α κ σ) key op answer t,
    allowed c (.perform key op answer) → invariant c.state →
    service.Answers c.state op answer t → (contract key).Answers c.state op answer t
  outside : ∀ (c : Configuration I α κ σ) label t, allowed c (.outside label) →
    invariant c.state → service.Outside c.state label t →
    invariant t ∧ ∀ key, (contract key).Relies c.state t
  performs : ∀ s key op answer t, invariant s → service.Answers s op answer t →
    (contract key).Guarantees s op answer t →
    invariant t ∧ ∀ other, other ≠ key → (contract other).Relies s t
  stable : ∀ key value, (contract key).Stable (post key value)

namespace Certificate

variable {I : Interface} {α : Type} {κ σ ι : Type*} [DecidableEq κ]
    {service : Service I α κ σ ι} {allowed : Configuration I α κ σ → Move I α κ ι → Prop}
    {invariant : σ → Prop} {contract : κ → Contract I σ} {post : κ → α → σ → Prop}

/-- The invariant holds, and every session keeps its contract from here on. -/
def Sound (invariant : σ → Prop) (contract : κ → Contract I σ) (post : κ → α → σ → Prop)
    (c : Configuration I α κ σ) : Prop :=
  invariant c.state ∧ ∀ key program, c.sessions key = some program →
    program.Meets (contract key) (post key) c.state

/-- A session that performs an operation keeps its contract with it. -/
theorem guaranteed (certificate : Certificate service allowed invariant contract post)
    {c : Configuration I α κ σ} (sound : Sound invariant contract post c) {key : κ} {op : I.Op}
    {answer : I.Answer op} {t : σ} (permitted : allowed c (.perform key op answer))
    {next : I.Answer op → Program I α} (running : c.sessions key = some (.perform op next))
    (answered : service.Answers c.state op answer t)
    : (contract key).Guarantees c.state op answer t
      ∧ (next answer).Meets (contract key) (post key) t :=
  sound.2 key _ running c.state .refl answer t
    (certificate.answers c key op answer t permitted sound.1 answered)

/-- One move of the service keeps all contracts, by cases on the move. -/
theorem step (certificate : Certificate service allowed invariant contract post)
    {c c' : Configuration I α κ σ} {move : Move I α κ ι}
    (sound : Sound invariant contract post c) (permitted : allowed c move)
    (taken : service.Step c move c')
    : Sound invariant contract post c' := by
  cases move with
  | outside label =>
      obtain ⟨happened, same⟩ := taken
      obtain ⟨holds, relies⟩ := certificate.outside c label _ permitted sound.1 happened
      refine ⟨holds, fun key program running => ?_⟩
      rw [same] at running
      exact (sound.2 key program running).drift (certificate.stable key) (relies key)
  | start key program =>
      obtain ⟨launched, -, sameState, same⟩ := taken
      rw [Sound, sameState]
      refine ⟨sound.1, fun other running started => ?_⟩
      rw [same] at started
      by_cases here : other = key
      · subst here
        rw [Function.update_self] at started
        cases started
        exact certificate.launched other program _ launched sound.1
      · rw [Function.update_of_ne here] at started
        exact sound.2 other running started
  | perform key op answer =>
      obtain ⟨next, running, answered, same⟩ := taken
      obtain ⟨guaranteed, rest⟩ := certificate.guaranteed sound permitted running answered
      obtain ⟨holds, relies⟩ := certificate.performs _ key op answer _ sound.1 answered guaranteed
      refine ⟨holds, fun other program started => ?_⟩
      rw [same] at started
      by_cases here : other = key
      · subst here
        rw [Function.update_self] at started
        cases started
        exact rest
      · rw [Function.update_of_ne here] at started
        exact (sound.2 other program started).drift (certificate.stable other)
          (relies other here)
  | finish key value =>
      obtain ⟨-, sameState, same⟩ := taken
      rw [Sound, sameState]
      refine ⟨sound.1, fun other program started => ?_⟩
      rw [same] at started
      by_cases here : other = key
      · rw [here, Function.update_self] at started
        cases started
      · rw [Function.update_of_ne here] at started
        exact sound.2 other program started
  | crash key =>
      obtain ⟨sameState, same⟩ := taken
      rw [Sound, sameState]
      refine ⟨sound.1, fun other program started => ?_⟩
      rw [same] at started
      by_cases here : other = key
      · rw [here, Function.update_self] at started
        cases started
      · rw [Function.update_of_ne here] at started
        exact sound.2 other program started

/-- In every run of the allowed moves all contracts are kept, by induction on the run. -/
theorem reachable (certificate : Certificate service allowed invariant contract post)
    {c : Configuration I α κ σ} (reached : (service.system.restrict allowed).Reachable c)
    : Sound invariant contract post c := by
  induction reached with
  | initial start =>
      obtain ⟨initial, idle⟩ := start
      refine ⟨certificate.initial _ initial, fun key program running => ?_⟩
      rw [idle key] at running
      cases running
  | step _ taken ih => exact certificate.step ih taken.1 taken.2

end Certificate

end Codrik.Interaction
