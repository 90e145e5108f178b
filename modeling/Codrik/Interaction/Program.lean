import Mathlib.Logic.Relation

/-! Programs that ask their surroundings for answers, and what they promise while others
change the state between two of their operations.
-/

namespace Codrik.Interaction

-----------------------------------------------------------------------------------------
-- Programs
-----------------------------------------------------------------------------------------

/-- The operations a program may perform and the answers it gets. -/
structure Interface where
  Op : Type
  Answer : Op → Type

/-- A program has a result, or performs an operation and goes on with the answer. -/
inductive Program (I : Interface) (α : Type)
  | done (value : α)
  | perform (op : I.Op) (next : I.Answer op → Program I α)

namespace Program

variable {I : Interface} {α β γ : Type}

/-- One program after another, by recursion on the first. -/
def bind : Program I α → (α → Program I β) → Program I β
  | .done value, next => next value
  | .perform op rest, next => .perform op (fun answer => (rest answer).bind next)

instance : Monad (Program I) where
  pure := .done
  bind := .bind

/-- The program that performs one operation and returns its answer. -/
def ask (op : I.Op) : Program I (I.Answer op) := .perform op .done

@[simp] theorem pure_eq (value : α) : (pure value : Program I α) = .done value := rfl

@[simp] theorem done_bind (value : α) (next : α → Program I β)
    : (.done value : Program I α) >>= next = next value := rfl

@[simp] theorem perform_bind (op : I.Op) (rest : I.Answer op → Program I α)
    (next : α → Program I β)
    : (.perform op rest : Program I α) >>= next = .perform op (fun answer => rest answer >>= next) :=
  rfl

end Program

-----------------------------------------------------------------------------------------
-- Contracts
-----------------------------------------------------------------------------------------

/-- What a program is run under: how operations are answered and change the state, what
others may do to the state in between, and what the program promises of each operation.
-/
structure Contract (I : Interface) (σ : Type*) where
  Answers : σ → (op : I.Op) → I.Answer op → σ → Prop
  Relies : σ → σ → Prop
  Guarantees : σ → (op : I.Op) → I.Answer op → σ → Prop

namespace Contract

variable {I : Interface} {σ : Type*} {α β : Type} (contract : Contract I σ)

/-- The states others may lead to. -/
def Drifts : σ → σ → Prop := Relation.ReflTransGen contract.Relies

/-- What others cannot invalidate. -/
def Stable (P : σ → Prop) : Prop := ∀ s t, P s → contract.Relies s t → P t

variable {contract}

/-- Others do not invalidate a stable fact, by induction on what they do. -/
theorem Stable.drifts {P : σ → Prop} (stable : contract.Stable P) {s t : σ}
    (drifts : contract.Drifts s t) (holds : P s)
    : P t := by
  induction drifts with
  | refl => exact holds
  | tail _ step ih => exact stable _ _ ih step

theorem Stable.and {P Q : σ → Prop} (first : contract.Stable P) (second : contract.Stable Q)
    : contract.Stable (fun s => P s ∧ Q s) :=
  fun s t holds step => ⟨first s t holds.1 step, second s t holds.2 step⟩

theorem Stable.exists {ι : Type*} {P : ι → σ → Prop} (each : ∀ i, contract.Stable (P i))
    : contract.Stable (fun s => ∃ i, P i s) :=
  fun s t holds step => holds.imp (fun i here => each i s t here step)

theorem Stable.const (p : Prop) : contract.Stable (fun _ => p) :=
  fun _ _ holds _ => holds

end Contract

namespace Program

variable {I : Interface} {σ : Type*} {α β : Type} {contract : Contract I σ}

/-- From the state the program keeps the contract, whatever others do between its operations,
and when it is done its result satisfies the postcondition.
-/
def Meets (contract : Contract I σ) (post : α → σ → Prop) : Program I α → σ → Prop
  | .done value, s => post value s
  | .perform op next, s =>
      ∀ t, contract.Drifts s t → ∀ answer u, contract.Answers t op answer u →
        contract.Guarantees t op answer u ∧ (next answer).Meets contract post u

/-- A postcondition may be weakened, by induction on the program. -/
theorem Meets.mono {post post' : α → σ → Prop} {program : Program I α} {s : σ}
    (meets : program.Meets contract post s) (weaker : ∀ value t, post value t → post' value t)
    : program.Meets contract post' s := by
  induction program generalizing s with
  | done value => exact weaker value s meets
  | perform op next ih =>
      intro t drifts answer u answered
      obtain ⟨guaranteed, rest⟩ := meets t drifts answer u answered
      exact ⟨guaranteed, ih answer rest⟩

/-- One program after another: the second starts where the first left the state, by induction
on the first.
-/
theorem Meets.bind {mid : α → σ → Prop} {post : β → σ → Prop} {program : Program I α}
    {next : α → Program I β} {s : σ} (first : program.Meets contract mid s)
    (second : ∀ value t, mid value t → (next value).Meets contract post t)
    : (program >>= next).Meets contract post s := by
  induction program generalizing s with
  | done value => exact second value s first
  | perform op rest ih =>
      intro t drifts answer u answered
      obtain ⟨guaranteed, others⟩ := first t drifts answer u answered
      exact ⟨guaranteed, ih answer others⟩

/-- An operation starts in whatever state a stable fact allows. -/
theorem Meets.perform {P : σ → Prop} {post : α → σ → Prop} {op : I.Op}
    {next : I.Answer op → Program I α} {s : σ} (stable : contract.Stable P) (holds : P s)
    (answers
      : ∀ t, P t → ∀ answer u, contract.Answers t op answer u →
        contract.Guarantees t op answer u ∧ (next answer).Meets contract post u)
    : (Program.perform op next).Meets contract post s :=
  fun t drifts answer u answered => answers t (stable.drifts drifts holds) answer u answered

/-- Others do not invalidate what a program promises, by cases on the program. -/
theorem Meets.drift {post : α → σ → Prop} {program : Program I α} {s t : σ}
    (meets : program.Meets contract post s)
    (stable : ∀ value, contract.Stable (post value)) (step : contract.Relies s t)
    : program.Meets contract post t := by
  cases program with
  | done value => exact stable value s t meets step
  | perform op next =>
      intro u drifts answer v answered
      exact meets u (.head step drifts) answer v answered

end Program

end Codrik.Interaction
