import Codrik.Interaction.Program

/-! Single runs of a program among others: the exchanges it has with the state, and what a
contract that the program meets says of them.
-/

namespace Codrik.Interaction

/-- An operation that a program performs: the state it finds, its answer, and the state it
leaves.
-/
structure Exchange (I : Interface) (σ : Type*) where
  before : σ
  op : I.Op
  answer : I.Answer op
  after : σ

namespace Program

variable {I : Interface} {σ : Type*} {α β : Type} {between : σ → σ → Prop}
  {answers : Exchange I σ → Prop}

/-- The runs of a program from a state: its exchanges, the value it ends with, unless it is cut
off, and the state it leaves. Others may change the state between two exchanges.
-/
inductive Runs (between : σ → σ → Prop) (answers : Exchange I σ → Prop)
    : Program I α → σ → List (Exchange I σ) → Option α → σ → Prop
  | done (value : α) (s : σ) : Runs between answers (.done value) s [] (some value) s
  | cut (program : Program I α) (s : σ) : Runs between answers program s [] none s
  | other {program : Program I α} {s t u : σ} {exchanges : List (Exchange I σ)}
      {result : Option α} (change : between s t)
      (rest : Runs between answers program t exchanges result u)
    : Runs between answers program s exchanges result u
  | perform {exchange : Exchange I σ} {next : I.Answer exchange.op → Program I α} {u : σ}
      {exchanges : List (Exchange I σ)} {result : Option α} (answered : answers exchange)
      (rest : Runs between answers (next exchange.answer) exchange.after exchanges result u)
    : Runs between answers (.perform exchange.op next) exchange.before (exchange :: exchanges)
        result u

/-- What holds of a step of others and of an exchange holds of the states of a run, by induction
on the run.
-/
theorem Runs.preserves {P : σ → Prop} {program : Program I α} {s t : σ}
    {exchanges : List (Exchange I σ)} {result : Option α}
    (runs : Runs between answers program s exchanges result t)
    (others : ∀ s t, between s t → P s → P t)
    (each : ∀ exchange ∈ exchanges, answers exchange → P exchange.before → P exchange.after)
    (holds : P s)
    : (∀ exchange ∈ exchanges, P exchange.before ∧ P exchange.after) ∧ P t := by
  induction runs with
  | done value s => exact ⟨fun _ mem => (List.not_mem_nil mem).elim, holds⟩
  | cut program s => exact ⟨fun _ mem => (List.not_mem_nil mem).elim, holds⟩
  | other change _ ih => exact ih each (others _ _ change holds)
  | @perform exchange next u exchanges result answered _ ih =>
      have after := each exchange List.mem_cons_self answered holds
      obtain ⟨within, afterwards⟩ := ih (fun other mem => each other (List.mem_cons_of_mem _ mem))
        after
      refine ⟨fun other mem => ?_, afterwards⟩
      rcases List.mem_cons.mp mem with rfl | later
      · exact ⟨holds, after⟩
      · exact within other later

/-- The exchanges of a run are answered as the state answers. -/
theorem Runs.answered {program : Program I α} {s t : σ} {exchanges : List (Exchange I σ)}
    {result : Option α} (runs : Runs between answers program s exchanges result t)
    : ∀ exchange ∈ exchanges, answers exchange := by
  induction runs with
  | done value s => exact fun _ mem => (List.not_mem_nil mem).elim
  | cut program s => exact fun _ mem => (List.not_mem_nil mem).elim
  | other _ _ ih => exact ih
  | perform answered _ ih =>
      intro other mem
      rcases List.mem_cons.mp mem with rfl | later
      · exact answered
      · exact ih other later

/-- A run of a program that meets a contract keeps it, by induction on the run: the program
guarantees what it promised of each exchange, and its value satisfies the postcondition.
-/
theorem Runs.meets {contract : Contract I σ} {post : α → σ → Prop} {program : Program I α}
    {s t : σ} {exchanges : List (Exchange I σ)} {result : Option α}
    (runs : Runs between answers program s exchanges result t)
    (relies : ∀ s t, between s t → contract.Relies s t)
    (sound
      : ∀ exchange ∈ exchanges, answers exchange →
        contract.Answers exchange.before exchange.op exchange.answer exchange.after)
    (stable : ∀ value, contract.Stable (post value)) (meets : program.Meets contract post s)
    : (∀ exchange ∈ exchanges,
        contract.Guarantees exchange.before exchange.op exchange.answer exchange.after)
      ∧ ∀ value, result = some value → post value t := by
  induction runs with
  | done value s =>
      refine ⟨fun _ mem => (List.not_mem_nil mem).elim, fun other same => ?_⟩
      cases same
      exact meets
  | cut program s =>
      exact ⟨fun _ mem => (List.not_mem_nil mem).elim, fun _ same => by cases same⟩
  | other change _ ih => exact ih sound (meets.drift stable (relies _ _ change))
  | @perform exchange next u exchanges result answered _ ih =>
      obtain ⟨guaranteed, rest⟩ := meets exchange.before .refl exchange.answer exchange.after
        (sound exchange List.mem_cons_self answered)
      obtain ⟨within, afterwards⟩ := ih (fun other mem => sound other (List.mem_cons_of_mem _ mem))
        rest
      refine ⟨fun other mem => ?_, afterwards⟩
      rcases List.mem_cons.mp mem with rfl | later
      · exact guaranteed
      · exact within other later

/-- A finished run of a program that is done has no exchanges. -/
theorem Runs.of_done {value value' : α} {s t : σ} {exchanges : List (Exchange I σ)}
    (runs : Runs between answers (.done value) s exchanges (some value') t)
    : exchanges = [] ∧ value' = value := by
  generalize start : Program.done value = program at runs
  generalize finish : some value' = result at runs
  induction runs with
  | done value s =>
      cases start
      cases finish
      exact ⟨rfl, rfl⟩
  | cut program s => cases finish
  | other _ _ ih => exact ih start finish
  | perform => cases start

/-- A finished run of a program that performs an operation starts with it. -/
theorem Runs.of_perform {op : I.Op} {next : I.Answer op → Program I α} {value : α} {s t : σ}
    {exchanges : List (Exchange I σ)}
    (runs : Runs between answers (.perform op next) s exchanges (some value) t)
    : ∃ before answer after rest, exchanges = ⟨before, op, answer, after⟩ :: rest
      ∧ answers ⟨before, op, answer, after⟩
      ∧ Runs between answers (next answer) after rest (some value) t := by
  generalize start : Program.perform op next = program at runs
  generalize finish : some value = result at runs
  induction runs with
  | done value s => cases start
  | cut program s => cases finish
  | other _ _ ih => exact ih start finish
  | @perform exchange next u exchanges result answered rest =>
      cases start
      cases finish
      exact ⟨exchange.before, exchange.answer, exchange.after, exchanges, rfl, answered, rest⟩

/-- A run whose exchanges are answered in a narrower way is a run under it. -/
theorem Runs.narrow {answers' : Exchange I σ → Prop} {program : Program I α} {s t : σ}
    {exchanges : List (Exchange I σ)} {result : Option α}
    (runs : Runs between answers program s exchanges result t)
    (each : ∀ exchange ∈ exchanges, answers exchange → answers' exchange)
    : Runs between answers' program s exchanges result t := by
  induction runs with
  | done value s => exact .done value s
  | cut program s => exact .cut program s
  | other change _ ih => exact .other change (ih each)
  | perform answered _ ih =>
      exact .perform (each _ List.mem_cons_self answered)
        (ih (fun other mem => each other (List.mem_cons_of_mem _ mem)))

/-- Where every operation is answered, a program has a finished run, by induction on it. -/
theorem exists_run (total : ∀ s op, ∃ answer after, answers ⟨s, op, answer, after⟩)
    (program : Program I α) (s : σ)
    : ∃ exchanges value t, program.Runs between answers s exchanges (some value) t := by
  induction program generalizing s with
  | done value => exact ⟨[], value, s, .done value s⟩
  | perform op next ih =>
      obtain ⟨answer, after, answered⟩ := total s op
      obtain ⟨exchanges, value, t, rest⟩ := ih answer after
      exact ⟨⟨s, op, answer, after⟩ :: exchanges, value, t,
        Runs.perform answered rest⟩

-----------------------------------------------------------------------------------------
-- Programs that fail where they must
-----------------------------------------------------------------------------------------

variable {ε : Type} {fine : σ → I.Op → Prop}

/-- A finished run of the program is successful just when every operation was fine where it was
performed.
-/
def FailsWhere (between : σ → σ → Prop) (answers : Exchange I σ → Prop) (fine : σ → I.Op → Prop)
    (program : Program I (Except ε α))
    : Prop :=
  ∀ s exchanges value t, program.Runs between answers s exchanges (some value) t →
    ((∃ outcome, value = .ok outcome) ↔ ∀ exchange ∈ exchanges, fine exchange.before exchange.op)

/-- A program that is done well has nothing to fail at. -/
theorem FailsWhere.done (outcome : α)
    : FailsWhere (ε := ε) between answers fine (.done (.ok outcome)) := by
  intro s exchanges value t runs
  obtain ⟨rfl, rfl⟩ := runs.of_done
  exact ⟨fun _ _ mem => (List.not_mem_nil mem).elim, fun _ => ⟨outcome, rfl⟩⟩

/-- A program fails where it must if it fails at once after an operation that was not fine, and
goes on like that after one that was.
-/
theorem FailsWhere.perform {op : I.Op} {next : I.Answer op → Program I (Except ε α)}
    (good
      : ∀ before answer after, answers ⟨before, op, answer, after⟩ → fine before op →
        FailsWhere between answers fine (next answer))
    (bad
      : ∀ before answer after, answers ⟨before, op, answer, after⟩ → ¬fine before op →
        ∃ error, next answer = .done (.error error))
    : FailsWhere between answers fine (.perform op next) := by
  intro s exchanges value t runs
  obtain ⟨before, answer, after, rest, rfl, answered, later⟩ := runs.of_perform
  by_cases here : fine before op
  · have goesOn := good before answer after answered here _ _ _ _ later
    rw [goesOn]
    refine ⟨fun each exchange mem => ?_, fun each exchange mem =>
      each exchange (List.mem_cons_of_mem _ mem)⟩
    rcases List.mem_cons.mp mem with rfl | mem
    · exact here
    · exact each exchange mem
  · obtain ⟨error, stops⟩ := bad before answer after answered here
    rw [stops] at later
    obtain ⟨-, rfl⟩ := later.of_done
    refine ⟨fun ⟨_, well⟩ => (by cases well), fun each => ?_⟩
    exact absurd (each _ List.mem_cons_self) here

-----------------------------------------------------------------------------------------
-- What runs fail over
-----------------------------------------------------------------------------------------

/-- A finished run of the program that fails had an exchange to blame. -/
def FailsOver (between : σ → σ → Prop) (answers blamed : Exchange I σ → Prop)
    (program : Program I (Except ε α))
    : Prop :=
  ∀ s exchanges error t, program.Runs between answers s exchanges (some (.error error)) t →
    ∃ exchange ∈ exchanges, blamed exchange

variable {blamed : Exchange I σ → Prop}

theorem FailsOver.done (outcome : α)
    : FailsOver (ε := ε) between answers blamed (.done (.ok outcome)) := by
  intro s exchanges error t runs
  obtain ⟨-, failed⟩ := runs.of_done
  cases failed

/-- An operation is to blame, or what comes after it. -/
theorem FailsOver.perform {op : I.Op} {next : I.Answer op → Program I (Except ε α)}
    (each
      : ∀ before answer after, answers ⟨before, op, answer, after⟩ →
        blamed ⟨before, op, answer, after⟩ ∨ FailsOver between answers blamed (next answer))
    : FailsOver between answers blamed (.perform op next) := by
  intro s exchanges error t runs
  obtain ⟨before, answer, after, rest, rfl, answered, later⟩ := runs.of_perform
  rcases each before answer after answered with here | goesOn
  · exact ⟨_, List.mem_cons_self, here⟩
  · obtain ⟨exchange, mem, blame⟩ := goesOn _ _ _ _ later
    exact ⟨exchange, List.mem_cons_of_mem _ mem, blame⟩

-----------------------------------------------------------------------------------------
-- The operations of a program
-----------------------------------------------------------------------------------------

/-- The program performs such operations only. -/
def Asks (allowed : I.Op → Prop) : Program I α → Prop
  | .done _ => True
  | .perform op next => allowed op ∧ ∀ answer, (next answer).Asks allowed

/-- The exchanges of a run are over the operations of the program, by induction on the run. -/
theorem Runs.asks {allowed : I.Op → Prop} {program : Program I α} {s t : σ}
    {exchanges : List (Exchange I σ)} {result : Option α}
    (runs : Runs between answers program s exchanges result t) (asks : program.Asks allowed)
    : ∀ exchange ∈ exchanges, allowed exchange.op := by
  induction runs with
  | done value s => exact fun _ mem => (List.not_mem_nil mem).elim
  | cut program s => exact fun _ mem => (List.not_mem_nil mem).elim
  | other _ _ ih => exact ih asks
  | perform _ _ ih =>
      intro other mem
      rcases List.mem_cons.mp mem with rfl | later
      · exact asks.1
      · exact ih (asks.2 _) other later

-----------------------------------------------------------------------------------------
-- What runs make once
-----------------------------------------------------------------------------------------

/-- What exchanges make is there from then on, and where it is there, none is made. -/
structure MadeOnce (between : σ → σ → Prop) (answers : Exchange I σ → Prop)
    (made : Exchange I σ → List β) (Present : σ → Prop)
    : Prop where
  kept : ∀ s t, between s t → Present s → Present t
  present : ∀ exchange, answers exchange → Present exchange.before →
    made exchange = [] ∧ Present exchange.after
  absent : ∀ exchange, answers exchange →
    (made exchange).length ≤ 1 ∧ (made exchange ≠ [] → Present exchange.after)

/-- A run makes one at most, which is there afterwards, and none where it is there before, by
induction on the run.
-/
theorem Runs.makes {made : Exchange I σ → List β} {Present : σ → Prop}
    (once : MadeOnce between answers made Present) {program : Program I α} {s t : σ}
    {exchanges : List (Exchange I σ)} {result : Option α}
    (runs : Runs between answers program s exchanges result t)
    : (Present s → exchanges.flatMap made = [] ∧ Present t)
      ∧ (exchanges.flatMap made).length ≤ 1
      ∧ (exchanges.flatMap made ≠ [] → Present t) := by
  induction runs with
  | done value s => exact ⟨fun here => ⟨rfl, here⟩, Nat.zero_le 1, fun some => absurd rfl some⟩
  | cut program s => exact ⟨fun here => ⟨rfl, here⟩, Nat.zero_le 1, fun some => absurd rfl some⟩
  | other change _ ih => exact ⟨fun here => ih.1 (once.kept _ _ change here), ih.2⟩
  | @perform exchange next u exchanges result answered _ ih =>
      obtain ⟨single, appears⟩ := once.absent exchange answered
      rw [List.flatMap_cons]
      by_cases none : made exchange = []
      · rw [none, List.nil_append]
        exact ⟨fun here => ih.1 (once.present exchange answered here).2, ih.2⟩
      · obtain ⟨noMore, there⟩ := ih.1 (appears none)
        rw [noMore, List.append_nil]
        exact ⟨fun here => absurd (once.present exchange answered here).1 none, single,
          fun _ => there⟩

end Program

end Codrik.Interaction
