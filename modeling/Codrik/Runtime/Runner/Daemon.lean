import Codrik.Interaction.Sessions
import Codrik.Runtime.Runner
import Codrik.Runtime.Sqlite.Elsewhere

/-! The daemon: one dispatcher for each actor, which runs one quantum after another, beside
ingress, delivery, heartbeats and recovery (`runtime/dispatcher.rs`, `runtime/service.rs`).
-/

namespace Codrik.Runtime.Runner

open Codrik.Interaction
open Codrik.Runtime.Sqlite
open Codrik.Transition

-----------------------------------------------------------------------------------------
-- The daemon
-----------------------------------------------------------------------------------------

/-- The calls made outside of the quanta's own programs: by ingress, by the delivery of
bundles, by heartbeat tasks and by the staging of artifacts, and at start and end of the
service.
-/
def OutsideCall : Call → Prop
  | .ingest _ _ _ | .submitForActor _ _ _ _ | .cancelForActor _ _ _ _ | .ingestWebhook _ _ _
  | .renewLease _ _ _ | .beginStaging _ | .deliverBundle _ | .recoverStartup _
  | .recoverShutdown _ _ _ => True
  | _ => False

instance : DecidablePred OutsideCall
  | .ingest .. | .submitForActor .. | .cancelForActor .. | .ingestWebhook ..
  | .renewLease .. | .beginStaging .. | .deliverBundle .. | .recoverStartup ..
  | .recoverShutdown .. => inferInstanceAs (Decidable True)
  | .acquireReadyActor .. | .acquireReadyActorFor .. | .releaseLease .. | .attachNextRun ..
  | .newerControlEvent .. | .checkpointRun .. | .finalizeRun .. | .cancelRun ..
  | .prepareAttempt .. | .markAttemptRunning .. | .rejectPreparedAttempt ..
  | .finishAttempt .. | .recoverAttempt .. | .blockUnknownAttempt .. | .unresolvedAttempts ..
  | .commitStagedExecution .. | .recordFailure .. | .recordProgress .. =>
      inferInstanceAs (Decidable False)

/-- How a quantum ends. -/
abbrev QuantumResult : Type := Except QuantumFailure QuantumReport

/-- The instance lock allows one daemon, which has one dispatcher for each actor, so no two
quanta of an actor overlap. Limits and tools may differ from one start to the next.
-/
def daemon : Service Ops QuantumResult ActorId World Call where
  Initial w := ∃ actors identities, w = World.initial actors identities
  Outside w call w' := OutsideCall call ∧ w.Admissible call ∧ w' = w.after call
  Launches actorId program := ∃ runner owner, program = runQuantum runner actorId owner
  Answers := Answers

/-- The configurations of the daemon. -/
abbrev Daemon : Type := Configuration Ops QuantumResult ActorId World

/-- The moves of the daemon. -/
abbrev DaemonMove : Type := Move Ops QuantumResult ActorId Call

/-- The moves whose operations are permitted. -/
def Performing (permitted : World → Op → Prop) (c : Daemon) : DaemonMove → Prop
  | .perform _ op _ => permitted c.state op
  | _ => True

-----------------------------------------------------------------------------------------
-- What quanta promise and rely on
-----------------------------------------------------------------------------------------

/-- The call presents the work of no other actor. -/
def ForActor (actorId : ActorId) (w : World) (call : Call) : Prop :=
  (∀ presented, call.actor? = some presented → presented = actorId)
    ∧ ∀ id, call = .recoverAttempt id → ∀ attempt ∈ w.store.toolAttempts, attempt.id = id →
      ∀ run ∈ w.store.runs, run.id = attempt.runId → run.actorId = actorId

/-- The call does not present the work of the actor. -/
def Elsewhere (actorId : ActorId) (w : World) (call : Call) : Prop :=
  call.actor? ≠ some actorId
    ∧ ∀ id, call = .recoverAttempt id → ∀ attempt ∈ w.store.toolAttempts, attempt.id = id →
      ∀ run ∈ w.store.runs, run.id = attempt.runId → run.actorId ≠ actorId

theorem ForActor.elsewhere {actorId other : ActorId} {w : World} {call : Call}
    (own : ForActor actorId w call) (different : other ≠ actorId)
    : Elsewhere other w call :=
  ⟨fun presents => different (own.1 other presents),
    fun id same attempt stored sameId run known sameRun isOther =>
      different (isOther.symm.trans (own.2 id same attempt stored sameId run known sameRun))⟩

theorem OutsideCall.elsewhere {actorId : ActorId} {w : World} {call : Call}
    (outside : OutsideCall call)
    : Elsewhere actorId w call := by
  cases call <;> first
    | exact outside.elim
    | exact ⟨by simp [Call.actor?], fun _ same => by cases same⟩

/-- What a quantum of the actor relies on: others make calls that present other work. -/
def Relies (actorId : ActorId) (w w' : World) : Prop :=
  w' = w ∨ ∃ call, w.Admissible call ∧ Elsewhere actorId w call ∧ w' = w.after call

/-- What every operation of a quantum of the actor keeps to. -/
def Lawful (actorId : ActorId) (w : World) : Op → Prop
  | .call _ call => w.Admissible call ∧ ForActor actorId w call
  | _ => True

/-- The contract of a quantum of the actor whose operations are `permitted` and which also
promises `extra` of each of them.
-/
def promise (actorId : ActorId) (permitted extra : World → Op → Prop) : Contract Ops World where
  Answers w op answer w' := permitted w op ∧ Answers w op answer w'
  Relies := Relies actorId
  Guarantees w op _ _ := Lawful actorId w op ∧ extra w op

theorem after_eq_commit {w : World} {call : Call} {answer : Sqlite.Answer} {s : Store}
    (performed : call.perform w.store = .ok (answer, s))
    : w.after call = w.commit call answer s := by
  simp only [World.after, performed]

/-- An operation leaves the world as it is, or its call goes through. -/
theorem answers_cases {w w' : World} {op : Op} {answer : op.Answer}
    (answered : Answers w op answer w')
    : w' = w ∨ ∃ held call, op = .call held call ∧ w' = w.after call := by
  cases op with
  | call held call =>
      cases answer with
      | ok answer =>
          obtain ⟨s, performed, rfl⟩ := answered
          exact Or.inr ⟨held, call, rfl, (after_eq_commit performed).symm⟩
      | error error =>
          cases error with
          | refused error => exact Or.inl answered.2
          | database _ _ => exact Or.inl answered
  | recentContext => exact Or.inl answered.2
  | now => exact Or.inl answered
  | fresh => exact Or.inl answered
  | attemptId => exact Or.inl answered
  | outboxId => exact Or.inl answered
  | heartbeat => exact Or.inl answered
  | deadline => exact Or.inl answered
  | patience => exact Or.inl answered
  | forever => exact Or.inl answered
  | stream => exact Or.inl answered
  | execute => exact Or.inl answered
  | stage => exact Or.inl answered

/-- What others do keeps the world reachable. -/
theorem Relies.reachable {actorId : ActorId} {w w' : World} (relies : Relies actorId w w')
    (reached : runtime.Reachable w)
    : runtime.Reachable w' := by
  obtain rfl | ⟨call, admissible, -, rfl⟩ := relies
  · exact reached
  · exact .step reached ⟨admissible, rfl⟩

/-- A lawful operation keeps the world reachable. -/
theorem Lawful.reachable {actorId : ActorId} {w w' : World} {op : Op} {answer : op.Answer}
    (lawful : Lawful actorId w op) (answered : Answers w op answer w')
    (reached : runtime.Reachable w)
    : runtime.Reachable w' := by
  obtain rfl | ⟨held, call, rfl, rfl⟩ := answers_cases answered
  · exact reached
  · exact .step reached ⟨lawful.1, rfl⟩

/-- The certificate of a daemon whose quanta keep their promises. -/
theorem certificate {allowed : Daemon → DaemonMove → Prop}
    {permitted extra : ActorId → World → Op → Prop}
    (permits
      : ∀ (c : Daemon) actorId op answer, allowed c (.perform actorId op answer) →
        permitted actorId c.state op)
    (keeps
      : ∀ runner actorId owner w, runtime.Reachable w →
        (runQuantum runner actorId owner).Meets
          (promise actorId (permitted actorId) (extra actorId)) (fun _ _ => True) w)
    : Certificate daemon allowed runtime.Reachable
        (fun actorId => promise actorId (permitted actorId) (extra actorId))
        (fun _ _ _ => True) where
  initial _ start := .initial start
  launched actorId program w launched reached := by
    obtain ⟨runner, owner, rfl⟩ := launched
    exact keeps runner actorId owner w reached
  answers c actorId op answer w' allows _ answered :=
    ⟨permits c actorId op answer allows, answered⟩
  outside c call w' _ reached happened := by
    obtain ⟨outside, admissible, rfl⟩ := happened
    exact ⟨.step reached ⟨admissible, rfl⟩,
      fun actorId => Or.inr ⟨call, admissible, outside.elsewhere, rfl⟩⟩
  performs w actorId op answer w' reached answered guaranteed := by
    refine ⟨guaranteed.1.reachable answered reached, fun other different => ?_⟩
    obtain rfl | ⟨held, call, rfl, rfl⟩ := answers_cases answered
    · exact Or.inl rfl
    · exact Or.inr ⟨call, guaranteed.1.1, guaranteed.1.2.elsewhere different, rfl⟩
  stable _ _ _ _ holds _ := holds

end Codrik.Runtime.Runner
