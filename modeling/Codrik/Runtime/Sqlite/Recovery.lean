import Codrik.Runtime.Sqlite.Checkpoint

/-! Recovery at the start and at the end of the service (`sqlite/recovery.rs`). -/

namespace Codrik.Runtime.Sqlite

open Codrik.Relational

structure RecoveredUnknownOutcome where
  actorId : ActorId
  workItemId : WorkItemId
  runId : RunId
  attemptId : AttemptId
  leaseGeneration : Nat
deriving DecidableEq

structure StartupRecoveryReport where
  expiredActorLeases : Nat
  expiredBundleClaims : Nat
  orphanedRunningAttempts : Nat
  unknownOutcomes : List RecoveredUnknownOutcome
deriving DecidableEq

/-- No live lease of the run's generation protects the run. -/
def Unprotected (s : Store) (now : Timestamp) (run : RunRow) : Prop :=
  ∀ lease ∈ s.actorLeases, lease.actorId = run.actorId →
    lease.expiresAt ≤ now ∨ lease.generation ≠ run.leaseGeneration

instance (s : Store) (now : Timestamp) : DecidablePred (Unprotected s now) :=
  fun _ => inferInstanceAs (Decidable (∀ lease ∈ s.actorLeases, _))

/-- The active run whose running attempt nobody can finish any more. -/
def Orphaning (s : Store) (now : Timestamp) (attempt : AttemptRow) (run : RunRow) : Prop :=
  run.id = attempt.runId ∧ run.state = .active
    ∧ (∃ work ∈ s.workItems, work.id = run.workItemId ∧ work.actorId = run.actorId
      ∧ (work.state = .ready ∨ work.state = .waiting))
    ∧ (∃ actor ∈ s.actors, actor.id = run.actorId)
    ∧ Unprotected s now run

instance (s : Store) (now : Timestamp) (attempt : AttemptRow)
    : DecidablePred (Orphaning s now attempt) :=
  fun _ => inferInstanceAs (Decidable (_ ∧ _))

/-- The running attempts without a protected runner, as `recover_startup` reports them. -/
def recoveryCandidates (s : Store) (now : Timestamp) : List RecoveredUnknownOutcome :=
  (s.toolAttempts.select (·.state = .running)).filterMap (fun attempt =>
    (s.runs.find? (Orphaning s now attempt)).map (fun run =>
      ⟨run.actorId, run.workItemId, run.id, attempt.id, run.leaseGeneration⟩))

/-- One candidate: its attempt becomes unknown and its work item waits for a decision. -/
def recoverCandidate (now : Timestamp) (candidate : RecoveredUnknownOutcome) (s : Store)
    : Store :=
  { s with
    toolAttempts := s.toolAttempts.updateWhere
      (fun row => row.id = candidate.attemptId ∧ row.state = .running)
      (fun row => { row with state := .outcomeUnknown })
      (AttemptRow.keepsKey_state .outcomeUnknown)
    workItems := s.workItems.updateWhere
      (fun work => work.id = candidate.workItemId
        ∧ (work.state = .ready ∨ work.state = .waiting))
      (·.enter .waitingForDecision now) (WorkItemRow.keepsKey_enter .waitingForDecision now) }

/-- The loop over the candidates; one whose attempt is running no more is skipped. -/
def recoverCandidates (now : Timestamp)
    : List RecoveredUnknownOutcome → Store → List RecoveredUnknownOutcome × Store
  | [], s => ([], s)
  | candidate :: rest, s =>
      if s.toolAttempts.count (fun row => row.id = candidate.attemptId
          ∧ row.state = .running) = 1 then
        let recovered := recoverCandidates now rest (recoverCandidate now candidate s)
        (candidate :: recovered.1, recovered.2)
      else
        recoverCandidates now rest s

/-- The end of an interrupted bundle delivery. -/
def BundleRow.interrupt (now : Timestamp) (error : String) (bundle : BundleRow) : BundleRow :=
  { bundle with
    state := .failedRetryable
    nextAttemptAt := some now
    claimOwner := none
    claimExpiresAt := none
    lastError := some error }

/-- A delivery whose claim is over. -/
def ClaimExpired (now : Timestamp) (bundle : BundleRow) : Prop :=
  bundle.state = .delivering ∧ ∃ time ∈ bundle.claimExpiresAt, time ≤ now

instance (now : Timestamp) : DecidablePred (ClaimExpired now) := fun bundle =>
  match h : bundle.claimExpiresAt with
  | none => .isFalse (by simp [ClaimExpired, h])
  | some time => decidable_of_iff (bundle.state = .delivering ∧ time ≤ now)
      (by simp [ClaimExpired, h])

/-- `recover_startup` -/
def recoverStartup (now : Timestamp) (s : Store)
    : Except StoreError (StartupRecoveryReport × Store) :=
  let (unknownOutcomes, s) := recoverCandidates now (recoveryCandidates s now) s
  .ok (
    { expiredActorLeases := s.actorLeases.count (·.expiresAt ≤ now)
      expiredBundleClaims := s.resultBundles.count (ClaimExpired now)
      orphanedRunningAttempts := unknownOutcomes.length
      unknownOutcomes := unknownOutcomes },
    { s with
      actorLeases := s.actorLeases.deleteWhere (·.expiresAt ≤ now)
      resultBundles := s.resultBundles.updateWhere (ClaimExpired now)
        (·.interrupt now "interrupted_delivery") })

/-- An actor with a running attempt keeps its lease over a shutdown. -/
def RunsTool (s : Store) (actorId : ActorId) : Prop :=
  ∃ run ∈ s.runs, run.actorId = actorId ∧ run.state = .active
    ∧ ∃ attempt ∈ s.toolAttempts, attempt.runId = run.id ∧ attempt.state = .running

instance (s : Store) (actorId : ActorId) : Decidable (RunsTool s actorId) :=
  inferInstanceAs (Decidable (∃ run ∈ s.runs, _))

/-- `recover_shutdown` -/
def recoverShutdown (actorOwner bundleOwner : String) (now : Timestamp) (s : Store)
    : Except StoreError (Unit × Store) :=
  .ok ((),
    { s with
      resultBundles := s.resultBundles.updateWhere
        (fun bundle => bundle.state = .delivering ∧ bundle.claimOwner = some bundleOwner)
        (·.interrupt now "shutdown_before_ack")
      actorLeases := s.actorLeases.deleteWhere
        (fun lease => lease.ownerId = actorOwner ∧ ¬RunsTool s lease.actorId) })

end Codrik.Runtime.Sqlite
