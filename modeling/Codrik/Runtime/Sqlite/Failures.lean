import Codrik.Runtime.Sqlite.Checkpoint

/-! Failure and progress bookkeeping after a quantum (`sqlite/failures.rs`). -/

namespace Codrik.Runtime.Sqlite

open Codrik.Relational

/-- The pairs of run and work item states that `ensure_failure_fence` accepts. -/
def FenceStates (s : Store) (requireActive : Bool) (run : RunRow) (work : WorkItemRow)
    : Prop :=
  (run.state = .active ∧ work.state = .ready)
    ∨ (requireActive = false ∧ run.state = .active ∧ work.state = .waitingForDecision
      ∧ ∃ attempt ∈ s.toolAttempts, attempt.runId = run.id
        ∧ attempt.state = .waitingForDecision)
    ∨ (requireActive = false
      ∧ ((run.state = .completed ∧ work.state = .completed)
        ∨ (run.state = .cancelled ∧ work.state = .cancelled)))

instance (s : Store) (requireActive : Bool) (run : RunRow) (work : WorkItemRow)
    : Decidable (FenceStates s requireActive run work) :=
  inferInstanceAs (Decidable (_ ∨ _))

/-- The condition of `ensure_failure_fence`. -/
def FailureFenceHolds (s : Store) (fence : FailureFence) (now : Timestamp)
    (requireActive : Bool)
    : Prop :=
  ∃ lease ∈ s.actorLeases, Owns fence.lease lease ∧ lease.expiresAt = fence.lease.expiresAt
    ∧ lease.expiresAt > now
    ∧ ∃ run ∈ s.runs, run.actorId = lease.actorId ∧ run.id = fence.runId
      ∧ run.workItemId = fence.workItemId ∧ run.leaseGeneration = fence.lease.generation
      ∧ ∃ work ∈ s.workItems, work.id = run.workItemId
        ∧ FenceStates s requireActive run work

instance (s : Store) (fence : FailureFence) (now : Timestamp) (requireActive : Bool)
    : Decidable (FailureFenceHolds s fence now requireActive) :=
  inferInstanceAs (Decidable (∃ lease ∈ s.actorLeases, _))

/-- `ensure_failure_fence` -/
def ensureFailureFence (s : Store) (fence : FailureFence) (now : Timestamp)
    (requireActive : Bool)
    : Except StoreError Unit :=
  require (FailureFenceHolds s fence now requireActive) .staleLease

def failureLimit : Nat := 5

/-- The failure streak after one more failure. -/
def nextFailureCount (prior : Nat) (progress : QuantumProgress) : Nat :=
  if progress = .none then prior + 1 else 1

/-- `now + 2^(count - 1)` seconds. -/
def retryTime (now : Timestamp) (failureCount : Nat) : Timestamp :=
  Timestamp.plusMillis now (2 ^ (failureCount - 1) * 1000)

def dispatcherFailedIntent (run : RunRow) (audience : Audience) (error : String)
    (ids : FreshIds)
    : NewOutboxIntent where
  id := ids.outbox 1
  intentKey := .dispatcherFailed run.id
  intentClass := "terminal_error"
  audience := audience
  payload := .terminalError "dispatcher_failure_limit" error

/-- The event is attached to the run but not in its transcript. -/
def Unincorporated (s : Store) (runId : RunId) (eventId : EventId) : Prop :=
  ∃ row ∈ s.runEvents, row.runId = runId ∧ row.eventId = eventId ∧ row.incorporated = false

instance (s : Store) (runId : RunId) : DecidablePred (Unincorporated s runId) :=
  fun _ => inferInstanceAs (Decidable (∃ row ∈ s.runEvents, _))

/-- The statements that end the active run of a work item after its last failure: events in
the transcript fail, the others return to the mailbox without a work item.
-/
def failRun (run : RunRow) (now : Timestamp) (s : Store) : Store :=
  let events := s.events.updateWhere (fun event => Incorporated s run.id event.id)
    (fun event => { event with state := .failedTerminal })
  { s with
    events := events.updateWhere (fun event => Unincorporated s run.id event.id)
      (fun event => { event with state := .pending, runId := none, workItemId := none })
    localRequests := s.localRequests.updateWhere
      (fun request => Unincorporated s run.id request.eventId)
      (fun request => { request with workItemId := none })
    runEvents := s.runEvents.deleteWhere
      (fun row => row.runId = run.id ∧ row.incorporated = false)
    toolAttempts := (s.toolAttempts.updateWhere
      (fun row => row.runId = run.id ∧ row.state = .running)
      (fun row => { row with state := .outcomeUnknown })
      (AttemptRow.keepsKey_state .outcomeUnknown)).updateWhere
      (fun row => row.runId = run.id ∧ row.state = .prepared)
      (fun row => { row with state := .cancelledKnown })
    runs := s.runs.updateWhere (·.id = run.id)
      (·.finish .failedTerminal now) (RunRow.keepsKey_fail now) }

/-- The part of `record_failure` at the failure limit. -/
def terminalizeWork (workItemId : WorkItemId) (error : String) (now : Timestamp)
    (ids : FreshIds) (s : Store)
    : Except StoreError Store := do
  let s ←
    match s.runs.find? (fun run => run.workItemId = workItemId ∧ run.state = .active),
        workItem? s workItemId with
    | some run, some work => do
        let context : TerminalBundleContext :=
          { actorId := run.actorId, workItemId := workItemId, runId := run.id,
            audience := work.audience, deliveryRoute := run.deliveryRoute,
            executionPolicy := run.executionPolicy, ingressSource := run.ingressSource }
        let (_, s) ← createTerminalBundles context (incorporatedLocalRequests s run.id)
          [dispatcherFailedIntent run work.audience error ids] .failedTerminal now ids s
        .ok (failRun run now s)
    | _, _ => .ok s
  .ok { s with
    workItems := s.workItems.updateWhere (·.id = workItemId)
      (fun work =>
        { work with
          state := .failedTerminal
          failureCount := failureLimit
          nextAttemptAt := none
          lastError := some (.reported error)
          updatedAt := now }) }

/-- `record_failure` -/
def recordFailure (fence : FailureFence) (error : String) (progress : QuantumProgress)
    (now : Timestamp) (ids : FreshIds) (s : Store)
    : Except StoreError (FailureDisposition × Store) := do
  ensureFailureFence s fence now true
  match s.workItems.find? (fun work => work.id = fence.workItemId ∧ work.state = .ready) with
  | none => .error (.rejected "work item does not exist")
  | some work =>
      let failureCount := nextFailureCount work.failureCount progress
      if failureCount < failureLimit then
        let retryAt := retryTime now failureCount
        .ok (.retryAt retryAt,
          { s with
            workItems := s.workItems.updateWhere (·.id = fence.workItemId)
              (fun work =>
                { work with
                  failureCount := failureCount
                  nextAttemptAt := some retryAt
                  lastError := some (.reported error)
                  updatedAt := now }) })
      else do
        let s ← terminalizeWork fence.workItemId error now ids s
        .ok (.terminalized, s)

/-- `record_progress` -/
def recordProgress (fence : FailureFence) (now : Timestamp) (s : Store)
    : Except StoreError (Unit × Store) := do
  ensureFailureFence s fence now false
  .ok ((),
    { s with
      workItems := s.workItems.updateWhere (·.id = fence.workItemId)
        (fun work =>
          { work with
            failureCount := 0
            nextAttemptAt := none
            lastError := none
            updatedAt := now }) })

end Codrik.Runtime.Sqlite
