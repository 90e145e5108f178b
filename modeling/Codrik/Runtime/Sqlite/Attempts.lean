import Codrik.Runtime.Sqlite.Checkpoint

/-! The durable life of tool attempts (`ToolAttemptStore` of `sqlite/checkpoint.rs`). -/

namespace Codrik.Runtime.Sqlite

open Codrik.Relational

/-- The part of a row that `decode_attempt` reads. -/
def decodeAttempt (row : AttemptRow) : ToolAttempt where
  id := row.id
  toolCallId := row.toolCallId
  toolName := row.toolName
  argumentsJson := row.argumentsJson
  capabilities := row.capabilities
  state := row.state

/-- `prepare_attempt`: stores a prepared attempt, or finds the one its call id already has. -/
def prepareAttempt (run : AttachedRun) (attempt : NewToolAttempt) (now : Timestamp)
    (s : Store)
    : Except StoreError (ToolAttempt × Store) := do
  validateRun s run now
  let toolAttempts ← execute (s.toolAttempts.insertUnless
    (fun row => row.runId = run.runId ∧ row.toolCallId = attempt.toolCallId)
    { id := attempt.id, runId := run.runId, toolCallId := attempt.toolCallId,
      toolName := attempt.toolName, argumentsJson := attempt.argumentsJson,
      capabilities := attempt.capabilities, state := .prepared, outcomeJson := none,
      observationCheckpointed := false, createdAt := now })
  let stored ← execute (toolAttempts.find?
    (fun row => row.runId = run.runId ∧ row.toolCallId = attempt.toolCallId))
  require (stored.toolName = attempt.toolName ∧ stored.argumentsJson = attempt.argumentsJson
    ∧ stored.capabilities = attempt.capabilities)
    (.rejected "tool call id was reused with different attempt data")
  .ok (decodeAttempt stored, { s with toolAttempts := toolAttempts })

/-- The state names that the error of `transition_attempt` prints. -/
def attemptStateName : AttemptState → String
  | .prepared => "prepared"
  | .running => "running"
  | .succeeded => "succeeded"
  | .failedKnown => "failed_known"
  | .outcomeUnknown => "outcome_unknown"
  | .cancelledKnown => "cancelled_known"
  | .waitingForDecision => "waiting_for_decision"

/-- The attempt of the run in the state a transition expects. -/
def AttemptIn (run : AttachedRun) (id : AttemptId) (state : AttemptState) (row : AttemptRow)
    : Prop :=
  row.id = id ∧ row.runId = run.runId ∧ row.state = state

instance (run : AttachedRun) (id : AttemptId) (state : AttemptState)
    : DecidablePred (AttemptIn run id state) :=
  fun _ => inferInstanceAs (Decidable (_ ∧ _))

/-- `transition_attempt` -/
def transitionAttempt (run : AttachedRun) (id : AttemptId) (expected next : AttemptState)
    (outcome : Option AttemptOutcome) (now : Timestamp) (s : Store)
    : Except StoreError (Unit × Store) := do
  validateRun s run now
  require (s.toolAttempts.count (AttemptIn run id expected) = 1)
    (.rejected ("attempt is not in expected state " ++ attemptStateName expected))
  .ok ((),
    { s with
      toolAttempts := s.toolAttempts.updateWhere (AttemptIn run id expected)
        (fun row => { row with state := next, outcomeJson := outcome }) })

/-- `mark_attempt_running` -/
def markAttemptRunning (run : AttachedRun) (id : AttemptId) (now : Timestamp) (s : Store)
    : Except StoreError (Unit × Store) :=
  transitionAttempt run id .prepared .running none now s

/-- The state an outcome settles an attempt in. -/
def AttemptOutcome.settled : AttemptOutcome → AttemptState
  | .succeeded _ => .succeeded
  | .failedKnown _ => .failedKnown
  | .cancelledKnown => .cancelledKnown

/-- `reject_prepared_attempt` -/
def rejectPreparedAttempt (run : AttachedRun) (id : AttemptId) (outcome : AttemptOutcome)
    (now : Timestamp) (s : Store)
    : Except StoreError (Unit × Store) :=
  match outcome with
  | .succeeded _ => .error (.rejected "rejected attempt cannot succeed")
  | outcome => transitionAttempt run id .prepared (AttemptOutcome.settled outcome)
      (some outcome) now s

/-- `finish_attempt` -/
def finishAttempt (run : AttachedRun) (id : AttemptId) (outcome : AttemptOutcome)
    (now : Timestamp) (s : Store)
    : Except StoreError (Unit × Store) :=
  transitionAttempt run id .running (AttemptOutcome.settled outcome) (some outcome) now s

/-- `recover_attempt` -/
def recoverAttempt (id : AttemptId) (s : Store)
    : Except StoreError (AttemptRecovery × Store) := do
  let row ← execute (s.toolAttempts.find? (·.id = id))
  match row.state with
  | .prepared => .ok (.mayInvoke, s)
  | .running =>
      .ok (.outcomeUnknown,
        { s with
          toolAttempts := s.toolAttempts.updateWhere
            (fun row => row.id = id ∧ row.state = .running)
            (fun row => { row with state := .outcomeUnknown })
            (AttemptRow.keepsKey_state .outcomeUnknown) })
  | .outcomeUnknown | .waitingForDecision => .ok (.outcomeUnknown, s)
  | .succeeded | .failedKnown | .cancelledKnown =>
      match row.outcomeJson with
      | some outcome => .ok (.terminal outcome, s)
      | none => .error (.rejected "terminal attempt is missing its outcome")

/-- `block_unknown_attempt` -/
def blockUnknownAttempt (run : AttachedRun) (id : AttemptId) (now : Timestamp) (s : Store)
    : Except StoreError (Unit × Store) := do
  validateRun s run now
  require (s.toolAttempts.count (AttemptIn run id .outcomeUnknown) = 1)
    (.rejected "attempt is not outcome_unknown")
  .ok ((),
    { s with
      toolAttempts := s.toolAttempts.updateWhere (AttemptIn run id .outcomeUnknown)
        (fun row => { row with state := .waitingForDecision })
      workItems := s.workItems.updateWhere (·.id = run.workItemId)
        (·.enter .waitingForDecision now) (WorkItemRow.keepsKey_enter .waitingForDecision now) })

/-- `ensure_matching_lease`: the run is active under the presented lease, expired or not. -/
def MatchingLease (s : Store) (run : AttachedRun) : Prop :=
  ∃ row ∈ s.actorLeases, Owns run.lease row ∧ ∃ stored ∈ s.runs, stored.id = run.runId
    ∧ stored.state = .active ∧ stored.actorId = row.actorId
    ∧ stored.leaseGeneration = run.lease.generation

instance (s : Store) (run : AttachedRun) : Decidable (MatchingLease s run) :=
  inferInstanceAs (Decidable (∃ row ∈ s.actorLeases, _))

/-- `unresolved_attempts` -/
def unresolvedAttempts (run : AttachedRun) (s : Store)
    : Except StoreError (List ToolAttempt) := do
  require (MatchingLease s run) .staleLease
  .ok ((s.toolAttempts.selectOrdered
    (fun row => row.runId = run.runId
      ∧ (¬AttemptState.Settled row.state ∨ row.observationCheckpointed = false))
    (fun row => toLex (row.createdAt, row.id))).map decodeAttempt)

end Codrik.Runtime.Sqlite
