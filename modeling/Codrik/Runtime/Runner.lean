import Codrik.Runtime.Runner.Surroundings

/-! One quantum of work on an actor's run (`runtime/runner.rs`). -/

namespace Codrik.Runtime.Runner

open Codrik.Interaction
open Codrik.Runtime.Sqlite

-----------------------------------------------------------------------------------------
-- The runner
-----------------------------------------------------------------------------------------

/-- `RunnerLimits`, without the wall time and the heartbeat interval, which only set timers;
the lease duration is in milliseconds.
-/
structure RunnerLimits where
  maxEvents : Nat
  maxModelSteps : Nat
  maxToolSteps : Nat
  recentMessages : Nat
  leaseDuration : Nat

/-- `ActorRunner`: its limits, its instructions and its tools; `describe` prints the errors of
the store.
-/
structure ActorRunner where
  limits : RunnerLimits
  systemInstructions : Option String
  definitions : List Tool
  capabilities : String → Option ToolCapabilities
  describe : StoreError → String

inductive RunOnceOutcome
  | idle | completed | yielded | cancelled | waitingForDecision
deriving DecidableEq, Repr

/-- The errors a quantum ends with; `authority` is an `ExecutionAuthorityError`. -/
inductive RunnerError
  | authority (text : String)
  | call (error : CallError)
  | failed (text : String)

def ActorRunner.callText (runner : ActorRunner) : CallError → String
  | .refused error => runner.describe error
  | .database _ text => text

/-- `error.to_string()` -/
def ActorRunner.errorText (runner : ActorRunner) : RunnerError → String
  | .authority text => text
  | .call error => runner.callText error
  | .failed text => text

/-- `authority_error` -/
def RunnerError.isAuthority : RunnerError → Bool
  | .authority _ => true
  | .call (.database recognized _) => recognized
  | .call (.refused _) => false
  | .failed _ => false

/-- How the work on a run ends early: `return Ok(..)` or an error. -/
inductive Exit
  | returns (outcome : RunOnceOutcome)
  | fails (error : RunnerError)

/-- The variables of `run_leased` once a run is attached. The failure fence and the activity
run are always those of `run`; `heartbeat` says that the heartbeat task was not stopped.
-/
structure Quantum where
  run : AttachedRun
  messages : List Message
  progress : QuantumProgress
  toolSteps : Nat
  heartbeat : Bool

/-- The run in hand under a renewed lease. -/
def Quantum.renew (expiresAt : Timestamp) (q : Quantum) : Quantum :=
  { q with run := { q.run with lease := { q.run.lease with expiresAt := expiresAt } } }

/-- A piece of a quantum: it changes the variables, performs operations and may exit. -/
def Work (α : Type) : Type := Quantum → Program Ops (Except Exit α × Quantum)

namespace Work

variable {α β : Type}

def bind (first : Work α) (next : α → Work β) : Work β := fun q => do
  match ← first q with
  | (.ok value, q) => next value q
  | (.error exit, q) => .done (.error exit, q)

instance : Monad Work where
  pure value q := .done (.ok value, q)
  bind := Work.bind

end Work

variable {α : Type}

def exit (reason : Exit) : Work α := fun q => .done (.error reason, q)

/-- `bail!` -/
def fail (text : String) : Work α := exit (.fails (.failed text))

def quantum : Work Quantum := fun q => .done (.ok q, q)

def update (change : Quantum → Quantum) : Work Unit := fun q => .done (.ok (), change q)

def perform (op : Op) : Work op.Answer := fun q =>
  .perform op (fun answer => .done (.ok answer, q))

/-- A store operation on the run in hand; its error ends the quantum. -/
def callStore (call : Call) : Work Sqlite.Answer := do
  let q ← quantum
  match ← perform (.call (some q.run) call) with
  | .ok answer => pure answer
  | .error error => exit (.fails (.call error))

/-- The rank of the inner function of `advance_progress`. -/
def progressRank : QuantumProgress → Nat
  | .none => 0
  | .modelCheckpoint => 1
  | .knownToolOutcome => 2
  | .finalized => 3

/-- `advance_progress` -/
def advanceProgress (committed : QuantumProgress) : Work Unit :=
  update (fun q =>
    if progressRank committed > progressRank q.progress then { q with progress := committed }
    else q)

/-- `messages.extend(..)` -/
def extendMessages (messages : List Message) : Work Unit :=
  update (fun q => { q with messages := q.messages ++ messages })

/-- `duration_millis` -/
def durationMillis (millis : Nat) : Except String Int :=
  if millis ≤ 9223372036854775807 then .ok millis
  else .error "out of range integral type conversion attempted"

-----------------------------------------------------------------------------------------
-- Texts
-----------------------------------------------------------------------------------------

def Message.system (content : String) : Message := ⟨.system, textParts content, [], none⟩

/-- The characters a JSON string has for one character, as `serde_json` writes them. -/
def jsonChar (c : Char) : List Char :=
  if c = '"' then ['\\', '"']
  else if c = '\\' then ['\\', '\\']
  else if c.toNat = 0x8 then ['\\', 'b']
  else if c.toNat = 0x9 then ['\\', 't']
  else if c.toNat = 0xA then ['\\', 'n']
  else if c.toNat = 0xC then ['\\', 'f']
  else if c.toNat = 0xD then ['\\', 'r']
  else if c.toNat < 0x20 then
    ['\\', 'u', '0', '0', Nat.digitChar (c.toNat / 16), Nat.digitChar (c.toNat % 16)]
  else [c]

def jsonString (text : String) : String :=
  "\"" ++ String.ofList (text.toList.flatMap jsonChar) ++ "\""

/-- `tool_observation::success` -/
def successObservation (result : String) : String :=
  "\x7b\"ok\":true,\"result\":" ++ jsonString result ++ "\x7d"

/-- `tool_observation::failure` -/
def failureObservation (error : String) : String :=
  "\x7b\"ok\":false,\"error\":" ++ jsonString error ++ "\x7d"

/-- `observation_for_outcome` -/
def observationForOutcome : AttemptOutcome → String
  | .succeeded execution => successObservation execution.observation
  | .failedKnown message => failureObservation message
  | .cancelledKnown => failureObservation "tool call cancelled"

def reticulumGatewayName : String := "reticulum:"

def reticulumResponseChars : Nat := 500

def reticulumResponseInstructions : String :=
  "Reticulum airtime is scarce. Answer directly and completely in at most 500 Unicode "
    ++ "characters. Omit preambles, repetition, and optional detail."

/-- `is_reticulum_route` -/
def isReticulumRoute (route : Option DeliveryRoute) : Bool :=
  route.any (fun route => reticulumGatewayName.toList.isPrefixOf route.gateway.toList)

/-- `bounded_reticulum_response`: cut after the last sentence that leaves room for dots. -/
def boundedReticulumResponse (route : Option DeliveryRoute) (text : String) : String :=
  if !isReticulumRoute route || text.toList.length ≤ reticulumResponseChars then
    text
  else
    let start := text.toList.take (reticulumResponseChars - 3)
    let sentences := (start.reverse.dropWhile
      (fun c => !(c = '.' || c = '!' || c = '?' || c = '\n'))).reverse
    let kept := if sentences = [] then start else sentences
    String.ofList (kept.reverse.dropWhile isWhitespace).reverse ++ "..."

/-- The error of a call the policy of the event forbids. -/
def forbiddenTool (name : String) : AttemptOutcome :=
  .failedKnown ("tool is not allowed for this event: " ++ name)

-----------------------------------------------------------------------------------------
-- The lease and the wall-time limit
-----------------------------------------------------------------------------------------

/-- `sync_execution_lease` -/
def syncExecutionLease : Work Unit := do
  match ← perform .heartbeat with
  | .error text => exit (.fails (.authority text))
  | .ok expiresAt => update (Quantum.renew expiresAt)

/-- `stop_execution_heartbeat` -/
def stopExecutionHeartbeat (runner : ActorRunner) : Work Unit := do
  let q ← quantum
  if q.heartbeat then do
    update (fun q => { q with heartbeat := false })
    syncExecutionLease
    let now ← perform .now
    match durationMillis runner.limits.leaseDuration with
    | .error text => exit (.fails (.authority text))
    | .ok millis => do
        let q ← quantum
        match ← perform (.call (some q.run)
            (.renewLease q.run.lease now (Timestamp.plusMillis now millis))) with
        | .error error => exit (.fails (.authority (runner.callText error)))
        | .ok (.renewed lease) => update (fun q => { q with run := { q.run with lease := lease } })
        | .ok _ => pure ()
  else
    pure ()

/-- The next control event above what the run has observed. -/
def newerControl : Work (Option ControlEvent) := do
  let q ← quantum
  let now ← perform .now
  match ← callStore (.newerControlEvent q.run.lease q.run.observedSequence now) with
  | .control control => pure control
  | _ => pure none

/-- Cancels the run for the control event. -/
def cancelQuantum (control : ControlEvent) : Work Unit := do
  let q ← quantum
  let now ← perform .now
  let ids ← perform .fresh
  let _ ← callStore (.cancelRun q.run control now ids)
  advanceProgress .finalized

/-- `execution_timeout` -/
def executionTimeout : Work Bool := do
  match ← newerControl with
  | some control =>
      if control.kind = .cancelRequested then do
        cancelQuantum control
        pure true
      else
        pure false
  | none => pure false

/-- What every check does once the wall-time limit has passed. -/
def expire (runner : ActorRunner) : Work α := do
  stopExecutionHeartbeat runner
  if ← executionTimeout then
    exit (.returns .cancelled)
  else
    fail "model or tool execution exceeded wall-time limit"

/-- `execution_boundary` -/
def executionBoundary (runner : ActorRunner) : Work Unit := do
  if ← perform .deadline then
    expire runner
  else
    syncExecutionLease

/-- A newer control event ends the wait for an execution. -/
def interrupt (runner : ActorRunner) (control : ControlEvent) : Work α :=
  match control.kind with
  | .cancelRequested => do
      cancelQuantum control
      exit (.returns .cancelled)
  | .userMessage => do
      if ← perform .deadline then
        expire runner
      else
        exit (.returns .yielded)
  | .externalCompletion => fail "internal error: entered unreachable code"

/-- The select loop of `await_execution`, which is woken up in vain a number of times. -/
def awaitLoop (runner : ActorRunner) (poll : Work (Wake α)) : Nat → Work α
  | 0 => do
      let never ← perform .forever
      nomatch never
  | vain + 1 => do
      match ← poll with
      | .deadline => expire runner
      | .heartbeat => do
          syncExecutionLease
          awaitLoop runner poll vain
      | .finished result => do
          syncExecutionLease
          pure result
      | .signalled => do
          syncExecutionLease
          match ← newerControl with
          | some control => interrupt runner control
          | none => awaitLoop runner poll vain
      | .closed => do
          syncExecutionLease
          awaitLoop runner poll vain

/-- `await_execution`; its callers return at once with `Cancelled` or `Yielded` when it does,
so here it exits with them.
-/
def awaitExecution (runner : ActorRunner) (poll : Work (Wake α)) : Work α := do
  syncExecutionLease
  if ← perform .deadline then
    expire runner
  else do
    let vain ← perform .patience
    awaitLoop runner poll vain

-----------------------------------------------------------------------------------------
-- Checkpoints
-----------------------------------------------------------------------------------------

/-- A checkpoint of the run in hand. -/
def checkpoint (eventIds : List EventId) (attemptIds : List AttemptId)
    (messages : List Message)
    : Work Unit := do
  let q ← quantum
  let now ← perform .now
  let _ ← callStore (.checkpointRun ⟨q.run, eventIds, attemptIds, messages⟩ now)
  pure ()

/-- What follows an attachment: the stored context and the run's new messages make up the
conversation, and the new messages are checkpointed with their events.
-/
def incorporate (runner : ActorRunner) : Work Unit := do
  let q ← quantum
  match ← perform (.recentContext q.run.lease.actorId q.run.audience
      runner.limits.recentMessages) with
  | .error error => exit (.fails (.call error))
  | .ok context => do
      update (fun q => { q with messages := context ++ q.run.messages })
      checkpoint q.run.sourceEventIds [] q.run.messages

-----------------------------------------------------------------------------------------
-- Tools
-----------------------------------------------------------------------------------------

/-- `stage_execution`; its error is the outcome of the attempt. The staging rows that it
writes before the commit concern artifacts only.
-/
def stageExecution (runner : ActorRunner) (id : AttemptId) (execution : ToolExecution)
    : Work AttemptOutcome := do
  let q ← quantum
  match ← perform (.stage q.run id execution) with
  | .error text => pure (.failedKnown text)
  | .ok staged => do
      let now ← perform .now
      match ← perform (.call (some q.run)
          (.commitStagedExecution staged.files q.run id staged.execution staged.leases now)) with
      | .error error => pure (.failedKnown (runner.callText error))
      | .ok _ => do
          match ← perform (.call (some q.run) (.recoverAttempt id)) with
          | .error error => pure (.failedKnown (runner.callText error))
          | .ok (.recovered (.terminal (.succeeded execution))) => pure (.succeeded execution)
          | .ok _ => pure (.failedKnown "committed artifact execution is not recoverable")

/-- The outcome of an attempt is recorded, unless its staged result is committed already. -/
def settleAttempt (id : AttemptId) (outcome : AttemptOutcome) : Work AttemptOutcome :=
  match outcome with
  | .succeeded _ => pure outcome
  | .failedKnown _ | .cancelledKnown => do
      let q ← quantum
      let now ← perform .now
      let _ ← callStore (.finishAttempt q.run id outcome now)
      pure outcome

/-- The part that recovered and new tool calls share: the attempt is started, its tool
awaited, its result staged, and a failure recorded.
-/
def executeAttempt (runner : ActorRunner) (id : AttemptId) (name arguments : String)
    (authorizedTools : List String)
    : Work AttemptOutcome := do
  let q ← quantum
  let now ← perform .now
  let _ ← callStore (.markAttemptRunning q.run id now)
  match ← awaitExecution runner (perform (.execute name arguments ⟨id, authorizedTools⟩)) with
  | .ok execution => do
      let outcome ← stageExecution runner id execution
      settleAttempt id outcome
  | .error text => settleAttempt id (.failedKnown text)

-----------------------------------------------------------------------------------------
-- Recovery of unresolved attempts
-----------------------------------------------------------------------------------------

/-- The work item waits for a decision about the attempt. -/
def awaitDecision (runner : ActorRunner) (attempt : ToolAttempt) : Work α := do
  if attempt.state ≠ .waitingForDecision then do
    let q ← quantum
    let now ← perform .now
    let _ ← callStore (.blockUnknownAttempt q.run attempt.id now)
    pure ()
  else
    pure ()
  executionBoundary runner
  exit (.returns .waitingForDecision)

/-- A prepared attempt that the policy forbids is rejected. -/
def rejectAttempt (attempt : ToolAttempt) : Work AttemptOutcome := do
  let q ← quantum
  let now ← perform .now
  let outcome := forbiddenTool attempt.toolName
  let _ ← callStore (.rejectPreparedAttempt q.run attempt.id outcome now)
  pure outcome

/-- A prepared attempt is invoked unless the tool budget is spent. -/
def invokeAttempt (runner : ActorRunner) (attempt : ToolAttempt) : Work AttemptOutcome := do
  let q ← quantum
  if q.toolSteps ≥ runner.limits.maxToolSteps then do
    executionBoundary runner
    exit (.returns .yielded)
  else do
    update (fun q => { q with toolSteps := q.toolSteps + 1 })
    executeAttempt runner attempt.id attempt.toolName attempt.argumentsJson [attempt.toolName]

/-- The outcome of an unresolved attempt. The two branches of the policy check differ for
attempts that may be invoked only.
-/
def recoveredOutcome (runner : ActorRunner) (attempt : ToolAttempt)
    : AttemptRecovery → Work AttemptOutcome
  | .terminal outcome => pure outcome
  | .outcomeUnknown => awaitDecision runner attempt
  | .mayInvoke => do
      let q ← quantum
      if q.run.executionPolicy.allows attempt.toolName then
        invokeAttempt runner attempt
      else
        rejectAttempt attempt

/-- Some message of the conversation carries the tool call. -/
def hasToolCall (messages : List Message) (toolCallId : String) : Bool :=
  messages.any (fun message => message.toolCalls.any (·.id = toolCallId))

/-- The messages that bring a recovered attempt into the conversation. -/
def recoveredMessages (messages : List Message) (attempt : ToolAttempt)
    (outcome : AttemptOutcome)
    : List Message :=
  let result := .toolResult attempt.toolCallId (observationForOutcome outcome)
  if hasToolCall messages attempt.toolCallId then
    [result]
  else
    [.assistantToolCalls ""
      [⟨attempt.toolCallId, attempt.toolName, attempt.argumentsJson⟩], result]

/-- One round of the recovery loop. -/
def recoverOne (runner : ActorRunner) (attempt : ToolAttempt) : Work Unit := do
  executionBoundary runner
  match ← callStore (.recoverAttempt attempt.id) with
  | .recovered recovery => do
      let outcome ← recoveredOutcome runner attempt recovery
      let q ← quantum
      let messages := recoveredMessages q.messages attempt outcome
      checkpoint [] [attempt.id] messages
      advanceProgress .knownToolOutcome
      extendMessages messages
  | _ => pure ()

/-- The recovery loop. -/
def recoverAll (runner : ActorRunner) : List ToolAttempt → Work Unit
  | [] => pure ()
  | attempt :: rest => do
      recoverOne runner attempt
      recoverAll runner rest

-----------------------------------------------------------------------------------------
-- Tool calls of a response
-----------------------------------------------------------------------------------------

/-- The attempt of a tool call; a call that the policy forbids has none. -/
def prepareCall (runner : ActorRunner) (toolCall : LlmToolCall) : Work (Option ToolAttempt) := do
  let q ← quantum
  if q.run.executionPolicy.allows toolCall.name then
    match runner.capabilities toolCall.name with
    | none => fail ("unknown tool: " ++ toolCall.name)
    | some capabilities => do
        let id ← perform .attemptId
        let now ← perform .now
        match ← callStore (.prepareAttempt q.run
            ⟨id, toolCall.id, toolCall.name, toolCall.arguments, capabilities⟩ now) with
        | .prepared attempt => pure (some attempt)
        | _ => pure none
  else
    pure none

/-- The attempts of a response's tool calls. -/
def prepareCalls (runner : ActorRunner)
    : List LlmToolCall → Work (List (LlmToolCall × Option ToolAttempt))
  | [] => pure []
  | toolCall :: rest => do
      let attempt ← prepareCall runner toolCall
      let others ← prepareCalls runner rest
      pure ((toolCall, attempt) :: others)

/-- The results of a response's tool calls, the attempts among them, and whether the tool
budget was spent before the last one.
-/
structure CallResults where
  messages : List Message
  attemptIds : List AttemptId
  exhausted : Bool

/-- The loop over the prepared calls. -/
def runCalls (runner : ActorRunner)
    : List (LlmToolCall × Option ToolAttempt) → CallResults → Work CallResults
  | [], results => pure results
  | (toolCall, none) :: rest, results =>
      runCalls runner rest
        { results with
          messages := results.messages
            ++ [.toolResult toolCall.id (observationForOutcome (forbiddenTool toolCall.name))] }
  | (toolCall, some attempt) :: rest, results => do
      let q ← quantum
      if q.toolSteps ≥ runner.limits.maxToolSteps then
        pure { results with exhausted := true }
      else do
        update (fun q => { q with toolSteps := q.toolSteps + 1 })
        let outcome ← executeAttempt runner attempt.id toolCall.name toolCall.arguments []
        runCalls runner rest
          { results with
            messages := results.messages
              ++ [.toolResult toolCall.id (observationForOutcome outcome)]
            attemptIds := results.attemptIds ++ [attempt.id] }

/-- The results of the calls enter the transcript. -/
def storeResults (results : CallResults) : Work Unit :=
  if results.messages ≠ [] then do
    checkpoint [] results.attemptIds results.messages
    advanceProgress .knownToolOutcome
    extendMessages results.messages
  else
    pure ()

/-- The part of a model step after a response with tool calls. -/
def useTools (runner : ActorRunner) (response : LlmResponse) : Work Unit := do
  let assistant := Message.assistantToolCalls response.content response.toolCalls
  let prepared ← prepareCalls runner response.toolCalls
  checkpoint [] [] [assistant]
  advanceProgress .modelCheckpoint
  extendMessages [assistant]
  let results ← runCalls runner prepared ⟨[], [], false⟩
  storeResults results
  if results.exhausted then do
    executionBoundary runner
    exit (.returns .yielded)
  else
    pure ()

-----------------------------------------------------------------------------------------
-- Model steps
-----------------------------------------------------------------------------------------

/-- A preempted quantum goes on with the run that is attached next. -/
def reattach (runner : ActorRunner) : Work Unit := do
  let q ← quantum
  let now ← perform .now
  let ids ← perform .fresh
  match ← callStore (.attachNextRun q.run.lease runner.limits.maxEvents now ids) with
  | .attached (some run) => do
      update (fun q => { q with run := run })
      incorporate runner
  | _ => fail "preempted run was not resumable"

/-- The part of a model step after a final answer. -/
def conclude (runner : ActorRunner) (content : String) : Work Unit := do
  let q ← quantum
  let content := boundedReticulumResponse q.run.deliveryRoute content
  let id ← perform .outboxId
  let now ← perform .now
  let ids ← perform .fresh
  match ← callStore (.finalizeRun
      { run := q.run
        incorporatedEventIds := q.run.sourceEventIds
        finalMessages := [.assistant content]
        outbox :=
          [{ id := id
             intentKey := .final q.run.runId
             intentClass :=
              if q.run.ingressSource.isSome then "webhook_notification" else "interactive_reply"
             audience := q.run.audience
             payload := .text content }] } now ids) with
  | .finalized (.preempted _) => reattach runner
  | _ => do
      advanceProgress .finalized
      exit (.returns .completed)

/-- `definitions_for_policy` -/
def definitionsForPolicy (runner : ActorRunner) (policy : ExecutionPolicy) : List Tool :=
  runner.definitions.filter (fun tool => policy.allows tool.name)

/-- The request of a model step. -/
def modelRequest (runner : ActorRunner) (q : Quantum) : LlmRequest where
  messages :=
    (if isReticulumRoute q.run.deliveryRoute then
        [Message.system reticulumResponseInstructions] else [])
      ++ (runner.systemInstructions.map Message.system).toList ++ q.messages
  tools := definitionsForPolicy runner q.run.executionPolicy

/-- One round of the loop over the model steps. -/
def modelStep (runner : ActorRunner) : Work Unit := do
  executionBoundary runner
  match ← newerControl with
  | some control =>
      match control.kind with
      | .cancelRequested => do
          cancelQuantum control
          exit (.returns .cancelled)
      | .userMessage => do
          executionBoundary runner
          exit (.returns .yielded)
      | .externalCompletion => fail "internal error: entered unreachable code"
  | none => do
      let q ← quantum
      match ← awaitExecution runner (perform (.stream (modelRequest runner q))) with
      | .error text => fail text
      | .ok response =>
          if response.toolCalls = [] then
            conclude runner response.content
          else
            useTools runner response

/-- The loop over the model steps. -/
def modelLoop (runner : ActorRunner) : Nat → Work RunOnceOutcome
  | 0 => do
      executionBoundary runner
      pure .yielded
  | steps + 1 => do
      modelStep runner
      modelLoop runner steps

-----------------------------------------------------------------------------------------
-- Quanta
-----------------------------------------------------------------------------------------

/-- The `async` block of `run_leased`. -/
def workOnRun (runner : ActorRunner) : Work RunOnceOutcome := do
  let q ← quantum
  match ← callStore (.unresolvedAttempts q.run) with
  | .unresolved attempts => do
      recoverAll runner attempts
      modelLoop runner runner.limits.maxModelSteps
  | _ => pure .idle

/-- The `async` block and the clean-up after it, whose error counts first. -/
def workAndCleanUp (runner : ActorRunner) : Work RunOnceOutcome := fun q => do
  match ← workOnRun runner q with
  | (result, q) => do
      match ← stopExecutionHeartbeat runner q with
      | (.ok (), q) => .done (result, q)
      | (.error reason, q) => .done (.error reason, q)

/-- The part of `run_leased` after a run is attached. -/
def runAttached (runner : ActorRunner) : Work RunOnceOutcome := do
  incorporate runner
  update (fun q => { q with heartbeat := true })
  workAndCleanUp runner

/-- The result of a piece of a quantum, as `run_leased` returns it. -/
def leasedResult : Except Exit RunOnceOutcome → Except RunnerError RunOnceOutcome
  | .ok outcome => .ok outcome
  | .error (.returns outcome) => .ok outcome
  | .error (.fails error) => .error error

/-- `run_leased`: its result, and the variables it leaves if a run was attached. -/
def runLeased (runner : ActorRunner) (lease : ActorLease)
    : Program Ops (Except RunnerError RunOnceOutcome × Option Quantum) := do
  let now ← .ask (I := Ops) .now
  let ids ← .ask (I := Ops) .fresh
  match ← .ask (I := Ops) (.call none (.attachNextRun lease runner.limits.maxEvents now ids)) with
  | .error error => .done (.error (.call error), none)
  | .ok (.attached (some run)) => do
      let (result, q) ← runAttached runner
        { run := run, messages := [], progress := .none, toolSteps := 0, heartbeat := false }
      .done (leasedResult result, some q)
  | .ok _ => .done (.ok .idle, none)

structure QuantumReport where
  workItemId : Option WorkItemId
  outcome : RunOnceOutcome
  progress : QuantumProgress

inductive QuantumFailure
  | recoverableWork (disposition : FailureDisposition)
  | authorityUnavailable (error : RunnerError)

/-- The bookkeeping after a quantum that went through. -/
def recordOutcome (outcome : RunOnceOutcome) (q : Quantum)
    : Program Ops (Except QuantumFailure QuantumReport) := do
  let report : QuantumReport := ⟨some q.run.workItemId, outcome, q.progress⟩
  if q.progress ≠ .none then do
    let now ← .ask (I := Ops) .now
    match ← .ask (I := Ops) (.call (some q.run) (.recordProgress q.run.fence now)) with
    | .error error => .done (.error (.authorityUnavailable (.call error)))
    | .ok _ => .done (.ok report)
  else
    .done (.ok report)

/-- The bookkeeping after a quantum that failed. -/
def recordError (runner : ActorRunner) (error : RunnerError) (q : Quantum)
    : Program Ops (Except QuantumFailure QuantumReport) := do
  if error.isAuthority then
    .done (.error (.authorityUnavailable error))
  else do
    let now ← .ask (I := Ops) .now
    let ids ← .ask (I := Ops) .fresh
    match ← .ask (I := Ops) (.call (some q.run)
        (.recordFailure q.run.fence (runner.errorText error) q.progress now ids)) with
    | .error error => .done (.error (.authorityUnavailable (.call error)))
    | .ok (.failed disposition) => .done (.error (.recoverableWork disposition))
    | .ok _ => .done (.error (.authorityUnavailable error))

/-- The classification of a quantum's result. -/
def classify (runner : ActorRunner)
    : Except RunnerError RunOnceOutcome × Option Quantum
      → Program Ops (Except QuantumFailure QuantumReport)
  | (.ok outcome, none) => .done (.ok ⟨none, outcome, .none⟩)
  | (.ok outcome, some q) => recordOutcome outcome q
  | (.error error, none) => .done (.error (.authorityUnavailable error))
  | (.error error, some q) => recordError runner error q

/-- `run_quantum`. The lease it releases differs from the newest renewal in the expiry at
most, which a release does not look at.
-/
def runQuantum (runner : ActorRunner) (actorId : ActorId) (owner : String)
    : Program Ops (Except QuantumFailure QuantumReport) := do
  let now ← .ask (I := Ops) .now
  match durationMillis runner.limits.leaseDuration with
  | .error text => .done (.error (.authorityUnavailable (.failed text)))
  | .ok millis => do
      match ← .ask (I := Ops) (.call none
          (.acquireReadyActorFor actorId owner now (Timestamp.plusMillis now millis))) with
      | .error error => .done (.error (.authorityUnavailable (.call error)))
      | .ok (.acquired (some lease)) => do
          let (result, q) ← runLeased runner lease
          let classified ← classify runner (result, q)
          match ← .ask (I := Ops) (.call (q.map (·.run))
              (.releaseLease ((q.map (·.run.lease)).getD lease))) with
          | .ok _ => .done classified
          | .error error =>
              match classified with
              | .ok _ => .done (.error (.authorityUnavailable (.call error)))
              | .error failure => .done (.error failure)
      | .ok _ => .done (.ok ⟨none, .idle, .none⟩)

end Codrik.Runtime.Runner
