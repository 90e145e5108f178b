import Codrik.Runtime.Gateway
import Codrik.Runtime.Message

/-! Commands and answers of the runtime store (`runtime/store.rs`, `agent/tool.rs`). -/

namespace Codrik.Runtime

-----------------------------------------------------------------------------------------
-- Ingress
-----------------------------------------------------------------------------------------

/-- The external id of an event: the UUID a local command or webhook event is known by, or
the text a remote gateway chose.
-/
inductive ExternalId
  | request (id : RequestId)
  | cancel (id : CancelId)
  | event (id : EventId)
  | remote (text : String)
deriving DecidableEq, Repr

structure NewInboundEvent where
  gateway : String
  externalId : ExternalId
  identityProvider : String
  identitySubject : String
  kind : EventKind
  audience : Audience
  deliveryRoute : Option DeliveryRoute
  executionPolicy : ExecutionPolicy
  recordLatestTelegramRoute : Bool
  payloadJson : StoredJson InboundPayload

inductive IngressOutcome
  | accepted (eventId : EventId) (workItemId : WorkItemId) (sequence : Nat)
  | duplicate (eventId : EventId) (sequence : Nat)
  | unauthorized
deriving DecidableEq, Repr

structure LocalSubmission where
  requestId : RequestId
  text : String
  promptSha256 : String

inductive LocalSubmitOutcome
  | accepted (eventId : EventId) (workItemId : WorkItemId) (sequence : Nat)
  | duplicate (eventId : EventId) (workItemId : Option WorkItemId) (sequence : Nat)
  | conflict
  | actorUnavailable
deriving DecidableEq, Repr

structure LocalCancel where
  cancelId : CancelId
  requestId : RequestId

structure CancelOutcome where
  cancelId : CancelId
  affectedRequestIds : List RequestId
  alreadyTerminal : Bool
deriving DecidableEq, Repr

inductive IdentityKind
  | explicit | automatic
deriving DecidableEq, Repr

/-- `WebhookIdempotency`: the kind of identity and its 32-byte hash. -/
structure WebhookIdempotency where
  kind : IdentityKind
  hash : BitVec 256

structure NewWebhookEvent where
  endpoint : String
  actorId : ActorId
  idempotency : WebhookIdempotency
  payloadJson : StoredJson InboundPayload

inductive WebhookIngressOutcome
  | accepted (eventId : EventId) (workItemId : WorkItemId) (sequence : Nat)
      (routeSnapshotted : Bool)
  | duplicate (eventId : EventId)
  | actorUnavailable
deriving DecidableEq, Repr

-----------------------------------------------------------------------------------------
-- Leases, runs and control events
-----------------------------------------------------------------------------------------

structure ActorLease where
  actorId : ActorId
  ownerId : String
  generation : Nat
  expiresAt : Timestamp
deriving DecidableEq, Repr

structure AttachedRun where
  lease : ActorLease
  workItemId : WorkItemId
  runId : RunId
  observedSequence : Nat
  sourceEventIds : List EventId
  requestIds : List RequestId
  audience : Audience
  deliveryRoute : Option DeliveryRoute
  executionPolicy : ExecutionPolicy
  ingressSource : Option String
  messages : List Message
deriving DecidableEq

structure FailureFence where
  lease : ActorLease
  workItemId : WorkItemId
  runId : RunId
deriving DecidableEq, Repr

/-- `FailureFence::from` -/
def AttachedRun.fence (run : AttachedRun) : FailureFence :=
  ⟨run.lease, run.workItemId, run.runId⟩

structure ControlEvent where
  eventId : EventId
  sequence : Nat
  kind : EventKind
deriving DecidableEq, Repr

inductive QuantumProgress
  | none | modelCheckpoint | knownToolOutcome | finalized
deriving DecidableEq, Repr

inductive FailureDisposition
  | retryAt (time : Timestamp)
  | terminalized
deriving DecidableEq, Repr

-----------------------------------------------------------------------------------------
-- Tool attempts and artifacts
-----------------------------------------------------------------------------------------

structure ToolCapabilities where
  retrySafe : Bool
  acceptsIdempotencyKey : Bool
  cancellable : Bool
  outcomeProbe : Bool
  compensatable : Bool
  requiresApproval : Bool
deriving DecidableEq, Repr

structure FileArtifact where
  path : String
  displayName : String
  mediaType : String
  caption : Option String
deriving DecidableEq, Repr

structure ToolExecution where
  observation : String
  artifacts : List FileArtifact
deriving DecidableEq, Repr

structure ManagedArtifact where
  id : ArtifactId
  managedPath : String
  displayName : String
  mediaType : String
  size : Nat
  sha256 : String
  caption : Option String
deriving DecidableEq, Repr

structure DurableToolExecution where
  observation : String
  artifacts : List ManagedArtifact
deriving DecidableEq, Repr

inductive AttemptOutcome
  | succeeded (execution : DurableToolExecution)
  | failedKnown (message : String)
  | cancelledKnown
deriving DecidableEq, Repr

inductive AttemptRecovery
  | mayInvoke
  | outcomeUnknown
  | terminal (outcome : AttemptOutcome)
deriving DecidableEq, Repr

structure ToolAttempt where
  id : AttemptId
  toolCallId : String
  toolName : String
  argumentsJson : String
  capabilities : ToolCapabilities
  state : AttemptState
deriving DecidableEq, Repr

structure NewToolAttempt where
  id : AttemptId
  toolCallId : String
  toolName : String
  argumentsJson : String
  capabilities : ToolCapabilities

structure BeginArtifact where
  id : ArtifactId
  actorId : ActorId
  attemptId : AttemptId
  managedPath : String
  size : Nat
  owner : String
  leaseUntil : Timestamp

structure ArtifactLease where
  id : ArtifactId
  actorId : ActorId
  attemptId : AttemptId
  owner : String
  expiresAt : Timestamp
deriving DecidableEq, Repr

-----------------------------------------------------------------------------------------
-- Results
-----------------------------------------------------------------------------------------

inductive OutboxPayload
  | text (text : String)
  | file (artifact : ManagedArtifact)
  | terminalError (code message : String)
deriving DecidableEq, Repr

/-- The intent keys the runtime formats from run and artifact ids, and any other text. -/
inductive IntentKey
  | final (run : RunId)
  | cancelled (run : RunId)
  | artifact (run : RunId) (artifact : ArtifactId)
  | terminalPayloadError (run : RunId)
  | dispatcherFailed (run : RunId)
  | named (text : String)
deriving DecidableEq, Repr

structure NewOutboxIntent where
  id : OutboxId
  intentKey : IntentKey
  intentClass : String
  audience : Audience
  payload : OutboxPayload

structure CheckpointRun where
  run : AttachedRun
  incorporatedEventIds : List EventId
  checkpointedAttemptIds : List AttemptId
  messages : List Message

structure FinalizeRun where
  run : AttachedRun
  incorporatedEventIds : List EventId
  finalMessages : List Message
  outbox : List NewOutboxIntent

/-- The states a request, its run and its work item end in. -/
inductive TerminalState
  | completed | cancelled | failedTerminal
deriving DecidableEq, Repr

def TerminalState.request : TerminalState → LocalRequestState
  | .completed => .completed
  | .cancelled => .cancelled
  | .failedTerminal => .failedTerminal

theorem TerminalState.request_ne_active (terminal : TerminalState)
    : terminal.request ≠ .active := by
  cases terminal <;> decide

def TerminalState.event : TerminalState → EventState
  | .completed => .completed
  | .cancelled => .cancelled
  | .failedTerminal => .failedTerminal

def TerminalState.run : TerminalState → RunState
  | .completed => .completed
  | .cancelled => .cancelled
  | .failedTerminal => .failedTerminal

theorem TerminalState.run_ne_active (terminal : TerminalState) : terminal.run ≠ .active := by
  cases terminal <;> decide

def TerminalState.workItem : TerminalState → WorkItemState
  | .completed => .completed
  | .cancelled => .cancelled
  | .failedTerminal => .failedTerminal

inductive FinalizeOutcome
  | completed
  | preempted (newestSequence : Nat)
deriving DecidableEq, Repr

end Codrik.Runtime
