import Codrik.Relational.Table
import Codrik.Runtime.Store

/-! The tables of the runtime database (`runtime/migrations`) with their PRIMARY KEY and
UNIQUE constraints, and the errors a store operation answers with.
-/

namespace Codrik.Runtime.Sqlite

open Codrik.Relational

-----------------------------------------------------------------------------------------
-- Actors and work
-----------------------------------------------------------------------------------------

structure ActorRow where
  id : ActorId
  enabled : Bool
  nextMailboxSequence : Nat
deriving DecidableEq

instance : Constrained ActorRow where
  Clash a b := a.id = b.id
  symm := Eq.symm

structure IdentityRow where
  provider : String
  subject : String
  actorId : ActorId
deriving DecidableEq

instance : Constrained IdentityRow where
  Clash a b := a.provider = b.provider ∧ a.subject = b.subject
  symm clash := ⟨clash.1.symm, clash.2.symm⟩

/-- The texts that `last_error` holds: an error as it was reported, or the JSON object that
names a malformed payload or checkpoint.
-/
inductive LastError
  | reported (error : String)
  | malformed (code message : String) (runId : RunId)
deriving DecidableEq

structure WorkItemRow where
  id : WorkItemId
  actorId : ActorId
  kind : WorkItemKind
  audience : Audience
  state : WorkItemState
  failureCount : Nat
  nextAttemptAt : Option Timestamp
  lastError : Option LastError
  cancellationRequestedAt : Option Timestamp
  updatedAt : Timestamp
deriving DecidableEq

/-- `SET state = ?, updated_at = ?` -/
def WorkItemRow.enter (state : WorkItemState) (now : Timestamp) (work : WorkItemRow)
    : WorkItemRow :=
  { work with state := state, updatedAt := now }

instance : Constrained WorkItemRow where
  Clash a b := a.id = b.id
  symm := Eq.symm

theorem WorkItemRow.keepsKey_enter (state : WorkItemState) (now : Timestamp)
    : Table.KeepsKey (WorkItemRow.enter state now) :=
  ⟨fun _ _ clash => clash⟩

structure EventRow where
  id : EventId
  actorId : ActorId
  workItemId : Option WorkItemId
  mailboxSequence : Nat
  gateway : String
  externalId : ExternalId
  kind : EventKind
  audience : Audience
  deliveryRoute : Option DeliveryRoute
  executionPolicy : ExecutionPolicy
  ingressSource : Option String
  payloadJson : StoredJson InboundPayload
  state : EventState
  runId : Option RunId
deriving DecidableEq

instance : Constrained EventRow where
  Clash a b :=
    a.id = b.id
    ∨ (a.actorId = b.actorId ∧ a.mailboxSequence = b.mailboxSequence)
    ∨ (a.gateway = b.gateway ∧ a.externalId = b.externalId)
  symm clash := by
    rcases clash with same | ⟨actor, sequence⟩ | ⟨gateway, external⟩
    · exact Or.inl same.symm
    · exact Or.inr (Or.inl ⟨actor.symm, sequence.symm⟩)
    · exact Or.inr (Or.inr ⟨gateway.symm, external.symm⟩)

theorem EventRow.keepsKey_workItemId (fresh : WorkItemId)
    : Table.KeepsKey (fun event : EventRow => { event with workItemId := some fresh }) :=
  ⟨fun _ _ clash => clash⟩

theorem EventRow.keepsKey_state (state : EventState)
    : Table.KeepsKey (fun event : EventRow => { event with state := state }) :=
  ⟨fun _ _ clash => clash⟩

theorem EventRow.keepsKey_settle (terminal : TerminalState)
    : Table.KeepsKey (fun event : EventRow => { event with state := terminal.event }) :=
  EventRow.keepsKey_state terminal.event

structure LeaseRow where
  actorId : ActorId
  generation : Nat
  ownerId : String
  expiresAt : Timestamp
deriving DecidableEq

instance : Constrained LeaseRow where
  Clash a b := a.actorId = b.actorId
  symm := Eq.symm

-----------------------------------------------------------------------------------------
-- Runs
-----------------------------------------------------------------------------------------

structure RunRow where
  id : RunId
  actorId : ActorId
  workItemId : WorkItemId
  state : RunState
  leaseGeneration : Nat
  observedSequence : Nat
  executionPolicy : ExecutionPolicy
  ingressSource : Option String
  deliveryRoute : Option DeliveryRoute
  updatedAt : Timestamp
deriving DecidableEq

/-- The second alternative is the partial index `one_active_run_per_work_item`. -/
instance : Constrained RunRow where
  Clash a b :=
    a.id = b.id
    ∨ (a.state = .active ∧ b.state = .active ∧ a.workItemId = b.workItemId)
  symm clash := by
    rcases clash with same | ⟨left, right, work⟩
    · exact Or.inl same.symm
    · exact Or.inr ⟨right, left, work.symm⟩

/-- The end of a run. -/
def RunRow.finish (state : RunState) (now : Timestamp) (run : RunRow) : RunRow :=
  { run with state := state, updatedAt := now }

/-- A run that leaves `active` can only leave the partial index. -/
theorem RunRow.keepsKey_finish {state : RunState} {now : Timestamp} (ended : state ≠ .active)
    : Table.KeepsKey (RunRow.finish state now) where
  kept a b clash := by
    rcases clash with same | ⟨active, -⟩
    · exact Or.inl same
    · exact absurd active ended

theorem RunRow.keepsKey_cancel (now : Timestamp) : Table.KeepsKey (RunRow.finish .cancelled now) :=
  RunRow.keepsKey_finish (by decide)

theorem RunRow.keepsKey_fail (now : Timestamp)
    : Table.KeepsKey (RunRow.finish .failedTerminal now) :=
  RunRow.keepsKey_finish (by decide)

/-- `event_id` is UNIQUE, which makes the composite primary key redundant. -/
structure RunEventRow where
  runId : RunId
  eventId : EventId
  incorporated : Bool
deriving DecidableEq

instance : Constrained RunEventRow where
  Clash a b := a.eventId = b.eventId
  symm := Eq.symm

/-- Rows of `recent_messages` are only appended, so their order is the order of their ids. -/
structure MessageRow where
  actorId : ActorId
  workItemId : WorkItemId
  runId : RunId
  audience : Audience
  messageJson : StoredJson Message
deriving DecidableEq

structure AttemptRow where
  id : AttemptId
  runId : RunId
  toolCallId : String
  toolName : String
  argumentsJson : String
  capabilities : ToolCapabilities
  state : AttemptState
  outcomeJson : Option AttemptOutcome
  observationCheckpointed : Bool
  createdAt : Timestamp
deriving DecidableEq

instance : Constrained AttemptRow where
  Clash a b := a.id = b.id ∨ (a.runId = b.runId ∧ a.toolCallId = b.toolCallId)
  symm clash := by
    rcases clash with same | ⟨run, call⟩
    · exact Or.inl same.symm
    · exact Or.inr ⟨run.symm, call.symm⟩

theorem AttemptRow.keepsKey_state (state : AttemptState)
    : Table.KeepsKey (fun row : AttemptRow => { row with state := state }) :=
  ⟨fun _ _ clash => clash⟩

-----------------------------------------------------------------------------------------
-- Local requests and their results
-----------------------------------------------------------------------------------------

/-- `result_bundle_id` is UNIQUE because the bundle it refers to names one request. -/
structure RequestRow where
  requestId : RequestId
  actorId : ActorId
  eventId : EventId
  workItemId : Option WorkItemId
  promptSha256 : String
  state : LocalRequestState
  resultBundleId : Option BundleId
  createdAt : Timestamp
deriving DecidableEq

instance : Constrained RequestRow where
  Clash a b := a.requestId = b.requestId ∨ a.eventId = b.eventId
  symm clash := clash.imp Eq.symm Eq.symm

theorem RequestRow.keepsKey_workItemId (fresh : WorkItemId)
    : Table.KeepsKey (fun row : RequestRow => { row with workItemId := some fresh }) :=
  ⟨fun _ _ clash => clash⟩

structure CancelTargetRow where
  cancelId : CancelId
  requestId : RequestId
  createdAt : Timestamp
deriving DecidableEq

instance : Constrained CancelTargetRow where
  Clash a b := a.cancelId = b.cancelId ∧ a.requestId = b.requestId
  symm clash := ⟨clash.1.symm, clash.2.symm⟩

inductive FinalPayload
  | text (text : String)
  | file (artifact : ManagedArtifact)
  | terminalError (code message : String)
deriving DecidableEq

/-- A SHA-256 text, identified with what it is the hash of. -/
inductive Digest (α : Type)
  | of (content : α)
deriving DecidableEq

structure BundleManifestEntry where
  deliveryId : DeliveryId
  payloadKind : String
  decodedBytes : Nat
  sha256 : Digest FinalPayload
  chunkCount : Nat
deriving DecidableEq

structure BundleRow where
  id : BundleId
  requestId : RequestId
  deliveryCount : Nat
  manifestSha256 : Digest (List BundleManifestEntry)
  state : BundleState
  attemptCount : Nat
  nextAttemptAt : Option Timestamp
  claimOwner : Option String
  claimExpiresAt : Option Timestamp
  lastError : Option String
  createdAt : Timestamp
deriving DecidableEq

instance : Constrained BundleRow where
  Clash a b := a.id = b.id ∨ a.requestId = b.requestId
  symm clash := clash.imp Eq.symm Eq.symm

structure OutboxRow where
  id : OutboxId
  intentKey : IntentKey
  actorId : ActorId
  workItemId : WorkItemId
  runId : RunId
  intentClass : String
  audience : Audience
  payloadJson : OutboxPayload
deriving DecidableEq

instance : Constrained OutboxRow where
  Clash a b := a.id = b.id ∨ a.intentKey = b.intentKey
  symm clash := clash.imp Eq.symm Eq.symm

/-- `address` is the request the `local_ipc` transport delivers to. -/
structure OutboxDeliveryRow where
  id : DeliveryId
  outboxId : OutboxId
  bundleId : BundleId
  ordinal : Nat
  address : RequestId
deriving DecidableEq

instance : Constrained OutboxDeliveryRow where
  Clash a b :=
    a.id = b.id
    ∨ (a.outboxId = b.outboxId ∧ a.address = b.address)
    ∨ (a.bundleId = b.bundleId ∧ a.ordinal = b.ordinal)
  symm clash := by
    rcases clash with same | ⟨outbox, address⟩ | ⟨bundle, ordinal⟩
    · exact Or.inl same.symm
    · exact Or.inr (Or.inl ⟨outbox.symm, address.symm⟩)
    · exact Or.inr (Or.inr ⟨bundle.symm, ordinal.symm⟩)

-----------------------------------------------------------------------------------------
-- Gateways and webhooks
-----------------------------------------------------------------------------------------

inductive GatewayDeliveryState
  | pending | delivering | delivered | failedRetryable | failedTerminal | outcomeUnknown
deriving DecidableEq

/-- `intentKey` and `ordinal` make up the text `gateway:{intent_key}:{ordinal}`. -/
structure GatewayDeliveryRow where
  id : GatewayDeliveryId
  intentKey : IntentKey
  sourceOutboxId : OutboxId
  route : DeliveryRoute
  ordinal : Nat
  payloadJson : OutboxPayload
  state : GatewayDeliveryState
deriving DecidableEq

instance : Constrained GatewayDeliveryRow where
  Clash a b :=
    a.id = b.id
    ∨ (a.intentKey = b.intentKey ∧ a.ordinal = b.ordinal)
    ∨ (a.sourceOutboxId = b.sourceOutboxId ∧ a.route.gateway = b.route.gateway
      ∧ a.route.address = b.route.address ∧ a.ordinal = b.ordinal)
  symm clash := by
    rcases clash with same | ⟨key, ordinal⟩ | ⟨source, gateway, address, ordinal⟩
    · exact Or.inl same.symm
    · exact Or.inr (Or.inl ⟨key.symm, ordinal.symm⟩)
    · exact Or.inr (Or.inr ⟨source.symm, gateway.symm, address.symm, ordinal.symm⟩)

structure ReceiptRow where
  endpoint : String
  identityKind : IdentityKind
  identityHash : BitVec 256
  eventId : EventId
  acceptedAt : Timestamp
deriving DecidableEq

/-- The second alternative is the partial index `webhook_explicit_identity`. -/
instance : Constrained ReceiptRow where
  Clash a b :=
    a.endpoint = b.endpoint ∧ a.identityKind = b.identityKind
      ∧ a.identityHash = b.identityHash
      ∧ (a.acceptedAt = b.acceptedAt ∨ a.identityKind = .explicit)
  symm := by
    rintro a b ⟨endpoint, kind, hash, accepted⟩
    exact ⟨endpoint.symm, kind.symm, hash.symm, accepted.imp Eq.symm (kind ▸ ·)⟩

/-- The columns of `actor_latest_telegram_routes` form a route that replies to no message. -/
structure LatestRouteRow where
  actorId : ActorId
  route : DeliveryRoute
  mailboxSequence : Nat
deriving DecidableEq

instance : Constrained LatestRouteRow where
  Clash a b := a.actorId = b.actorId
  symm := Eq.symm

inductive DeferredState
  | pending | released | superseded
deriving DecidableEq

structure DeferredResultRow where
  outboxId : OutboxId
  actorId : ActorId
  eventSequence : Nat
  state : DeferredState
  releasedAt : Option Timestamp
deriving DecidableEq

instance : Constrained DeferredResultRow where
  Clash a b := a.outboxId = b.outboxId
  symm := Eq.symm

-----------------------------------------------------------------------------------------
-- Artifacts
-----------------------------------------------------------------------------------------

inductive ArtifactState
  | staging | referenced
deriving DecidableEq

structure ArtifactRow where
  id : ArtifactId
  actorId : ActorId
  attemptId : Option AttemptId
  state : ArtifactState
  managedPath : String
  sizeBytes : Nat
  sha256 : Option String
  stagingOwner : Option String
  stagingExpiresAt : Option Timestamp
deriving DecidableEq

instance : Constrained ArtifactRow where
  Clash a b := a.id = b.id ∨ a.managedPath = b.managedPath
  symm clash := clash.imp Eq.symm Eq.symm

-----------------------------------------------------------------------------------------
-- The database
-----------------------------------------------------------------------------------------

structure Store where
  actors : Table ActorRow
  identities : Table IdentityRow
  workItems : Table WorkItemRow
  events : Table EventRow
  actorLeases : Table LeaseRow
  runs : Table RunRow
  runEvents : Table RunEventRow
  recentMessages : List MessageRow
  toolAttempts : Table AttemptRow
  localRequests : Table RequestRow
  cancelTargets : Table CancelTargetRow
  resultBundles : Table BundleRow
  outbox : Table OutboxRow
  outboxDeliveries : Table OutboxDeliveryRow
  gatewayDeliveries : Table GatewayDeliveryRow
  webhookReceipts : Table ReceiptRow
  latestTelegramRoutes : Table LatestRouteRow
  deferredWebhookResults : Table DeferredResultRow
  artifacts : Table ArtifactRow

/-- The database before its first event: some actors and identities, and no work. -/
def Store.initial (actors : Table ActorRow) (identities : Table IdentityRow) : Store where
  actors := actors
  identities := identities
  workItems := ∅
  events := ∅
  actorLeases := ∅
  runs := ∅
  runEvents := ∅
  recentMessages := []
  toolAttempts := ∅
  localRequests := ∅
  cancelTargets := ∅
  resultBundles := ∅
  outbox := ∅
  outboxDeliveries := ∅
  gatewayDeliveries := ∅
  webhookReceipts := ∅
  latestTelegramRoutes := ∅
  deferredWebhookResults := ∅
  artifacts := ∅

/-- The errors of store operations. A failed operation commits nothing. `rejected` carries
the text of a `bail!`; `decode` and `constraint` stand for errors that the JSON decoder and
SQLite report themselves.
-/
inductive StoreError
  | staleLease
  | rejected (message : String)
  | eventNotAttached (id : EventId)
  | attemptNotAttached (id : AttemptId)
  | ackRejected (message : String)
  | decode
  | constraint
deriving DecidableEq

/-- The identifiers an operation draws, should it need them. Deliveries are numbered by the
position of their bundle and of their intent, gateway deliveries by intent and chunk.
-/
structure FreshIds where
  workItem : WorkItemId
  event : EventId
  run : RunId
  outbox : Nat → OutboxId
  bundle : Nat → BundleId
  delivery : Nat → Nat → DeliveryId
  gatewayDelivery : Nat → Nat → GatewayDeliveryId

/-- A statement whose constraints may reject it. -/
def execute {α : Type} (result : Option α) : Except StoreError α :=
  result.elim (.error .constraint) .ok

/-- `bail!` unless the condition holds. -/
def require (condition : Prop) [Decidable condition] (error : StoreError)
    : Except StoreError Unit :=
  if condition then .ok () else .error error

@[simp] theorem execute_eq_ok {α : Type} {result : Option α} {value : α}
    : execute result = .ok value ↔ result = some value := by
  cases result <;> simp [execute]

@[simp] theorem require_eq_ok {condition : Prop} [Decidable condition] {error : StoreError}
    {value : Unit}
    : require condition error = .ok value ↔ condition := by
  unfold require
  split <;> simp_all

/-- A sequence of statements succeeds exactly when each of them does. -/
theorem bind_eq_ok {ε α β : Type} {first : Except ε α} {next : α → Except ε β} {value : β}
    : first >>= next = .ok value ↔ ∃ a, first = .ok a ∧ next a = .ok value := by
  cases first with
  | error error => simp [bind, Except.bind]
  | ok a => simp [bind, Except.bind]

@[simp] theorem execute_eq_error {α : Type} {result : Option α} {error : StoreError}
    : execute result = .error error ↔ result = none ∧ error = .constraint := by
  cases result <;> simp [execute, eq_comm]

@[simp] theorem require_eq_error {condition : Prop} [Decidable condition]
    {failure error : StoreError}
    : require condition failure = .error error ↔ ¬condition ∧ error = failure := by
  unfold require
  split <;> simp_all [eq_comm]

/-- A sequence of statements fails at its first failure. -/
theorem bind_eq_error {ε α β : Type} {first : Except ε α} {next : α → Except ε β} {error : ε}
    : first >>= next = .error error ↔
      first = .error error ∨ ∃ a, first = .ok a ∧ next a = .error error := by
  cases first with
  | error error => simp [bind, Except.bind]
  | ok a => simp [bind, Except.bind]

end Codrik.Runtime.Sqlite
