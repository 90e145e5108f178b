import Codrik.Runtime.Sqlite.Bundles
import Codrik.Runtime.Sqlite.Dispatch
import Codrik.Runtime.Sqlite.LocalIngress

/-! Checkpoints, finalization and cancellation of runs (`sqlite/checkpoint.rs`). -/

namespace Codrik.Runtime.Sqlite

open Codrik.Relational

-----------------------------------------------------------------------------------------
-- Validation of a presented run
-----------------------------------------------------------------------------------------

/-- The stored row of an active run and its work item. -/
def activeRun? (s : Store) (runId : RunId) : Option (RunRow × WorkItemRow) := do
  let run ← s.runs.find? (fun run => run.id = runId ∧ run.state = .active)
  let work ← workItem? s run.workItemId
  pure (run, work)

/-- The presented run agrees with its durable row. -/
def MatchesRow (run : AttachedRun) (row : RunRow) (work : WorkItemRow) : Prop :=
  row.actorId = run.lease.actorId ∧ row.workItemId = run.workItemId
    ∧ row.leaseGeneration = run.lease.generation ∧ work.audience = run.audience
    ∧ row.executionPolicy = run.executionPolicy ∧ row.ingressSource = run.ingressSource

instance (run : AttachedRun) (row : RunRow) (work : WorkItemRow)
    : Decidable (MatchesRow run row work) :=
  inferInstanceAs (Decidable (_ ∧ _))

/-- `validate_run` -/
def validateRun (s : Store) (run : AttachedRun) (now : Timestamp) : Except StoreError Unit := do
  ensureCurrentLease s run.lease now
  match activeRun? s run.runId with
  | none => .error (.rejected "run is not active")
  | some (row, work) => do
      encodeAudience run.audience
      require (MatchesRow run row work)
        (.rejected "attached run does not match durable run state")

-----------------------------------------------------------------------------------------
-- Checkpoints
-----------------------------------------------------------------------------------------

/-- `require_unique_ids` -/
def requireUniqueIds (eventIds : List EventId) : Except StoreError Unit :=
  require eventIds.Nodup (.rejected "event ids must be unique")

def incorporateEach (runId : RunId) : List EventId → Store → Except StoreError Store
  | [], s => .ok s
  | eventId :: rest, s => do
      require (s.runEvents.count (fun row => row.runId = runId ∧ row.eventId = eventId) = 1)
        (.eventNotAttached eventId)
      incorporateEach runId rest
        { s with
          runEvents := s.runEvents.updateWhere
            (fun row => row.runId = runId ∧ row.eventId = eventId)
            (fun row => { row with incorporated := true }) }

/-- `incorporate_events` -/
def incorporateEvents (run : AttachedRun) (eventIds : List EventId) (s : Store)
    : Except StoreError Store := do
  requireUniqueIds eventIds
  incorporateEach run.runId eventIds s

/-- The attempt states whose outcome is known. -/
def AttemptState.Settled (state : AttemptState) : Prop :=
  state = .succeeded ∨ state = .failedKnown ∨ state = .cancelledKnown

instance (state : AttemptState) : Decidable (AttemptState.Settled state) :=
  inferInstanceAs (Decidable (_ ∨ _))

/-- `checkpoint_attempts` -/
def checkpointAttempts (run : AttachedRun) : List AttemptId → Store → Except StoreError Store
  | [], s => .ok s
  | attemptId :: rest, s => do
      require (s.toolAttempts.count (fun row => row.id = attemptId ∧ row.runId = run.runId
        ∧ AttemptState.Settled row.state) = 1) (.attemptNotAttached attemptId)
      checkpointAttempts run rest
        { s with
          toolAttempts := s.toolAttempts.updateWhere
            (fun row => row.id = attemptId ∧ row.runId = run.runId
              ∧ AttemptState.Settled row.state)
            (fun row => { row with observationCheckpointed := true }) }

/-- `insert_messages` -/
def insertMessages (run : AttachedRun) (messages : List Message) (s : Store)
    : Except StoreError Store := do
  encodeAudience run.audience
  .ok { s with
    recentMessages := s.recentMessages ++ messages.map (fun message =>
      { actorId := run.lease.actorId, workItemId := run.workItemId, runId := run.runId,
        audience := run.audience, messageJson := .decoded message }) }

/-- `checkpoint_run` -/
def checkpointRun (command : CheckpointRun) (now : Timestamp) (s : Store)
    : Except StoreError (Unit × Store) := do
  validateRun s command.run now
  let s ← incorporateEvents command.run command.incorporatedEventIds s
  let s ← checkpointAttempts command.run command.checkpointedAttemptIds s
  let s ← insertMessages command.run command.messages s
  .ok ((), s)

-----------------------------------------------------------------------------------------
-- Terminal bundles
-----------------------------------------------------------------------------------------

structure TerminalBundleContext where
  actorId : ActorId
  workItemId : WorkItemId
  runId : RunId
  audience : Audience
  deliveryRoute : Option DeliveryRoute
  executionPolicy : ExecutionPolicy
  ingressSource : Option String

/-- `TerminalBundleContext::from` -/
def terminalContext (run : AttachedRun) : TerminalBundleContext where
  actorId := run.lease.actorId
  workItemId := run.workItemId
  runId := run.runId
  audience := run.audience
  deliveryRoute := run.deliveryRoute
  executionPolicy := run.executionPolicy
  ingressSource := run.ingressSource

def intentReusedError : StoreError :=
  .rejected "outbox intent key was reused with different immutable data"

/-- Drops the intents whose key occurred before; they must carry the same data. -/
def uniqueIntents (unique : List NewOutboxIntent)
    : List NewOutboxIntent → Except StoreError (List NewOutboxIntent)
  | [] => .ok unique
  | intent :: rest =>
      match unique.find? (·.intentKey = intent.intentKey) with
      | some existing => do
          require (existing.intentClass = intent.intentClass
            ∧ existing.audience = intent.audience ∧ existing.payload = intent.payload)
            intentReusedError
          uniqueIntents unique rest
      | none => uniqueIntents (unique ++ [intent]) rest

/-- The deliveries of one bundle: the intents' payloads under fresh delivery ids. -/
def bundleDeliveries (intents : List NewOutboxIntent) (ids : Nat → DeliveryId)
    : List (DeliveryId × FinalPayload) :=
  intents.mapIdx (fun ordinal intent => (ids ordinal, payloadFromOutbox intent.payload))

/-- The intent that stands in for a payload no bundle can carry. -/
def terminalPayloadError (context : TerminalBundleContext) (error : String) (ids : FreshIds)
    : NewOutboxIntent where
  id := ids.outbox 0
  intentKey := .terminalPayloadError context.runId
  intentClass := "terminal_error"
  audience := context.audience
  payload := .terminalError "invalid_final_payload" error

/-- The intents to store and the state they leave the requests in. The sizes checked do not
depend on the delivery ids.
-/
def effectiveIntents (context : TerminalBundleContext) (intents : List NewOutboxIntent)
    (requested : TerminalState) (ids : FreshIds)
    : Except StoreError (List NewOutboxIntent × TerminalState) :=
  match manifestFor (bundleDeliveries intents (ids.delivery 0)) with
  | .ok _ => .ok (intents, requested)
  | .error error =>
      let replacement := [terminalPayloadError context error ids]
      match manifestFor (bundleDeliveries replacement (ids.delivery 0)) with
      | .ok _ => .ok (replacement, .failedTerminal)
      | .error error => .error (.rejected error)

structure BundlePlan where
  id : BundleId
  requestId : RequestId
  deliveries : List (DeliveryId × FinalPayload)
  manifest : List BundleManifestEntry

def buildPlans (intents : List NewOutboxIntent) (ids : FreshIds) (position : Nat)
    : List RequestId → Except StoreError (List BundlePlan)
  | [] => .ok []
  | requestId :: rest =>
      let deliveries := bundleDeliveries intents (ids.delivery position)
      match manifestFor deliveries with
      | .error error => .error (.rejected error)
      | .ok manifest => do
          let plans ← buildPlans intents ids (position + 1) rest
          .ok (⟨ids.bundle position, requestId, deliveries, manifest⟩ :: plans)

/-- `insert_outbox`: stores the intent, or finds the same one stored before. -/
def insertOutbox (context : TerminalBundleContext) (intent : NewOutboxIntent) (s : Store)
    : Except StoreError (OutboxId × Store) := do
  require (intent.audience = context.audience)
    (.rejected "outbox audience must match the finalized run")
  encodeAudience intent.audience
  let outbox ← execute (s.outbox.insertUnless (·.intentKey = intent.intentKey)
    { id := intent.id, intentKey := intent.intentKey, actorId := context.actorId,
      workItemId := context.workItemId, runId := context.runId,
      intentClass := intent.intentClass, audience := intent.audience,
      payloadJson := intent.payload })
  let stored ← execute (outbox.find? (·.intentKey = intent.intentKey))
  require (stored.actorId = context.actorId ∧ stored.workItemId = context.workItemId
    ∧ stored.runId = context.runId ∧ stored.intentClass = intent.intentClass
    ∧ stored.audience = intent.audience ∧ stored.payloadJson = intent.payload)
    intentReusedError
  .ok (stored.id, { s with outbox := outbox })

def insertOutboxes (context : TerminalBundleContext)
    : List NewOutboxIntent → Store → Except StoreError (List OutboxId × Store)
  | [], s => .ok ([], s)
  | intent :: rest, s => do
      let (outboxId, s) ← insertOutbox context intent s
      let (outboxIds, s) ← insertOutboxes context rest s
      .ok (outboxId :: outboxIds, s)

def projectIntents (route : DeliveryRoute) (ids : FreshIds) (position : Nat)
    : List (NewOutboxIntent × OutboxId) → Store → Except StoreError Store
  | [], s => .ok s
  | (intent, outboxId) :: rest, s => do
      let s ← projectOutboxToGateway intent.intentKey outboxId intent.payload route
        (ids.gatewayDelivery position) s
      projectIntents route ids (position + 1) rest s

/-- The newest incorporated event of the run, else its newest attached event. -/
def sourceEventSequence (s : Store) (runId : RunId) : Option Nat :=
  (((s.events.select (fun event => Incorporated s runId event.id)).map
      (·.mailboxSequence)).max?).or
    (((s.events.select (fun event => Attached s runId event.id)).map
      (·.mailboxSequence)).max?)

def deferResults (actorId : ActorId) (sequence : Nat)
    : List OutboxId → Store → Except StoreError Store
  | [], s => .ok s
  | outboxId :: rest, s => do
      let deferred ← execute (s.deferredWebhookResults.insertUnless (·.outboxId = outboxId)
        { outboxId := outboxId, actorId := actorId, eventSequence := sequence,
          state := .pending, releasedAt := none })
      deferResults actorId sequence rest { s with deferredWebhookResults := deferred }

/-- Hands the stored intents to the run's route, or defers those of a webhook without one. -/
def routeIntents (context : TerminalBundleContext) (intents : List NewOutboxIntent)
    (outboxIds : List OutboxId) (ids : FreshIds) (s : Store)
    : Except StoreError Store :=
  match context.deliveryRoute with
  | some route => projectIntents route ids 0 (intents.zip outboxIds) s
  | none =>
      if context.ingressSource.isSome ∧ context.executionPolicy = .skillsOnly then
        match sourceEventSequence s context.runId with
        | none => .error (.rejected "webhook run has no source event sequence")
        | some sequence => deferResults context.actorId sequence outboxIds s
      else
        .ok s

def insertDeliveries (plan : BundlePlan) (ordinal : Nat)
    : List (DeliveryId × OutboxId) → Store → Except StoreError Store
  | [], s => .ok s
  | (deliveryId, outboxId) :: rest, s => do
      let deliveries ← execute (s.outboxDeliveries.insert?
        { id := deliveryId, outboxId := outboxId, bundleId := plan.id, ordinal := ordinal,
          address := plan.requestId })
      insertDeliveries plan (ordinal + 1) rest { s with outboxDeliveries := deliveries }

/-- The active request a bundle ends. -/
def AwaitsBundle (requestId : RequestId) (request : RequestRow) : Prop :=
  request.requestId = requestId ∧ request.state = .active ∧ request.resultBundleId = none

instance (requestId : RequestId) : DecidablePred (AwaitsBundle requestId) :=
  fun _ => inferInstanceAs (Decidable (_ ∧ _))

/-- The end of a request: its terminal state and result bundle. -/
def RequestRow.settle (terminal : TerminalState) (bundle : BundleId) (request : RequestRow)
    : RequestRow :=
  { request with state := terminal.request, resultBundleId := some bundle }

def insertBundle (terminal : TerminalState) (now : Timestamp) (outboxIds : List OutboxId)
    (plan : BundlePlan) (s : Store)
    : Except StoreError Store := do
  let bundles ← execute (s.resultBundles.insert?
    { id := plan.id, requestId := plan.requestId, deliveryCount := plan.deliveries.length,
      manifestSha256 := .of plan.manifest, state := .pending, attemptCount := 0,
      nextAttemptAt := none, claimOwner := none, claimExpiresAt := none, lastError := none,
      createdAt := now })
  let s ← insertDeliveries plan 0 ((plan.deliveries.map (·.1)).zip outboxIds)
    { s with resultBundles := bundles }
  require (s.localRequests.count (AwaitsBundle plan.requestId) = 1)
    (.rejected "local request changed during terminal bundle creation")
  .ok { s with
    localRequests := s.localRequests.updateWhere (AwaitsBundle plan.requestId)
      (·.settle terminal plan.id) }

def insertBundles (terminal : TerminalState) (now : Timestamp) (outboxIds : List OutboxId)
    : List BundlePlan → Store → Except StoreError Store
  | [], s => .ok s
  | plan :: rest, s => do
      let s ← insertBundle terminal now outboxIds plan s
      insertBundles terminal now outboxIds rest s

/-- `create_terminal_bundles` -/
def createTerminalBundles (context : TerminalBundleContext) (requestIds : List RequestId)
    (intents : List NewOutboxIntent) (requested : TerminalState) (now : Timestamp)
    (ids : FreshIds) (s : Store)
    : Except StoreError (TerminalState × Store) := do
  let unique ← uniqueIntents [] intents
  let (intents, terminal) ← effectiveIntents context unique requested ids
  let plans ← buildPlans intents ids 0 requestIds
  let (outboxIds, s) ← insertOutboxes context intents s
  let s ← routeIntents context intents outboxIds ids s
  let s ← insertBundles terminal now outboxIds plans s
  .ok (terminal, s)

-----------------------------------------------------------------------------------------
-- Finalization
-----------------------------------------------------------------------------------------

/-- The pending input of the run's actor and audience above a sequence. -/
def CompatibleInput (run : AttachedRun) (event : EventRow) : Prop :=
  event.actorId = run.lease.actorId ∧ event.state = .pending
    ∧ event.mailboxSequence > run.observedSequence
    ∧ (event.kind = .cancelRequested ∨ event.kind = .userMessage)
    ∧ event.audience = run.audience

instance (run : AttachedRun) : DecidablePred (CompatibleInput run) :=
  fun _ => inferInstanceAs (Decidable (_ ∧ _))

/-- `newest_compatible_input` -/
def newestCompatibleInput (s : Store) (run : AttachedRun) : Option Nat :=
  ((s.events.select (CompatibleInput run)).map (·.mailboxSequence)).max?

/-- `require_all_events_incorporated` -/
def requireAllEventsIncorporated (s : Store) (run : AttachedRun) (eventIds : List EventId)
    : Except StoreError Unit := do
  requireUniqueIds eventIds
  let durable := s.runEvents.select (·.runId = run.runId)
  require (durable.length = eventIds.length
      ∧ ∀ row ∈ durable, row.incorporated = true ∧ row.eventId ∈ eventIds)
    (.rejected "all attached source events must be incorporated before finalization")

/-- `incorporated_local_requests` -/
def incorporatedLocalRequests (s : Store) (runId : RunId) : List RequestId :=
  (s.localRequests.selectOrdered
    (fun request => Incorporated s runId request.eventId ∧ request.state = .active)
    (fun request => toLex (request.createdAt, request.requestId))).map (·.requestId)

/-- The artifacts of the stored outcomes, in order. -/
def succeededArtifacts : List AttemptRow → Except StoreError (List ManagedArtifact)
  | [] => .ok []
  | attempt :: rest =>
      match attempt.outcomeJson with
      | none => .error .constraint
      | some (.succeeded execution) => do
          let artifacts ← succeededArtifacts rest
          .ok (execution.artifacts ++ artifacts)
      | some _ => .error (.rejected "succeeded tool attempt has a non-success outcome")

/-- The intents `append_managed_artifact_intents` adds: one file for each artifact of a
checkpointed attempt that succeeded.
-/
def managedArtifactIntents (s : Store) (run : AttachedRun) (ids : FreshIds)
    : Except StoreError (List NewOutboxIntent) := do
  let artifacts ← succeededArtifacts (s.toolAttempts.selectOrdered
    (fun row => row.runId = run.runId ∧ row.state = .succeeded
      ∧ row.observationCheckpointed = true)
    (fun row => toLex (row.createdAt, row.id)))
  .ok (artifacts.mapIdx (fun position artifact =>
    { id := ids.outbox (position + 1), intentKey := .artifact run.runId artifact.id,
      intentClass := "interactive_file", audience := run.audience,
      payload := .file artifact }))

/-- `finalize_run` -/
def finalizeRun (command : FinalizeRun) (now : Timestamp) (ids : FreshIds) (s : Store)
    : Except StoreError (FinalizeOutcome × Store) := do
  let run := command.run
  validateRun s run now
  match newestCompatibleInput s run with
  | some newest => .ok (.preempted newest, s)
  | none => do
      requireAllEventsIncorporated s run command.incorporatedEventIds
      let s ← insertMessages run command.finalMessages s
      let artifacts ← managedArtifactIntents s run ids
      let (terminal, s) ← createTerminalBundles (terminalContext run)
        (incorporatedLocalRequests s run.runId) (command.outbox ++ artifacts) .completed
        now ids s
      .ok (.completed,
        { s with
          events := s.events.updateWhere (fun event => Incorporated s run.runId event.id)
            (fun event => { event with state := terminal.event }) (EventRow.keepsKey_settle terminal)
          runs := s.runs.updateWhere (fun row => row.id = run.runId ∧ row.state = .active)
            (·.finish terminal.run now) (RunRow.keepsKey_finish terminal.run_ne_active)
          workItems := s.workItems.updateWhere (·.id = run.workItemId)
            (·.enter terminal.workItem now) })

-----------------------------------------------------------------------------------------
-- Cancellation
-----------------------------------------------------------------------------------------

/-- A request that the cancellation event was accepted for and that belongs to the run. -/
def CancellationTarget (s : Store) (run : AttachedRun) (control : ControlEvent)
    (request : RequestRow)
    : Prop :=
  request.workItemId = some run.workItemId ∧ request.actorId = run.lease.actorId
    ∧ request.state = .active
    ∧ ∃ target ∈ s.cancelTargets, target.requestId = request.requestId
      ∧ ∃ event ∈ s.events, event.id = control.eventId ∧ event.gateway = localCancelGateway
        ∧ event.externalId = .cancel target.cancelId

instance (s : Store) (run : AttachedRun) (control : ControlEvent)
    : DecidablePred (CancellationTarget s run control) :=
  fun _ => inferInstanceAs (Decidable (_ ∧ _))

/-- `cancellation_target_requests` -/
def cancellationTargetRequests (s : Store) (run : AttachedRun) (control : ControlEvent)
    : List RequestId :=
  (s.localRequests.selectOrdered (CancellationTarget s run control)
    (fun request => toLex (request.createdAt, request.requestId))).map (·.requestId)

def cancelledIntent (run : AttachedRun) (ids : FreshIds) : NewOutboxIntent where
  id := ids.outbox 1
  intentKey := .cancelled run.runId
  intentClass := "terminal_error"
  audience := run.audience
  payload := .terminalError "cancelled" "request was cancelled"

/-- The cancellation event that `cancel_run` consumes. -/
def PendingCancel (run : AttachedRun) (control : ControlEvent) (event : EventRow) : Prop :=
  event.id = control.eventId ∧ event.actorId = run.lease.actorId ∧ event.state = .pending
    ∧ event.kind = .cancelRequested

instance (run : AttachedRun) (control : ControlEvent)
    : DecidablePred (PendingCancel run control) :=
  fun _ => inferInstanceAs (Decidable (_ ∧ _))

/-- The bundles of a cancellation, for the requests that have any. -/
def createCancellationBundles (run : AttachedRun) (requestIds : List RequestId)
    (now : Timestamp) (ids : FreshIds) (s : Store)
    : Except StoreError Store :=
  if requestIds = [] then
    .ok s
  else do
    let (_, s) ← createTerminalBundles (terminalContext run) requestIds
      [cancelledIntent run ids] .cancelled now ids s
    .ok s

/-- `cancel_run` -/
def cancelRun (run : AttachedRun) (control : ControlEvent) (now : Timestamp) (ids : FreshIds)
    (s : Store)
    : Except StoreError (Unit × Store) := do
  validateRun s run now
  require (s.events.count (PendingCancel run control) = 1)
    (.rejected "cancellation event is no longer pending")
  let s := { s with
    events := s.events.updateWhere (PendingCancel run control)
      (fun event => { event with state := .cancelled }) (EventRow.keepsKey_state .cancelled)
    toolAttempts := s.toolAttempts.updateWhere
      (fun row => row.runId = run.runId ∧ row.state = .running)
      (fun row => { row with state := .outcomeUnknown })
      (AttemptRow.keepsKey_state .outcomeUnknown) }
  let s ← createCancellationBundles run (cancellationTargetRequests s run control) now ids s
  .ok ((),
    { s with
      events := s.events.updateWhere
        (fun event => event.workItemId = some run.workItemId
          ∧ (event.state = .pending ∨ event.state = .processing))
        (fun event => { event with state := .cancelled }) (EventRow.keepsKey_state .cancelled)
      runs := s.runs.updateWhere (·.id = run.runId)
        (·.finish .cancelled now) (RunRow.keepsKey_cancel now)
      workItems := s.workItems.updateWhere (·.id = run.workItemId) (·.enter .cancelled now)
        (WorkItemRow.keepsKey_enter .cancelled now) })

end Codrik.Runtime.Sqlite
