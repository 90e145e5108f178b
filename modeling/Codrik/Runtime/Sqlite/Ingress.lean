import Codrik.Runtime.Sqlite.GatewayProjection

/-! Acceptance of gateway messages (`sqlite/ingress.rs`). -/

namespace Codrik.Runtime.Sqlite

open Codrik.Relational

-----------------------------------------------------------------------------------------
-- Statements shared by the ingress operations
-----------------------------------------------------------------------------------------

/-- `encode_audience`: a conversation needs an address. -/
def encodeAudience : Audience → Except StoreError Unit
  | .conversationScoped address =>
      require (isBlank address = false)
        (.rejected "conversation-scoped audience requires an address")
  | _ => .ok ()

/-- The work items a new message of the actor and audience may join. -/
def Joinable (actorId : ActorId) (audience : Audience) (work : WorkItemRow) : Prop :=
  work.actorId = actorId ∧ work.kind = .interactive ∧ work.audience = audience
    ∧ (work.state = .ready ∨ work.state = .waiting) ∧ work.cancellationRequestedAt = none

instance (actorId : ActorId) (audience : Audience) : DecidablePred (Joinable actorId audience) :=
  fun _ => inferInstanceAs (Decidable (_ ∧ _))

/-- The work item a new message joins: the last one touched, or a new one. -/
def workItemFor (s : Store) (actorId : ActorId) (audience : Audience) (fresh : WorkItemId)
    : WorkItemId :=
  match s.workItems.first? (Joinable actorId audience)
      (fun work => toLex (-work.updatedAt, work.id)) with
  | some work => work.id
  | none => fresh

/-- The columns of a work item at its insertion. -/
def newWorkItem (id : WorkItemId) (actorId : ActorId) (kind : WorkItemKind)
    (audience : Audience) (now : Timestamp)
    : WorkItemRow where
  id := id
  actorId := actorId
  kind := kind
  audience := audience
  state := .ready
  failureCount := 0
  nextAttemptAt := none
  lastError := none
  cancellationRequestedAt := none
  updatedAt := now

/-- The `ON CONFLICT(id) DO UPDATE` of the ingress operations. -/
def WorkItemRow.rejoin (now : Timestamp) (work : WorkItemRow) : WorkItemRow :=
  { work with
    state := if work.state = .waiting then .ready else work.state
    updatedAt := now }

def upsertWorkItem (s : Store) (id : WorkItemId) (actorId : ActorId) (audience : Audience)
    (now : Timestamp)
    : Except StoreError (Table WorkItemRow) :=
  if ∃ work ∈ s.workItems, work.id = id then
    .ok (s.workItems.updateWhere (·.id = id) (·.rejoin now))
  else
    execute (s.workItems.insert? (newWorkItem id actorId .interactive audience now))

/-- `next_sequence`: the actor's next mailbox sequence and the counter after it is taken. -/
def nextSequence (s : Store) (actorId : ActorId)
    : Except StoreError (Nat × Table ActorRow) :=
  match s.actors.find? (·.id = actorId) with
  | none => .error .constraint
  | some actor =>
      .ok (actor.nextMailboxSequence + 1, s.actors.updateWhere (·.id = actorId)
        (fun row => { row with nextMailboxSequence := row.nextMailboxSequence + 1 }))

/-- `actor_is_enabled` -/
def actorIsEnabled (s : Store) (actorId : ActorId) : Prop :=
  ∃ actor ∈ s.actors, actor.id = actorId ∧ actor.enabled = true

instance (s : Store) (actorId : ActorId) : Decidable (actorIsEnabled s actorId) :=
  inferInstanceAs (Decidable (∃ actor ∈ s.actors, _))

-----------------------------------------------------------------------------------------
-- Latest route
-----------------------------------------------------------------------------------------

/-- The newest result that waits for a route: ORDER BY event_sequence DESC, outbox_id DESC. -/
def newestDeferred (s : Store) (actorId : ActorId) : Option (DeferredResultRow × OutboxRow) := do
  let deferred ← s.deferredWebhookResults.first?
    (fun row => row.actorId = actorId ∧ row.state = .pending
      ∧ ∃ entry ∈ s.outbox, entry.id = row.outboxId)
    (fun row => OrderDual.toDual (toLex (row.eventSequence, row.outboxId)))
  let entry ← s.outbox.find? (·.id = deferred.outboxId)
  pure (deferred, entry)

def recordLatestRoute (s : Store) (actorId : ActorId) (sequence : Nat) (route : DeliveryRoute)
    : Except StoreError (Table LatestRouteRow) :=
  let row : LatestRouteRow :=
    { actorId := actorId, route := { route with replyToExternalId := none },
      mailboxSequence := sequence }
  if ∃ latest ∈ s.latestTelegramRoutes, latest.actorId = actorId then
    .ok (s.latestTelegramRoutes.updateWhere
      (fun latest => latest.actorId = actorId ∧ sequence > latest.mailboxSequence)
      (fun latest => { latest with route := row.route, mailboxSequence := sequence }))
  else
    execute (s.latestTelegramRoutes.insert? row)

/-- `record_latest_route_and_release_deferred` -/
def recordLatestRouteAndReleaseDeferred (actorId : ActorId) (sequence : Nat)
    (route : DeliveryRoute) (now : Timestamp) (ids : FreshIds) (s : Store)
    : Except StoreError Store := do
  let routes ← recordLatestRoute s actorId sequence route
  let s := { s with latestTelegramRoutes := routes }
  match newestDeferred s actorId with
  | none => .ok s
  | some (deferred, entry) => do
      let superseded := s.deferredWebhookResults.updateWhere
        (fun row => row.actorId = actorId ∧ row.state = .pending
          ∧ row.outboxId ≠ deferred.outboxId)
        (fun row => { row with state := .superseded })
      let s ← projectOutboxToGateway entry.intentKey entry.id entry.payloadJson
        { route with replyToExternalId := none } (ids.gatewayDelivery 0) s
      .ok { s with
        deferredWebhookResults := superseded.updateWhere
          (fun row => row.outboxId = deferred.outboxId ∧ row.state = .pending)
          (fun row => { row with state := .released, releasedAt := some now }) }

/-- The route an accepted message brings, if the gateway wants it recorded. -/
def recordRoute (event : NewInboundEvent) (actorId : ActorId) (sequence : Nat)
    (now : Timestamp) (ids : FreshIds) (s : Store)
    : Except StoreError Store :=
  match event.recordLatestTelegramRoute, event.deliveryRoute with
  | true, some route => recordLatestRouteAndReleaseDeferred actorId sequence route now ids s
  | _, _ => .ok s

-----------------------------------------------------------------------------------------
-- Operation
-----------------------------------------------------------------------------------------

/-- The enabled actor an identity belongs to. -/
def authorizedActor (s : Store) (provider subject : String) : Option ActorId := do
  let identity ← s.identities.find? (fun row => row.provider = provider ∧ row.subject = subject)
  if actorIsEnabled s identity.actorId then pure identity.actorId else none

/-- `ingest` -/
def ingest (event : NewInboundEvent) (now : Timestamp) (ids : FreshIds) (s : Store)
    : Except StoreError (IngressOutcome × Store) := do
  encodeAudience event.audience
  match s.events.find?
      (fun row => row.gateway = event.gateway ∧ row.externalId = event.externalId) with
  | some row => .ok (.duplicate row.id row.mailboxSequence, s)
  | none =>
    match authorizedActor s event.identityProvider event.identitySubject with
    | none => .ok (.unauthorized, s)
    | some actorId => do
        let workItemId := workItemFor s actorId event.audience ids.workItem
        let workItems ← upsertWorkItem s workItemId actorId event.audience now
        let (sequence, actors) ← nextSequence s actorId
        let events ← execute (s.events.insert?
          { id := ids.event, actorId := actorId, workItemId := some workItemId,
            mailboxSequence := sequence, gateway := event.gateway,
            externalId := event.externalId, kind := event.kind, audience := event.audience,
            deliveryRoute := event.deliveryRoute, executionPolicy := event.executionPolicy,
            ingressSource := none, payloadJson := event.payloadJson, state := .pending,
            runId := none })
        let s ← recordRoute event actorId sequence now ids
          { s with workItems := workItems, actors := actors, events := events }
        .ok (.accepted ids.event workItemId sequence, s)

end Codrik.Runtime.Sqlite
