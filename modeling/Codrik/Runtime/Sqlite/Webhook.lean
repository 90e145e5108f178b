import Codrik.Runtime.Sqlite.Ingress

/-! Acceptance of webhook events (`sqlite/webhook.rs`). -/

namespace Codrik.Runtime.Sqlite

open Codrik.Relational

def automaticDedupWindowMillis : Int := 86400000
def receiptGcBatch : Nat := 256

/-- The receipts the collection deletes: the oldest expired ones, in batches. -/
def expiredReceipts (s : Store) (now : Timestamp) : List ReceiptRow :=
  (s.webhookReceipts.selectOrdered
    (fun row => row.identityKind = .automatic
      ∧ row.acceptedAt < now - automaticDedupWindowMillis)
    (·.acceptedAt)).take receiptGcBatch

/-- The accepted event an idempotency identity still stands for. -/
def duplicateReceipt (receipts : Table ReceiptRow) (endpoint : String)
    (idempotency : WebhookIdempotency) (now : Timestamp)
    : Option ReceiptRow :=
  receipts.first?
    (fun row => row.endpoint = endpoint ∧ row.identityKind = idempotency.kind
      ∧ row.identityHash = idempotency.hash
      ∧ (idempotency.kind = .automatic → row.acceptedAt ≥ now - automaticDedupWindowMillis))
    (fun row => -row.acceptedAt)

/-- The work item and the event of an accepted webhook. -/
def storeWebhook (event : NewWebhookEvent) (now : Timestamp) (ids : FreshIds) (s : Store)
    : Except StoreError (WebhookIngressOutcome × Store) := do
  let workItems ← execute (s.workItems.insert?
    (newWorkItem ids.workItem event.actorId .external .actorPrivate now))
  let (sequence, actors) ← nextSequence s event.actorId
  let route := (s.latestTelegramRoutes.find? (·.actorId = event.actorId)).map
    (fun latest => { latest.route with replyToExternalId := none })
  let events ← execute (s.events.insert?
    { id := ids.event, actorId := event.actorId, workItemId := some ids.workItem,
      mailboxSequence := sequence, gateway := "webhook:" ++ event.endpoint,
      externalId := .event ids.event, kind := .userMessage, audience := .actorPrivate,
      deliveryRoute := route, executionPolicy := .skillsOnly,
      ingressSource := some event.endpoint, payloadJson := event.payloadJson,
      state := .pending, runId := none })
  .ok (.accepted ids.event ids.workItem sequence route.isSome,
    { s with workItems := workItems, actors := actors, events := events })

/-- The part of `ingest_webhook` after the collection, which left `receipts`; early returns
roll the collection back.
-/
def acceptWebhook (receipts : Table ReceiptRow) (event : NewWebhookEvent) (now : Timestamp)
    (ids : FreshIds) (s : Store)
    : Except StoreError (WebhookIngressOutcome × Store) :=
  if actorIsEnabled s event.actorId then
    match duplicateReceipt receipts event.endpoint event.idempotency now with
    | some receipt => .ok (.duplicate receipt.eventId, s)
    | none => do
        let (outcome, s) ← storeWebhook event now ids s
        let receipts ← execute (receipts.insert?
          { endpoint := event.endpoint, identityKind := event.idempotency.kind,
            identityHash := event.idempotency.hash, eventId := ids.event,
            acceptedAt := now })
        .ok (outcome, { s with webhookReceipts := receipts })
  else
    .ok (.actorUnavailable, s)

/-- `ingest_webhook` -/
def ingestWebhook (event : NewWebhookEvent) (now : Timestamp) (ids : FreshIds) (s : Store)
    : Except StoreError (WebhookIngressOutcome × Store) :=
  let expired := expiredReceipts s now
  acceptWebhook (s.webhookReceipts.deleteWhere (· ∈ expired)) event now ids s

end Codrik.Runtime.Sqlite
