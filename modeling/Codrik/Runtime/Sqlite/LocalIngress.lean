import Codrik.Runtime.Sqlite.Ingress

/-! Local submissions and their cancellation (`sqlite/local_ingress.rs`). -/

namespace Codrik.Runtime.Sqlite

open Codrik.Relational

def localSubmitGateway : String := "local:submit"
def localCancelGateway : String := "local:cancel"

/-- `submit_for_actor` -/
def submitForActor (actorId : ActorId) (command : LocalSubmission) (now : Timestamp)
    (ids : FreshIds) (s : Store)
    : Except StoreError (LocalSubmitOutcome × Store) :=
  if actorIsEnabled s actorId then
    match s.localRequests.find? (fun request => request.requestId = command.requestId
        ∧ ∃ event ∈ s.events, event.id = request.eventId) with
    | some request =>
        if request.actorId = actorId ∧ request.promptSha256 = command.promptSha256 then
          match s.events.find? (·.id = request.eventId) with
          | some event => .ok (.duplicate event.id request.workItemId event.mailboxSequence, s)
          | none => .error .constraint
        else
          .ok (.conflict, s)
    | none => do
        let workItemId := workItemFor s actorId .actorPrivate ids.workItem
        let workItems ← upsertWorkItem s workItemId actorId .actorPrivate now
        let (sequence, actors) ← nextSequence s actorId
        let events ← execute (s.events.insert?
          { id := ids.event, actorId := actorId, workItemId := some workItemId,
            mailboxSequence := sequence, gateway := localSubmitGateway,
            externalId := .request command.requestId, kind := .userMessage,
            audience := .actorPrivate, deliveryRoute := none, executionPolicy := .actorTools,
            ingressSource := none, payloadJson := .decoded (.text (some command.text)),
            state := .pending, runId := none })
        let localRequests ← execute (s.localRequests.insert?
          { requestId := command.requestId, actorId := actorId, eventId := ids.event,
            workItemId := some workItemId, promptSha256 := command.promptSha256,
            state := .active, resultBundleId := none, createdAt := now })
        .ok (.accepted ids.event workItemId sequence,
          { s with
            workItems := workItems
            actors := actors
            events := events
            localRequests := localRequests })
  else
    .ok (.actorUnavailable, s)

/-- `load_cancel_targets` -/
def loadCancelTargets (s : Store) (cancelId : CancelId) : List RequestId :=
  (s.cancelTargets.selectOrdered (·.cancelId = cancelId)
    (fun target => toLex (target.createdAt, target.requestId))).map (·.requestId)

/-- The deserialization of a stored `StoredCancelPayload`. -/
def storedCancelPayload : StoredJson InboundPayload → Except StoreError StoredCancelPayload
  | .decoded (.cancel payload) => .ok payload
  | _ => .error .decode

/-- The active requests of a work item, in the order they were accepted. -/
def activeRequests (s : Store) (actorId : ActorId) (workItemId : WorkItemId)
    : List RequestId :=
  (s.localRequests.selectOrdered
    (fun request => request.actorId = actorId ∧ request.workItemId = some workItemId
      ∧ request.state = .active)
    (fun request => toLex (request.createdAt, request.requestId))).map (·.requestId)

/-- A detached request gets a work item of its own before it is cancelled. -/
def reattachRequest (request : RequestRow) (actorId : ActorId) (now : Timestamp)
    (fresh : WorkItemId) (s : Store)
    : Except StoreError (WorkItemId × Store) :=
  match request.workItemId with
  | some workItemId => .ok (workItemId, s)
  | none => do
      let workItems ← execute (s.workItems.insert?
        (newWorkItem fresh actorId .interactive .actorPrivate now))
      require (s.localRequests.count
          (fun row => row.requestId = request.requestId ∧ row.workItemId = none
            ∧ row.state = .active) = 1)
        (.rejected "detached local request changed during cancellation")
      .ok (fresh,
        { s with
          workItems := workItems
          events := s.events.updateWhere
            (fun event => event.id = request.eventId ∧ event.workItemId = none
              ∧ event.state = .pending)
            (fun event => { event with workItemId := some fresh })
            (EventRow.keepsKey_workItemId fresh)
          localRequests := s.localRequests.updateWhere
            (fun row => row.requestId = request.requestId ∧ row.workItemId = none
              ∧ row.state = .active)
            (fun row => { row with workItemId := some fresh })
            (RequestRow.keepsKey_workItemId fresh) })

/-- `cancellation_requested_at = COALESCE(cancellation_requested_at, now)` -/
def WorkItemRow.requestCancellation (now : Timestamp) (work : WorkItemRow) : WorkItemRow :=
  { work with
    cancellationRequestedAt := some (work.cancellationRequestedAt.getD now)
    updatedAt := max work.updatedAt now }

def insertCancelTargets (cancelId : CancelId) (now : Timestamp)
    : List RequestId → Table CancelTargetRow → Except StoreError (Table CancelTargetRow)
  | [], targets => .ok targets
  | requestId :: rest, targets => do
      let targets ← execute (targets.insert?
        { cancelId := cancelId, requestId := requestId, createdAt := now })
      insertCancelTargets cancelId now rest targets

/-- The part of `cancel_for_actor` that accepts a new cancellation of an active request. -/
def acceptCancel (actorId : ActorId) (command : LocalCancel) (request : RequestRow)
    (now : Timestamp) (ids : FreshIds) (s : Store)
    : Except StoreError (CancelOutcome × Store) := do
  let (workItemId, s) ← reattachRequest request actorId now ids.workItem s
  let workItems := s.workItems.updateWhere (·.id = workItemId) (·.requestCancellation now)
  let affected := activeRequests s actorId workItemId
  let (sequence, actors) ← nextSequence s actorId
  let events ← execute (s.events.insert?
    { id := ids.event, actorId := actorId, workItemId := some workItemId,
      mailboxSequence := sequence, gateway := localCancelGateway,
      externalId := .cancel command.cancelId, kind := .cancelRequested,
      audience := .actorPrivate, deliveryRoute := none, executionPolicy := .actorTools,
      ingressSource := none,
      payloadJson := .decoded (.cancel ⟨command.requestId, false⟩),
      state := .pending, runId := none })
  let cancelTargets ← insertCancelTargets command.cancelId now affected s.cancelTargets
  .ok (⟨command.cancelId, affected, false⟩,
    { s with
      workItems := workItems
      actors := actors
      events := events
      cancelTargets := cancelTargets })

/-- `cancel_for_actor` -/
def cancelForActor (actorId : ActorId) (command : LocalCancel) (now : Timestamp)
    (ids : FreshIds) (s : Store)
    : Except StoreError (CancelOutcome × Store) := do
  require (actorIsEnabled s actorId) (.rejected "local actor is unavailable")
  match s.events.find? (fun event => event.gateway = localCancelGateway
      ∧ event.externalId = .cancel command.cancelId) with
  | some event => do
      require (event.actorId = actorId) (.rejected "cancel id belongs to another actor")
      let payload ← storedCancelPayload event.payloadJson
      require (payload.requestId = command.requestId)
        (.rejected "cancel id was already used for another request")
      .ok (⟨command.cancelId, loadCancelTargets s command.cancelId, payload.alreadyTerminal⟩,
        s)
  | none =>
      match s.localRequests.find? (fun request => request.requestId = command.requestId
          ∧ request.actorId = actorId) with
      | none => .error (.rejected "local request was not found for actor")
      | some request =>
          if request.state = .active then
            acceptCancel actorId command request now ids s
          else
            .ok (⟨command.cancelId, [], true⟩, s)

end Codrik.Runtime.Sqlite
