import Codrik.Runtime.Sqlite.Ingress

/-! Actor leases, run attachment and control events (`sqlite/dispatch.rs`). -/

namespace Codrik.Runtime.Sqlite

open Codrik.Relational

-----------------------------------------------------------------------------------------
-- Work an actor has
-----------------------------------------------------------------------------------------

/-- A work item that may run now: it is ready and its backoff is over. -/
def WorkItemRow.Runnable (now : Timestamp) (work : WorkItemRow) : Prop :=
  work.state = .ready ∧ ∀ time ∈ work.nextAttemptAt, time ≤ now

instance (now : Timestamp) : DecidablePred (WorkItemRow.Runnable now) :=
  fun _ => inferInstanceAs (Decidable (_ ∧ _))

/-- A pending event that selects its work item. -/
def Selectable (s : Store) (actorId : ActorId) (now : Timestamp) (event : EventRow) : Prop :=
  event.actorId = actorId ∧ event.state = .pending
    ∧ ∃ work ∈ s.workItems, event.workItemId = some work.id ∧ work.Runnable now
      ∧ (work.cancellationRequestedAt = none ∨ event.kind = .cancelRequested)

instance (s : Store) (actorId : ActorId) (now : Timestamp)
    : DecidablePred (Selectable s actorId now) :=
  fun _ => inferInstanceAs (Decidable (_ ∧ _))

/-- An active run of a work item that may run now. -/
def DueRun (s : Store) (actorId : ActorId) (now : Timestamp) (run : RunRow) : Prop :=
  run.actorId = actorId ∧ run.state = .active
    ∧ ∃ work ∈ s.workItems, work.id = run.workItemId ∧ work.Runnable now

instance (s : Store) (actorId : ActorId) (now : Timestamp)
    : DecidablePred (DueRun s actorId now) :=
  fun _ => inferInstanceAs (Decidable (_ ∧ _))

/-- A pending event that belongs to no work item. -/
def Unassigned (actorId : ActorId) (event : EventRow) : Prop :=
  event.actorId = actorId ∧ event.state = .pending ∧ event.workItemId = none

instance (actorId : ActorId) : DecidablePred (Unassigned actorId) :=
  fun _ => inferInstanceAs (Decidable (_ ∧ _))

/-- The three reasons to acquire an actor. -/
def HasWork (s : Store) (actorId : ActorId) (now : Timestamp) : Prop :=
  (∃ event ∈ s.events, Selectable s actorId now event)
    ∨ (∃ run ∈ s.runs, DueRun s actorId now run)
    ∨ ∃ event ∈ s.events, Unassigned actorId event

instance (s : Store) (actorId : ActorId) (now : Timestamp) : Decidable (HasWork s actorId now) :=
  inferInstanceAs (Decidable (_ ∨ _))

-----------------------------------------------------------------------------------------
-- Leases
-----------------------------------------------------------------------------------------

/-- The owner may take the actor's lease: nobody else holds a live one. -/
def LeaseAvailable (s : Store) (actorId : ActorId) (owner : String) (now : Timestamp) : Prop :=
  ∀ lease ∈ s.actorLeases, lease.actorId = actorId →
    lease.ownerId = owner ∨ lease.expiresAt ≤ now

instance (s : Store) (actorId : ActorId) (owner : String) (now : Timestamp)
    : Decidable (LeaseAvailable s actorId owner now) :=
  inferInstanceAs (Decidable (∀ lease ∈ s.actorLeases, _))

/-- Inserts a first lease, extends the owner's live one or replaces an expired one. -/
def grantLease (s : Store) (actorId : ActorId) (owner : String) (now leaseUntil : Timestamp)
    : Except StoreError (Option ActorLease × Store) :=
  match s.actorLeases.find? (·.actorId = actorId) with
  | none => do
      let actorLeases ← execute (s.actorLeases.insert? ⟨actorId, 1, owner, leaseUntil⟩)
      .ok (some ⟨actorId, owner, 1, leaseUntil⟩, { s with actorLeases := actorLeases })
  | some current =>
      if current.ownerId = owner ∧ current.expiresAt > now then
        .ok (some ⟨actorId, owner, current.generation, leaseUntil⟩,
          { s with
            actorLeases := s.actorLeases.updateWhere (·.actorId = actorId)
              (fun row => { row with expiresAt := leaseUntil }) })
      else if current.expiresAt ≤ now then
        .ok (some ⟨actorId, owner, current.generation + 1, leaseUntil⟩,
          { s with
            actorLeases := s.actorLeases.updateWhere (·.actorId = actorId)
              (fun row =>
                { row with
                  generation := current.generation + 1
                  ownerId := owner
                  expiresAt := leaseUntil }) })
      else
        .ok (none, s)

/-- `SELECT MIN(events.mailbox_sequence)` over the events satisfying `p`. -/
def minSequence (s : Store) (p : EventRow → Prop) [DecidablePred p] : Option Nat :=
  ((s.events.select p).map (·.mailboxSequence)).min?

/-- The position of an actor in the acquisition order: its first selectable event, else its
first attached event of a ready work item, else its first unassigned event.
-/
def acquisitionRank (s : Store) (now : Timestamp) (actorId : ActorId) : Nat :=
  let attached (event : EventRow) : Prop :=
    ∃ row ∈ s.runEvents, row.eventId = event.id ∧ ∃ run ∈ s.runs, run.id = row.runId
      ∧ run.actorId = actorId ∧ run.state = .active
      ∧ ∃ work ∈ s.workItems, work.id = run.workItemId ∧ work.state = .ready
  have : DecidablePred attached := fun _ => inferInstanceAs (Decidable (∃ row ∈ s.runEvents, _))
  ((minSequence s (Selectable s actorId now)).or
    ((minSequence s attached).or (minSequence s (Unassigned actorId)))).getD
      9223372036854775807

def leaseExpiryError : StoreError := .rejected "lease expiry must be after current time"

/-- The actor `acquire_ready_actor` selects. -/
def readyActor (s : Store) (owner : String) (now : Timestamp) : Option ActorId :=
  (s.actors.first?
    (fun actor => LeaseAvailable s actor.id owner now ∧ HasWork s actor.id now)
    (fun actor => toLex (acquisitionRank s now actor.id, actor.id))).map (·.id)

/-- The actor `acquire_ready_actor_for` is asked for, if it is ready. -/
def readyActorFor (s : Store) (actorId : ActorId) (owner : String) (now : Timestamp)
    : Option ActorId :=
  if actorIsEnabled s actorId ∧ LeaseAvailable s actorId owner now ∧ HasWork s actorId now then
    some actorId
  else
    none

/-- The part of the acquisitions after the actor is known. -/
def acquire (ready : Option ActorId) (owner : String) (now leaseUntil : Timestamp) (s : Store)
    : Except StoreError (Option ActorLease × Store) := do
  require (now < leaseUntil) leaseExpiryError
  match ready with
  | none => .ok (none, s)
  | some actorId => grantLease s actorId owner now leaseUntil

/-- `acquire_ready_actor` -/
def acquireReadyActor (owner : String) (now leaseUntil : Timestamp) (s : Store)
    : Except StoreError (Option ActorLease × Store) :=
  acquire (readyActor s owner now) owner now leaseUntil s

/-- `acquire_ready_actor_for` -/
def acquireReadyActorFor (actorId : ActorId) (owner : String) (now leaseUntil : Timestamp)
    (s : Store)
    : Except StoreError (Option ActorLease × Store) :=
  acquire (readyActorFor s actorId owner now) owner now leaseUntil s

/-- The row is the lease itself: same actor, owner and generation. -/
def Owns (lease : ActorLease) (row : LeaseRow) : Prop :=
  row.actorId = lease.actorId ∧ row.ownerId = lease.ownerId
    ∧ row.generation = lease.generation

instance (lease : ActorLease) : DecidablePred (Owns lease) :=
  fun _ => inferInstanceAs (Decidable (_ ∧ _))

/-- The lease is stored and has not expired. -/
def CurrentLease (s : Store) (lease : ActorLease) (now : Timestamp) : Prop :=
  ∃ row ∈ s.actorLeases, Owns lease row ∧ row.expiresAt > now

instance (s : Store) (lease : ActorLease) (now : Timestamp)
    : Decidable (CurrentLease s lease now) :=
  inferInstanceAs (Decidable (∃ row ∈ s.actorLeases, _))

/-- `ensure_current_lease` -/
def ensureCurrentLease (s : Store) (lease : ActorLease) (now : Timestamp)
    : Except StoreError Unit :=
  require (CurrentLease s lease now) .staleLease

/-- `renew_lease` -/
def renewLease (lease : ActorLease) (now leaseUntil : Timestamp) (s : Store)
    : Except StoreError (ActorLease × Store) := do
  require (now < leaseUntil) leaseExpiryError
  ensureCurrentLease s lease now
  .ok ({ lease with expiresAt := leaseUntil },
    { s with
      actorLeases := s.actorLeases.updateWhere
        (fun row => Owns lease row ∧ row.expiresAt > now)
        (fun row => { row with expiresAt := leaseUntil }) })

/-- `release_lease` -/
def releaseLease (lease : ActorLease) (s : Store) : Except StoreError (Unit × Store) :=
  .ok ((), { s with actorLeases := s.actorLeases.deleteWhere (Owns lease) })

-----------------------------------------------------------------------------------------
-- Selection of a run
-----------------------------------------------------------------------------------------

/-- The active run that `attach_next_run` continues. -/
def dueActiveRun (s : Store) (actorId : ActorId) (now : Timestamp) : Option RunRow :=
  s.runs.first? (DueRun s actorId now) (fun run => toLex (run.updatedAt, run.id))

/-- The first event that belongs to no work item gets one of its own. -/
def assignUnassigned (actorId : ActorId) (now : Timestamp) (fresh : WorkItemId) (s : Store)
    : Except StoreError Store :=
  match s.events.first? (Unassigned actorId) (·.mailboxSequence) with
  | none => .ok s
  | some event => do
      let kind := if event.kind = .externalCompletion then .external else .interactive
      let workItems ← execute (s.workItems.insert?
        (newWorkItem fresh actorId kind event.audience now))
      .ok { s with
        workItems := workItems
        events := s.events.updateWhere (fun row => row.id = event.id ∧ row.workItemId = none)
          (fun row => { row with workItemId := some fresh }) (EventRow.keepsKey_workItemId fresh)
        localRequests := s.localRequests.updateWhere
          (fun row => row.eventId = event.id ∧ row.workItemId = none)
          (fun row => { row with workItemId := some fresh })
          (RequestRow.keepsKey_workItemId fresh) }

/-- The pending event whose work item gets the next run. -/
def selectPending (s : Store) (actorId : ActorId) (now : Timestamp) : Option EventRow :=
  s.events.first? (Selectable s actorId now)
    (fun event => toLex (event.kind.rank, event.mailboxSequence))

/-- The work item a row refers to. -/
def workItem? (s : Store) (id : WorkItemId) : Option WorkItemRow :=
  s.workItems.find? (·.id = id)

/-- The columns of a run at its insertion. -/
def newRun (id : RunId) (lease : ActorLease) (workItemId : WorkItemId) (now : Timestamp)
    : RunRow where
  id := id
  actorId := lease.actorId
  workItemId := workItemId
  state := .active
  leaseGeneration := lease.generation
  observedSequence := 0
  executionPolicy := .actorTools
  ingressSource := none
  deliveryRoute := none
  updatedAt := now

/-- A new run for the work item that `selectPending` chooses, or `none`. -/
def openRun (lease : ActorLease) (now : Timestamp) (ids : FreshIds) (s : Store)
    : Except StoreError (Option (RunRow × WorkItemRow × Store)) := do
  let s ← assignUnassigned lease.actorId now ids.workItem s
  match (do workItem? s (← (← selectPending s lease.actorId now).workItemId)) with
  | none => .ok none
  | some work => do
      let run := newRun ids.run lease work.id now
      let runs ← execute (s.runs.insert? run)
      .ok (some (run, work, { s with runs := runs }))

-----------------------------------------------------------------------------------------
-- Attachment of events
-----------------------------------------------------------------------------------------

/-- The event precedes every pending cancellation of its actor. -/
def BeforeCancels (s : Store) (event : EventRow) : Prop :=
  ∀ control ∈ s.events, control.actorId = event.actorId → control.state = .pending →
    control.kind = .cancelRequested → event.mailboxSequence < control.mailboxSequence

instance (s : Store) : DecidablePred (BeforeCancels s) :=
  fun _ => inferInstanceAs (Decidable (∀ control ∈ s.events, _))

/-- The events a run of the work item may absorb. -/
def Absorbable (s : Store) (actorId : ActorId) (workItemId : WorkItemId) (event : EventRow)
    : Prop :=
  event.actorId = actorId ∧ event.workItemId = some workItemId ∧ event.state = .pending
    ∧ event.kind ≠ .cancelRequested
    ∧ (∃ work ∈ s.workItems, work.id = workItemId ∧ work.cancellationRequestedAt = none)
    ∧ BeforeCancels s event

instance (s : Store) (actorId : ActorId) (workItemId : WorkItemId)
    : DecidablePred (Absorbable s actorId workItemId) :=
  fun _ => inferInstanceAs (Decidable (_ ∧ _))

/-- The events attached next, `remaining` at most. -/
def pendingInput (s : Store) (actorId : ActorId) (workItemId : WorkItemId) (remaining : Nat)
    : List EventRow :=
  (s.events.selectOrdered (Absorbable s actorId workItemId)
    (fun event => toLex (event.kind.rank, event.mailboxSequence))).take remaining

/-- `run_event_count` -/
def runEventCount (s : Store) (runId : RunId) : Nat :=
  s.runEvents.count (·.runId = runId)

/-- The row of an event once a run has taken it. -/
def EventRow.take (runId : RunId) (event : EventRow) : EventRow :=
  { event with state := .processing, runId := some runId }

def attachEvent (runId : RunId) (event : EventRow) (s : Store) : Except StoreError Store := do
  let runEvents ← execute (s.runEvents.insert? ⟨runId, event.id, false⟩)
  .ok { s with
    runEvents := runEvents
    events := s.events.updateWhere (fun row => row.id = event.id ∧ row.state = .pending)
      (·.take runId) }

def attachEvents (runId : RunId) : List EventRow → Store → Except StoreError Store
  | [], s => .ok s
  | event :: rest, s => do
      let s ← attachEvent runId event s
      attachEvents runId rest s

/-- The event is attached to the run. -/
def Attached (s : Store) (runId : RunId) (eventId : EventId) : Prop :=
  ∃ row ∈ s.runEvents, row.runId = runId ∧ row.eventId = eventId

instance (s : Store) (runId : RunId) : DecidablePred (Attached s runId) :=
  fun _ => inferInstanceAs (Decidable (∃ row ∈ s.runEvents, _))

/-- The event is attached to the run and its message is in the run's transcript. -/
def Incorporated (s : Store) (runId : RunId) (eventId : EventId) : Prop :=
  ∃ row ∈ s.runEvents, row.runId = runId ∧ row.eventId = eventId ∧ row.incorporated = true

instance (s : Store) (runId : RunId) : DecidablePred (Incorporated s runId) :=
  fun _ => inferInstanceAs (Decidable (∃ row ∈ s.runEvents, _))

/-- `load_run_events` -/
def loadRunEvents (s : Store) (runId : RunId) : List EventRow :=
  s.events.selectOrdered (fun event => Attached s runId event.id) (·.mailboxSequence)

-----------------------------------------------------------------------------------------
-- The attached run
-----------------------------------------------------------------------------------------

/-- The single ingress source of a run's events. -/
def ingressSourceOf : Option String → List EventRow → Except StoreError (Option String)
  | source, [] => .ok source
  | source, event :: rest =>
      match event.ingressSource, source with
      | some found, some existing =>
          if existing ≠ found then
            .error (.rejected "run contains conflicting ingress sources")
          else
            ingressSourceOf source rest
      | some found, none => ingressSourceOf (some found) rest
      | none, _ => ingressSourceOf source rest

/-- The active local requests whose events are attached to the run. -/
def attachedRequests (s : Store) (runId : RunId) : List RequestId :=
  (s.localRequests.selectOrdered
    (fun request => Attached s runId request.eventId ∧ request.state = .active)
    (fun request => toLex (request.createdAt, request.requestId))).map (·.requestId)

/-- The messages of the attached events the transcript does not hold yet. -/
def newMessages (s : Store) (runId : RunId) : Except String (List Message) :=
  ((loadRunEvents s runId).filter (fun event => ¬Incorporated s runId event.id)).mapM
    (fun event => eventMessage event.payloadJson)

/-- The first stored message of the work item that does not decode. -/
def malformedCheckpoint (s : Store) (workItemId : WorkItemId) : Option String :=
  s.recentMessages.findSome? (fun row =>
    if row.workItemId = workItemId then
      match row.messageJson with
      | .malformed diagnostic => some diagnostic
      | .decoded _ => none
    else
      none)

/-- Gives the run up because a stored payload does not decode. -/
def blockMalformed (code message : String) (run : RunRow) (now : Timestamp) (s : Store)
    : Store :=
  { s with
    workItems := s.workItems.updateWhere (·.id = run.workItemId)
      (fun work =>
        { work with
          state := .blockedMalformed
          nextAttemptAt := none
          lastError := some (.malformed code message run.id)
          updatedAt := now })
    events := s.events.updateWhere (fun event => Attached s run.id event.id)
      (fun event => { event with state := .blocked })
    runs := s.runs.updateWhere (·.id = run.id) (·.finish .failedTerminal now)
      (RunRow.keepsKey_fail now) }

/-- The route of the newest attached message that has one. A stored route passes
`DeliveryRoute::new` again.
-/
def attachedRoute (s : Store) (runId : RunId) : Option DeliveryRoute := do
  let event ← s.events.first?
    (fun event => Attached s runId event.id ∧ event.kind = .userMessage
      ∧ event.deliveryRoute.isSome)
    (fun event => OrderDual.toDual event.mailboxSequence)
  event.deliveryRoute

/-- The last update of an attached run's row. -/
def RunRow.attach (lease : ActorLease) (observedSequence : Nat) (policy : ExecutionPolicy)
    (source : Option String) (route : Option DeliveryRoute) (now : Timestamp) (run : RunRow)
    : RunRow :=
  { run with
    leaseGeneration := lease.generation
    observedSequence := observedSequence
    executionPolicy := policy
    ingressSource := source
    deliveryRoute := route.or run.deliveryRoute
    updatedAt := now }

/-- The part of `attach_next_run` after its run is determined: attaches pending events, then
either blocks the run or hands it out.
-/
def resumeRun (lease : ActorLease) (maxEvents : Nat) (run : RunRow) (work : WorkItemRow)
    (now : Timestamp) (s : Store)
    : Except StoreError (Option AttachedRun × Store) := do
  let remaining := maxEvents - runEventCount s run.id
  let s ← attachEvents run.id (pendingInput s lease.actorId run.workItemId remaining) s
  let rows := loadRunEvents s run.id
  let policy := rows.foldl (fun policy event => policy.intersect event.executionPolicy)
    run.executionPolicy
  let source ← ingressSourceOf run.ingressSource rows
  let observed := ((rows.map (·.mailboxSequence)).max?).getD run.observedSequence
  match newMessages s run.id with
  | .error diagnostic =>
      .ok (none, blockMalformed "malformed_persisted_payload" diagnostic run now s)
  | .ok messages =>
      match malformedCheckpoint s run.workItemId with
      | some diagnostic =>
          .ok (none, blockMalformed "malformed_persisted_checkpoint" diagnostic run now s)
      | none =>
          let route := attachedRoute s run.id
          .ok (some
            { lease := lease
              workItemId := run.workItemId
              runId := run.id
              observedSequence := observed
              sourceEventIds := rows.map (·.id)
              requestIds := attachedRequests s run.id
              audience := work.audience
              deliveryRoute := route
              executionPolicy := policy
              ingressSource := source
              messages := messages },
            { s with
              runs := s.runs.updateWhere (·.id = run.id)
                (·.attach lease observed policy source route now) })

/-- `attach_next_run` -/
def attachNextRun (lease : ActorLease) (maxEvents : Nat) (now : Timestamp) (ids : FreshIds)
    (s : Store)
    : Except StoreError (Option AttachedRun × Store) := do
  require (maxEvents ≠ 0) (.rejected "max_events must be greater than zero")
  ensureCurrentLease s lease now
  match dueActiveRun s lease.actorId now with
  | some run =>
      match workItem? s run.workItemId with
      | some work => resumeRun lease maxEvents run work now s
      | none => .error .constraint
  | none => do
      match ← openRun lease now ids s with
      | none => .ok (none, s)
      | some (run, work, s) => resumeRun lease maxEvents run work now s

-----------------------------------------------------------------------------------------
-- Control events
-----------------------------------------------------------------------------------------

/-- The events `newer_control_event` looks at. -/
def Control (s : Store) (actorId : ActorId) (observedSequence : Nat) (event : EventRow) : Prop :=
  event.actorId = actorId ∧ event.state = .pending ∧ event.mailboxSequence > observedSequence
    ∧ (event.kind = .cancelRequested ∨ event.kind = .userMessage)
    ∧ ∃ run ∈ s.runs, run.actorId = event.actorId ∧ run.state = .active
      ∧ event.workItemId = some run.workItemId

instance (s : Store) (actorId : ActorId) (observedSequence : Nat)
    : DecidablePred (Control s actorId observedSequence) :=
  fun _ => inferInstanceAs (Decidable (_ ∧ _))

/-- Cancellations come first, then the mailbox order decides. -/
def controlKey (event : EventRow) : Nat ×ₗ Nat :=
  toLex (if event.kind = .cancelRequested then 0 else 1, event.mailboxSequence)

/-- `newer_control_event` -/
def newerControlEvent (lease : ActorLease) (observedSequence : Nat) (now : Timestamp)
    (s : Store)
    : Except StoreError (Option ControlEvent) := do
  ensureCurrentLease s lease now
  .ok ((s.events.first? (Control s lease.actorId observedSequence) controlKey).map
    (fun event => ⟨event.id, event.mailboxSequence, event.kind⟩))

end Codrik.Runtime.Sqlite
