import Codrik.Runtime.Sqlite.Attachment
import Codrik.Runtime.Sqlite.Closing
import Codrik.Runtime.Sqlite.Frames
import Codrik.Runtime.Sqlite.World

/-! Every operation keeps the store well formed, so every reachable store is. -/

namespace Codrik.Runtime.Sqlite

open Codrik.Relational

variable {issued : List AttachedRun} {s s' : Store}

-----------------------------------------------------------------------------------------
-- Ingress
-----------------------------------------------------------------------------------------

/-- The work item a message joins continues, or is new; it carries no cancellation mark. -/
theorem upsertWorkItem_ok {actorId : ActorId} {audience : Audience} {fresh : WorkItemId}
    {now : Timestamp} {workItems : Table WorkItemRow}
    (unused : ∀ work ∈ s.workItems, work.id ≠ fresh)
    (upserted
      : upsertWorkItem s (workItemFor s actorId audience fresh) actorId audience now
        = .ok workItems)
    : (∀ work ∈ s.workItems, ∃ work' ∈ workItems, Continues work work')
      ∧ ∃ work ∈ workItems, work.id = workItemFor s actorId audience fresh
        ∧ work.actorId = actorId ∧ work.audience = audience
        ∧ work.cancellationRequestedAt = none := by
  unfold upsertWorkItem at upserted
  split at upserted
  · rename_i known
    cases upserted
    constructor
    · intro work mem
      refine ⟨_, Table.updateWhere_mem mem, ?_⟩
      split
      · refine ⟨rfl, rfl, rfl, fun finished => ?_, fun mark => mark⟩
        simp only [WorkItemRow.rejoin] at finished
        split at finished
        · exact absurd finished (by decide)
        · exact finished
      · exact .refl work
    · obtain ⟨work, stored, same⟩ := known
      refine ⟨_, Table.updateWhere_mem_of stored same, same, ?_⟩
      have joined : Joinable actorId audience work := by
        unfold workItemFor at same
        split at same
        · rename_i first found
          have chosen := Table.mem_of_first? found
          cases Table.eq_of_clash (a := work) (b := first) stored chosen.1 same
          exact chosen.2
        · exact absurd same (unused work stored)
      exact ⟨joined.1, joined.2.2.1, joined.2.2.2.2⟩
  · simp only [execute_eq_ok] at upserted
    constructor
    · intro work mem
      exact ⟨work, (Table.mem_insert? upserted).mpr (Or.inl mem), .refl work⟩
    · exact ⟨_, (Table.mem_insert? upserted).mpr (Or.inr rfl), rfl, rfl, rfl, rfl⟩

/-- Taking a sequence only advances counters. -/
theorem nextSequence_advances {actorId : ActorId} {sequence : Nat} {actors : Table ActorRow}
    (taken : nextSequence s actorId = .ok (sequence, actors))
    : ∀ actor ∈ s.actors, ∃ actor' ∈ actors, actor'.id = actor.id
      ∧ actor.nextMailboxSequence ≤ actor'.nextMailboxSequence := by
  obtain ⟨-, rfl⟩ := nextSequence_ok taken
  intro actor mem
  refine ⟨_, Table.updateWhere_mem mem, ?_⟩
  split
  · exact ⟨rfl, Nat.le_succ _⟩
  · exact ⟨rfl, le_rfl⟩

/-- An event that takes the next sequence of its actor may be stored together with the work
item it belongs to.
-/
theorem WellFormed.receive (wf : WellFormed issued s) {workItems : Table WorkItemRow}
    (continues : ∀ work ∈ s.workItems, ∃ work' ∈ workItems, Continues work work')
    {event : EventRow} {events : Table EventRow}
    (inserted : s.events.insert? event = some events)
    {sequence : Nat} {actors : Table ActorRow}
    (taken : nextSequence s event.actorId = .ok (sequence, actors))
    (numbered : event.mailboxSequence = sequence) (pending : event.state = .pending)
    (kind : event.kind = .userMessage ∨ event.kind = .cancelRequested)
    {work : WorkItemRow} (workStored : work ∈ workItems)
    (workItemId : event.workItemId = some work.id) (actorId : work.actorId = event.actorId)
    (audience : work.audience = event.audience)
    (source
      : event.ingressSource ≠ none → ∀ other ∈ s.events, other.workItemId ≠ some work.id)
    (cancel
      : event.kind = .cancelRequested → CancelAccepted { s with workItems := workItems } event)
    : WellFormed issued
        { s with workItems := workItems, actors := actors, events := events } := by
  obtain ⟨⟨actor, counter, sameActor, next⟩, rfl⟩ := nextSequence_ok taken
  have advanced := (wf.withWorkItems continues).withActors (nextSequence_advances taken)
  refine advanced.insertEvent (?_ : Arrives _ event work) inserted
  exact {
    pending := pending
    kind := kind
    positive := by omega
    counted := ⟨_, Table.updateWhere_mem_of counter sameActor, sameActor, by
      rw [numbered, next]⟩
    newest := by
      intro run mem sameOwner
      obtain ⟨owner, known, ownerId, le⟩ := wf.runActor run mem
      have : owner = actor := Table.eq_of_clash known counter
        (ownerId.trans (sameOwner.trans sameActor.symm))
      subst this
      omega
    workStored := workStored
    workItemId := workItemId
    actorId := actorId
    audience := audience
    source := source
    cancel := cancel }

/-- `ingest` keeps the invariant. -/
theorem ingest_wellFormed (wf : WellFormed issued s) {event : NewInboundEvent}
    {now : Timestamp} {ids : FreshIds} {outcome : IngressOutcome}
    (kind : event.kind = .userMessage) (fresh : FreshWorkItem s ids)
    (ingested : ingest event now ids s = .ok (outcome, s'))
    : WellFormed issued s' := by
  simp only [ingest, bind_eq_ok] at ingested
  obtain ⟨_, _, ingested⟩ := ingested
  split at ingested
  · cases ingested
    exact wf
  · split at ingested
    · cases ingested
      exact wf
    · rename_i actorId _
      simp only [bind_eq_ok, execute_eq_ok] at ingested
      obtain ⟨workItems, upserted, ⟨sequence, actors⟩, taken, events, inserted, final, recorded,
        result⟩ := ingested
      cases result
      obtain ⟨continues, work, workStored, workId, workActor, workAudience, -⟩ :=
        upsertWorkItem_ok fresh upserted
      have received := wf.receive continues inserted taken rfl rfl (Or.inl kind) workStored
        (by rw [workId]) workActor workAudience (fun source => absurd rfl source)
        (fun cancel => by rw [kind] at cancel; cases cancel)
      obtain ⟨_, _, _, rfl⟩ := recordRoute_ok recorded
      exact { received with }

/-- `submit_for_actor` keeps the invariant. -/
theorem submitForActor_wellFormed (wf : WellFormed issued s) {actorId : ActorId}
    {command : LocalSubmission} {now : Timestamp} {ids : FreshIds}
    {outcome : LocalSubmitOutcome} (fresh : FreshWorkItem s ids)
    (submitted : submitForActor actorId command now ids s = .ok (outcome, s'))
    : WellFormed issued s' := by
  unfold submitForActor at submitted
  split at submitted
  · split at submitted
    · split at submitted
      · split at submitted
        · cases submitted
          exact wf
        · cases submitted
      · cases submitted
        exact wf
    · simp only [bind_eq_ok, execute_eq_ok] at submitted
      obtain ⟨workItems, upserted, ⟨sequence, actors⟩, taken, events, inserted, requests,
        requested, result⟩ := submitted
      cases result
      obtain ⟨continues, work, workStored, workId, workActor, workAudience, unmarked⟩ :=
        upsertWorkItem_ok fresh upserted
      have received := wf.receive continues inserted taken rfl rfl (Or.inl rfl) workStored
        (by rw [workId]) workActor workAudience (fun source => absurd rfl source)
        (fun cancel => by cases cancel)
      exact received.insertRequest requested ((Table.mem_insert? inserted).mpr (Or.inr rfl))
        rfl rfl rfl rfl rfl workStored (by rw [workId]) unmarked
  · cases submitted
    exact wf

/-- `ingest_webhook` keeps the invariant. -/
theorem ingestWebhook_wellFormed (wf : WellFormed issued s) {event : NewWebhookEvent}
    {now : Timestamp} {ids : FreshIds} {outcome : WebhookIngressOutcome}
    (ingested : ingestWebhook event now ids s = .ok (outcome, s'))
    : WellFormed issued s' := by
  simp only [ingestWebhook, acceptWebhook] at ingested
  split at ingested
  · split at ingested
    · cases ingested
      exact wf
    · simp only [storeWebhook, bind_eq_ok, execute_eq_ok] at ingested
      obtain ⟨_, ⟨workItems, created, ⟨sequence, actors⟩, taken, events, inserted, stored⟩,
        receipts, _, result⟩ := ingested
      cases stored
      cases result
      have unused := Table.fresh_of_insert? created
      have received := wf.receive
        (fun work mem => ⟨work, (Table.mem_insert? created).mpr (Or.inl mem), .refl work⟩)
        inserted taken rfl rfl (Or.inl rfl) ((Table.mem_insert? created).mpr (Or.inr rfl)) rfl
        rfl rfl
        (by
          intro _ other mem same
          obtain ⟨work, stored, sameId, -⟩ := wf.eventWork other mem _ same
          exact unused work stored sameId)
        (fun cancel => by cases cancel)
      exact { received with }
  · cases ingested
    exact wf

/-- A detached request gets a new work item together with its event; the others keep
theirs.
-/
theorem reattachRequest_wellFormed (wf : WellFormed issued s) {request : RequestRow}
    {actorId : ActorId} {now : Timestamp} {fresh workItemId : WorkItemId}
    (stored : request ∈ s.localRequests) (sameActor : request.actorId = actorId)
    (active : request.state = .active)
    (reattached : reattachRequest request actorId now fresh s = .ok (workItemId, s'))
    : WellFormed issued s' ∧ ∃ work ∈ s'.workItems, work.id = workItemId
        ∧ work.actorId = actorId ∧ work.audience = .actorPrivate := by
  obtain ⟨event, known, sameEvent, sameWork, owner, kind, audience⟩ :=
    wf.requestEvent request stored
  unfold reattachRequest at reattached
  split at reattached
  · rename_i ofWork
    cases reattached
    obtain ⟨work, workStored, workId, workActor, workAudience⟩ :=
      wf.eventWork event known workItemId (sameWork.trans ofWork)
    exact ⟨wf, work, workStored, workId, by rw [workActor, owner, sameActor],
      workAudience.trans audience⟩
  · rename_i detached
    simp only [bind_eq_ok, execute_eq_ok, require_eq_ok] at reattached
    obtain ⟨workItems, inserted, _, _, result⟩ := reattached
    cases result
    have free : event.workItemId = none := sameWork.trans detached
    refine ⟨wf.assign inserted known free (by rw [owner, sameActor]; rfl) audience.symm ?_ ?_,
      _, (Table.mem_insert? inserted).mpr (Or.inr rfl), rfl, rfl, rfl⟩
    · intro row mem
      rw [← sameEvent]
      refine ⟨And.left, fun same => ?_⟩
      cases Table.eq_of_clash mem known (Or.inl same)
      exact ⟨rfl, free, (wf.eventFree event known free).1⟩
    · intro row mem
      constructor
      · rintro ⟨same, -⟩
        cases Table.eq_of_clash mem stored (Or.inl same)
        exact sameEvent.symm
      · intro same
        cases Table.eq_of_clash mem stored (Or.inr (same.trans sameEvent))
        exact ⟨rfl, detached, active⟩

/-- The inserted targets are the old ones and one for each request, by induction on the
requests.
-/
theorem mem_insertCancelTargets {cancelId : CancelId} {now : Timestamp}
    {requestIds : List RequestId} {before after : Table CancelTargetRow}
    (inserted : insertCancelTargets cancelId now requestIds before = .ok after)
    (target : CancelTargetRow)
    : target ∈ after ↔ target ∈ before
      ∨ ∃ requestId ∈ requestIds, target = ⟨cancelId, requestId, now⟩ := by
  induction requestIds generalizing before with
  | nil =>
      cases inserted
      simp
  | cons requestId rest ih =>
      simp only [insertCancelTargets, bind_eq_ok, execute_eq_ok] at inserted
      obtain ⟨middle, first, others⟩ := inserted
      rw [ih others, Table.mem_insert? first]
      simp only [List.mem_cons, exists_eq_or_imp, or_assoc]

/-- The listed requests are the active ones of the work item. -/
@[simp] theorem mem_activeRequests {actorId : ActorId} {workItemId : WorkItemId}
    {requestId : RequestId}
    : requestId ∈ activeRequests s actorId workItemId ↔
      ∃ request ∈ s.localRequests, request.actorId = actorId
        ∧ request.workItemId = some workItemId ∧ request.state = .active
        ∧ request.requestId = requestId := by
  simp only [activeRequests, List.mem_map, Table.mem_selectOrdered, and_assoc]

/-- Accepting a cancellation keeps the invariant: its targets are the active requests of the
work item it marks.
-/
theorem acceptCancel_wellFormed (wf : WellFormed issued s) {actorId : ActorId}
    {command : LocalCancel} {request : RequestRow} {now : Timestamp} {ids : FreshIds}
    {outcome : CancelOutcome} (stored : request ∈ s.localRequests)
    (sameActor : request.actorId = actorId) (active : request.state = .active)
    (accepted : acceptCancel actorId command request now ids s = .ok (outcome, s'))
    : WellFormed issued s' := by
  simp only [acceptCancel, bind_eq_ok, execute_eq_ok] at accepted
  obtain ⟨⟨workItemId, middle⟩, reattached, ⟨sequence, actors⟩, taken, events, inserted, targets,
    targeted, result⟩ := accepted
  cases result
  obtain ⟨wf', work, workStored, workId, workActor, workAudience⟩ :=
    reattachRequest_wellFormed wf stored sameActor active reattached
  have withTargets : WellFormed issued { middle with cancelTargets := targets } :=
    wf'.withCancelTargets (fun target mem => (mem_insertCancelTargets targeted target).mpr (Or.inl mem))
  have marked : work.requestCancellation now ∈ middle.workItems.updateWhere
      (·.id = workItemId) (·.requestCancellation now) :=
    Table.updateWhere_mem_of workStored workId
  refine withTargets.receive ?_ inserted taken rfl rfl (Or.inr rfl) marked ?_ workActor
    workAudience (fun source => absurd rfl source) ?_
  · intro other mem
    refine ⟨_, Table.updateWhere_mem mem, ?_⟩
    split
    · exact ⟨rfl, rfl, rfl, fun finished => finished, fun _ => by simp [WorkItemRow.requestCancellation]⟩
    · exact .refl other
  · rw [← workId]
    rfl
  · intro _
    refine ⟨rfl, rfl, command.cancelId, rfl, _, marked, by rw [← workId]; rfl,
      by simp [WorkItemRow.requestCancellation], ?_⟩
    intro other known ofWork isActive
    have ofWork : other.workItemId = some workItemId := ofWork.trans (by rw [← workId]; rfl)
    obtain ⟨event, eventStored, _, eventWork, owner, -⟩ := wf'.requestEvent other known
    obtain ⟨found, foundStored, foundId, foundActor, -⟩ :=
      wf'.eventWork event eventStored workItemId (eventWork.trans ofWork)
    have : found = work :=
      Table.eq_of_clash foundStored workStored (foundId.trans workId.symm)
    refine ⟨⟨command.cancelId, other.requestId, now⟩, ?_, rfl, rfl⟩
    refine (mem_insertCancelTargets targeted _).mpr (Or.inr ⟨other.requestId, ?_, rfl⟩)
    exact mem_activeRequests.mpr ⟨other, known, by
      rw [← owner, ← foundActor, this, workActor], ofWork, isActive, rfl⟩

/-- `cancel_for_actor` keeps the invariant. -/
theorem cancelForActor_wellFormed (wf : WellFormed issued s) {actorId : ActorId}
    {command : LocalCancel} {now : Timestamp} {ids : FreshIds} {outcome : CancelOutcome}
    (cancelled : cancelForActor actorId command now ids s = .ok (outcome, s'))
    : WellFormed issued s' := by
  simp only [cancelForActor, bind_eq_ok, require_eq_ok] at cancelled
  obtain ⟨_, _, cancelled⟩ := cancelled
  split at cancelled
  · simp only [bind_eq_ok, require_eq_ok] at cancelled
    obtain ⟨_, _, _, _, _, _, result⟩ := cancelled
    cases result
    exact wf
  · split at cancelled
    · cases cancelled
    · rename_i request found
      obtain ⟨stored, -, sameActor⟩ := Table.find?_some found
      split at cancelled
      · exact acceptCancel_wellFormed wf stored sameActor ‹_› cancelled
      · cases cancelled
        exact wf

-----------------------------------------------------------------------------------------
-- Leases
-----------------------------------------------------------------------------------------

/-- A grant touches leases only. -/
theorem grantLease_ok {actorId : ActorId} {owner : String} {now leaseUntil : Timestamp}
    {lease : Option ActorLease}
    (granted : grantLease s actorId owner now leaseUntil = .ok (lease, s'))
    : ∃ leases, s' = { s with actorLeases := leases } := by
  unfold grantLease at granted
  split at granted
  · simp only [bind_eq_ok] at granted
    obtain ⟨_, _, result⟩ := granted
    cases result
    exact ⟨_, rfl⟩
  · split at granted
    · cases granted
      exact ⟨_, rfl⟩
    · split at granted <;> cases granted <;> exact ⟨_, rfl⟩

/-- An acquisition touches leases only. -/
theorem acquire_ok {ready : Option ActorId} {owner : String} {now leaseUntil : Timestamp}
    {lease : Option ActorLease}
    (acquired : acquire ready owner now leaseUntil s = .ok (lease, s'))
    : ∃ leases, s' = { s with actorLeases := leases } := by
  simp only [acquire, bind_eq_ok] at acquired
  obtain ⟨_, _, rest⟩ := acquired
  split at rest
  · cases rest
    exact ⟨_, rfl⟩
  · exact grantLease_ok rest

/-- What `renew_lease` checks and extends. -/
theorem renewLease_ok {lease renewed : ActorLease} {now leaseUntil : Timestamp}
    (done : renewLease lease now leaseUntil s = .ok (renewed, s'))
    : CurrentLease s lease now
      ∧ s' =
        { s with
          actorLeases := s.actorLeases.updateWhere
            (fun row => Owns lease row ∧ row.expiresAt > now)
            (fun row => { row with expiresAt := leaseUntil }) } := by
  simp only [renewLease, bind_eq_ok, ensureCurrentLease_eq_ok] at done
  obtain ⟨_, _, _, current, result⟩ := done
  cases result
  exact ⟨current, rfl⟩

-----------------------------------------------------------------------------------------
-- Attachment
-----------------------------------------------------------------------------------------

/-- Giving the first free event a work item keeps the invariant. -/
theorem assignUnassigned_wellFormed (wf : WellFormed issued s) {actorId : ActorId}
    {now : Timestamp} {fresh : WorkItemId}
    (assigned : assignUnassigned actorId now fresh s = .ok s')
    : WellFormed issued s' := by
  unfold assignUnassigned at assigned
  split at assigned
  · cases assigned
    exact wf
  · rename_i event found
    obtain ⟨stored, actor, pending, free⟩ := Table.mem_of_first? found
    simp only [bind_eq_ok, execute_eq_ok] at assigned
    obtain ⟨workItems, inserted, result⟩ := assigned
    cases result
    refine wf.assign inserted stored free actor.symm rfl ?_ ?_
    · intro row mem
      refine ⟨And.left, fun same => ⟨same, ?_⟩⟩
      cases Table.eq_of_clash mem stored (Or.inl same)
      exact free
    · intro request mem
      refine ⟨And.left, fun same => ⟨same, ?_⟩⟩
      exact (wf.eventOf mem stored same.symm).symm.trans free

/-- Opening a run for a selectable event keeps the invariant. -/
theorem Opens.wellFormed {lease : ActorLease} {now : Timestamp} {ids : FreshIds} {m : Store}
    {event : EventRow} {work : WorkItemRow} {runs : Table RunRow} (wf : WellFormed issued m)
    (opens : Opens lease now ids m event work runs)
    : WellFormed issued { m with runs := runs } := by
  obtain ⟨stored, actor, -⟩ := selectPending_some opens.selected
  obtain ⟨work', stored', workId', workActor, -⟩ := wf.eventWork event stored _ opens.workItemId
  have same : work' = work := Table.eq_of_clash stored' opens.workStored workId'
  obtain ⟨-, owner, ownerStored, ownerId, -⟩ := wf.eventActor event stored
  exact wf.insertRun opens.inserted opens.workStored rfl
    (by rw [← same, workActor, actor]; rfl)
    (by simp [opens.runnable.1, TerminalWork])
    ⟨owner, ownerStored, ownerId.trans actor⟩ rfl rfl

/-- Resuming an active run keeps the invariant, whether the run is handed out or blocked. -/
theorem resumeRun_wellFormed (wf : WellFormed issued s) {lease : ActorLease} {maxEvents : Nat}
    {row : RunRow} {work : WorkItemRow} {now : Timestamp} {answer : Option AttachedRun}
    (runStored : row ∈ s.runs) (active : row.state = .active)
    (actor : row.actorId = lease.actorId) (workStored : work ∈ s.workItems)
    (workId : work.id = row.workItemId)
    (resumed : resumeRun lease maxEvents row work now s = .ok (answer, s'))
    : WellFormed (answer.toList ++ issued) s' := by
  obtain ⟨t, attached, ⟨rfl, code, message, rfl⟩ | ⟨run, rfl, reflects, rfl⟩⟩ :=
    resumeRun_ok actor resumed
  · exact wf.close active (blockMalformed_closes wf runStored active (.of_attachEvents attached))
  · have takes : Takes row (nextInput s row maxEvents) s t := .of_attachEvents attached
    have absorbs := wf.absorbs runStored active takes reflects
    have attachedWf := wf.attach runStored active absorbs takes.rows takes.events
      lease run.executionPolicy run.deliveryRoute now ⟨fun _ _ clash => clash⟩
    obtain ⟨runEvents, events, rfl, -⟩ := attachEvents_ok attached
    exact attachedWf.issue (Table.updateWhere_mem_of runStored rfl) reflects.runId.symm
      reflects.workItemId.symm (actor.trans (congrArg ActorLease.actorId reflects.lease.symm))
      le_rfl workStored (workId.trans reflects.workItemId.symm) reflects.audience.symm

/-- `attach_next_run` keeps the invariant. -/
theorem attachNextRun_wellFormed (wf : WellFormed issued s) {lease : ActorLease}
    {maxEvents : Nat} {now : Timestamp} {ids : FreshIds} {answer : Option AttachedRun}
    (attached : attachNextRun lease maxEvents now ids s = .ok (answer, s'))
    : WellFormed (answer.toList ++ issued) s' := by
  obtain ⟨-, -, ⟨row, work, due, workStored, workId, resumed⟩ | ⟨-, -, rfl, rfl⟩ |
    ⟨row, work, m, -, opened, resumed⟩⟩ := attachNextRun_ok attached
  · obtain ⟨stored, actor, active, -⟩ := dueActiveRun_some due
    exact resumeRun_wellFormed wf stored active actor workStored workId resumed
  · exact wf
  · obtain ⟨m', assigned, ⟨-, none⟩ | ⟨event, work', runs, opens, some'⟩⟩ := openRun_ok opened
    · cases none
    · cases some'
      have opened := opens.wellFormed (assignUnassigned_wellFormed wf assigned)
      exact resumeRun_wellFormed opened ((Table.mem_insert? opens.inserted).mpr (Or.inr rfl)) rfl
        rfl opens.workStored rfl resumed

-----------------------------------------------------------------------------------------
-- Checkpoints and the end of runs
-----------------------------------------------------------------------------------------

/-- Marking events as incorporated keeps the invariant, by induction on the events. -/
theorem incorporateEach_wellFormed (wf : WellFormed issued s) {runId : RunId}
    {eventIds : List EventId} (marked : incorporateEach runId eventIds s = .ok s')
    : WellFormed issued s' := by
  induction eventIds generalizing s with
  | nil =>
      cases marked
      exact wf
  | cons eventId rest ih =>
      simp only [incorporateEach, bind_eq_ok] at marked
      obtain ⟨_, _, others⟩ := marked
      refine ih ?_ others
      exact wf.updateRunEvents (fun _ => ⟨rfl, rfl⟩)

/-- Checkpointing attempts touches attempts only, by induction on the attempts. -/
theorem checkpointAttempts_ok {run : AttachedRun} {attemptIds : List AttemptId}
    (marked : checkpointAttempts run attemptIds s = .ok s')
    : ∃ attempts, s' = { s with toolAttempts := attempts } := by
  induction attemptIds generalizing s with
  | nil =>
      cases marked
      exact ⟨_, rfl⟩
  | cons attemptId rest ih =>
      simp only [checkpointAttempts, bind_eq_ok] at marked
      obtain ⟨_, _, others⟩ := marked
      obtain ⟨attempts, rfl⟩ := ih others
      exact ⟨attempts, rfl⟩

/-- `checkpoint_run` keeps the invariant. -/
theorem checkpointRun_wellFormed (wf : WellFormed issued s) {command : CheckpointRun}
    {now : Timestamp} {u : Unit} (checkpointed : checkpointRun command now s = .ok (u, s'))
    : WellFormed issued s' := by
  simp only [checkpointRun, incorporateEvents, insertMessages, bind_eq_ok] at checkpointed
  obtain ⟨_, _, m, ⟨_, _, marked⟩, t, attempts, _, ⟨_, _, stored⟩, result⟩ := checkpointed
  cases stored
  cases result
  obtain ⟨_, rfl⟩ := checkpointAttempts_ok attempts
  exact { incorporateEach_wellFormed wf marked with }

/-- `finalize_run` keeps the invariant. -/
theorem finalizeRun_wellFormed (wf : WellFormed issued s) {command : FinalizeRun}
    {now : Timestamp} {ids : FreshIds} {outcome : FinalizeOutcome}
    (finalized : finalizeRun command now ids s = .ok (outcome, s'))
    : WellFormed issued s' := by
  obtain ⟨⟨row, work, valid⟩, ⟨_, _, _, rfl⟩ | ⟨_, _, terminal, completes⟩⟩ :=
    finalizeRun_ok finalized
  · exact wf
  · exact wf.close valid.active (completes.closes wf valid)

/-- `cancel_run` keeps the invariant. -/
theorem cancelRun_wellFormed (wf : WellFormed issued s) {run : AttachedRun}
    {control : ControlEvent} {now : Timestamp} {ids : FreshIds} {u : Unit}
    (cancelled : cancelRun run control now ids s = .ok (u, s'))
    : WellFormed issued s' := by
  have cancels := cancelRun_ok cancelled
  obtain ⟨row, work, valid⟩ := cancels.valid
  exact wf.close valid.active (cancels.closes wf valid)

/-- `record_failure` keeps the invariant, below and at the failure limit. -/
theorem recordFailure_wellFormed (wf : WellFormed issued s) {fence : FailureFence}
    {error : String} {progress : QuantumProgress} {now : Timestamp} {ids : FreshIds}
    {disposition : FailureDisposition}
    (recorded : recordFailure fence error progress now ids s = .ok (disposition, s'))
    : WellFormed issued s' := by
  obtain ⟨row, work, fenced, active, -, ⟨-, -, rfl⟩ | ⟨-, -, fails⟩⟩ := recordFailure_ok recorded
  · exact wf.updateWorkItems (fun _ _ _ => ⟨rfl, rfl, rfl, fun finished => finished, fun mark => mark⟩)
  · exact wf.close active (fails.closes wf fenced.runStored active)

/-- `record_progress` keeps the invariant. -/
theorem recordProgress_wellFormed (wf : WellFormed issued s) {fence : FailureFence}
    {now : Timestamp} {u : Unit} (recorded : recordProgress fence now s = .ok (u, s'))
    : WellFormed issued s' := by
  simp only [recordProgress, bind_eq_ok] at recorded
  obtain ⟨_, _, result⟩ := recorded
  cases result
  exact wf.updateWorkItems (fun _ _ _ => ⟨rfl, rfl, rfl, fun finished => finished, fun mark => mark⟩)

-----------------------------------------------------------------------------------------
-- Attempts, artifacts and recovery
-----------------------------------------------------------------------------------------

/-- A work item may wait for a decision: it is not over then. -/
theorem Continues.enter (work : WorkItemRow) {state : WorkItemState} (now : Timestamp)
    (live : ¬TerminalWork state)
    : Continues work (work.enter state now) :=
  ⟨rfl, rfl, rfl, fun finished => absurd finished live, fun mark => mark⟩

/-- The transitions of attempts touch attempts only. -/
theorem transitionAttempt_ok {run : AttachedRun} {id : AttemptId}
    {expected next : AttemptState} {outcome : Option AttemptOutcome} {now : Timestamp}
    {u : Unit}
    (moved : transitionAttempt run id expected next outcome now s = .ok (u, s'))
    : (∃ row work, Validated s run now row work)
      ∧ (∃ attempt ∈ s.toolAttempts, AttemptIn run id expected attempt)
      ∧ s' =
        { s with
          toolAttempts := s.toolAttempts.updateWhere (AttemptIn run id expected)
            (fun row => { row with state := next, outcomeJson := outcome }) } := by
  simp only [transitionAttempt, bind_eq_ok, require_eq_ok] at moved
  obtain ⟨_, valid, _, one, result⟩ := moved
  cases result
  exact ⟨validateRun_ok valid, Table.exists_of_count one, rfl⟩

/-- `recover_attempt` touches attempts only. -/
theorem recoverAttempt_ok {id : AttemptId} {recovery : AttemptRecovery}
    (recovered : recoverAttempt id s = .ok (recovery, s'))
    : ∃ attempts, s' = { s with toolAttempts := attempts } := by
  simp only [recoverAttempt, bind_eq_ok] at recovered
  obtain ⟨row, _, rest⟩ := recovered
  split at rest
  all_goals try split at rest
  all_goals
    cases rest
    try exact ⟨_, rfl⟩

/-- `block_unknown_attempt` keeps the invariant. -/
theorem blockUnknownAttempt_wellFormed (wf : WellFormed issued s) {run : AttachedRun}
    {id : AttemptId} {now : Timestamp} {u : Unit}
    (blocked : blockUnknownAttempt run id now s = .ok (u, s'))
    : WellFormed issued s' := by
  simp only [blockUnknownAttempt, bind_eq_ok] at blocked
  obtain ⟨_, _, _, _, result⟩ := blocked
  cases result
  have waiting := wf.updateWorkItems (p := (·.id = run.workItemId))
    (f := (·.enter .waitingForDecision now)) (k := ⟨fun _ _ clash => clash⟩)
    (fun work _ _ => .enter work now (by decide))
  exact { waiting with }

/-- Recovering candidates keeps the invariant, by induction on the candidates. -/
theorem recoverCandidates_wellFormed (wf : WellFormed issued s) {now : Timestamp}
    {candidates : List RecoveredUnknownOutcome}
    : WellFormed issued (recoverCandidates now candidates s).2 := by
  refine recoverCandidates_invariant (J := WellFormed issued) ?_ candidates wf
  intro t candidate before
  have waiting := before.updateWorkItems
    (p := fun work => work.id = candidate.workItemId
      ∧ (work.state = .ready ∨ work.state = .waiting))
    (f := (·.enter .waitingForDecision now)) (k := ⟨fun _ _ clash => clash⟩)
    (fun work _ _ => .enter work now (by decide))
  exact { waiting with }

/-- Committing artifacts touches artifacts only, by induction on the artifacts. -/
theorem commitArtifacts_ok {run : AttachedRun} {attempt : AttemptId} {now : Timestamp}
    {artifacts committed : List ManagedArtifact} {leases : List ArtifactLease}
    (commits : commitArtifacts run attempt now artifacts leases s = .ok (committed, s'))
    : ∃ rows, s' = { s with artifacts := rows } := by
  induction artifacts generalizing leases committed s with
  | nil =>
      simp only [commitArtifacts] at commits
      cases commits
      exact ⟨_, rfl⟩
  | cons artifact rest ih =>
      cases leases with
      | nil =>
          simp only [commitArtifacts] at commits
          cases commits
          exact ⟨_, rfl⟩
      | cons lease leases =>
          simp only [commitArtifacts, bind_eq_ok] at commits
          obtain ⟨⟨first, m⟩, one, ⟨others, t⟩, more, result⟩ := commits
          cases result
          obtain ⟨rows, rfl⟩ := ih more
          suffices ∃ rows, m = { s with artifacts := rows } by
            obtain ⟨_, rfl⟩ := this
            exact ⟨rows, rfl⟩
          simp only [commitArtifact, bind_eq_ok] at one
          obtain ⟨_, _, _, _, stored⟩ := one
          split at stored
          · simp only [bind_eq_ok] at stored
            obtain ⟨_, _, result⟩ := stored
            cases result
            exact ⟨_, rfl⟩
          · simp only [bind_eq_ok] at stored
            obtain ⟨_, _, _, _, result⟩ := stored
            cases result
            exact ⟨_, rfl⟩

/-- What `commit_staged_execution` checks, and that it touches artifacts and attempts only. -/
theorem commitStagedExecution_ok {files : String → Except String FileMetadata}
    {run : AttachedRun} {attempt : AttemptId} {execution : DurableToolExecution}
    {leases : List ArtifactLease} {now : Timestamp} {u : Unit}
    (commits : commitStagedExecution files run attempt execution leases now s = .ok (u, s'))
    : CommitAllowed s run now ∧ (∃ row ∈ s.toolAttempts, RunningAttempt run attempt row)
      ∧ ∃ rows artifacts, s' =
        { s with
          artifacts := rows
          toolAttempts := s.toolAttempts.updateWhere (RunningAttempt run attempt)
            (fun row =>
              { row with
                state := .succeeded
                outcomeJson := some (.succeeded { execution with artifacts := artifacts }) }) } := by
  simp only [commitStagedExecution, bind_eq_ok, require_eq_ok] at commits
  obtain ⟨_, _, _, allowed, ⟨artifacts, t⟩, committed, _, _, _, one, result⟩ := commits
  cases result
  obtain ⟨rows, rfl⟩ := commitArtifacts_ok committed
  exact ⟨allowed, Table.exists_of_count one, rows, artifacts, rfl⟩

-----------------------------------------------------------------------------------------
-- Reachable stores
-----------------------------------------------------------------------------------------

/-- A committed call keeps the invariant, by cases on the operation. -/
theorem perform_wellFormed {w : World} (wf : WellFormed w.issued w.store) {call : Call}
    {answer : Answer} (admissible : w.Admissible call)
    (performed : call.perform w.store = .ok (answer, s'))
    : WellFormed (answer.issues ++ w.issued) s' := by
  cases call <;> simp only [Call.perform, answering_eq_ok, reading_eq_ok] at performed
  case ingest event now ids =>
    obtain ⟨_, done, rfl⟩ := performed
    exact ingest_wellFormed wf admissible.1 admissible.2 done
  case submitForActor actorId command now ids =>
    obtain ⟨_, done, rfl⟩ := performed
    exact submitForActor_wellFormed wf admissible done
  case cancelForActor actorId command now ids =>
    obtain ⟨_, done, rfl⟩ := performed
    exact cancelForActor_wellFormed wf done
  case ingestWebhook event now ids =>
    obtain ⟨_, done, rfl⟩ := performed
    exact ingestWebhook_wellFormed wf done
  case acquireReadyActor owner now leaseUntil =>
    obtain ⟨_, done, rfl⟩ := performed
    obtain ⟨_, rfl⟩ := acquire_ok done
    exact { wf with }
  case acquireReadyActorFor actorId owner now leaseUntil =>
    obtain ⟨_, done, rfl⟩ := performed
    obtain ⟨_, rfl⟩ := acquire_ok done
    exact { wf with }
  case renewLease lease now leaseUntil =>
    obtain ⟨_, done, rfl⟩ := performed
    obtain ⟨-, rfl⟩ := renewLease_ok done
    exact { wf with }
  case releaseLease lease =>
    obtain ⟨_, done, rfl⟩ := performed
    cases done
    exact { wf with }
  case attachNextRun lease maxEvents now ids =>
    obtain ⟨_, done, rfl⟩ := performed
    exact attachNextRun_wellFormed wf done
  case newerControlEvent lease observedSequence now =>
    obtain ⟨rfl, _, -, rfl⟩ := performed
    exact wf
  case checkpointRun command now =>
    obtain ⟨_, done, rfl⟩ := performed
    exact checkpointRun_wellFormed wf done
  case finalizeRun command now ids =>
    obtain ⟨_, done, rfl⟩ := performed
    exact finalizeRun_wellFormed wf done
  case cancelRun run control now ids =>
    obtain ⟨_, done, rfl⟩ := performed
    exact cancelRun_wellFormed wf done
  case prepareAttempt run attempt now =>
    obtain ⟨_, done, rfl⟩ := performed
    simp only [prepareAttempt, bind_eq_ok] at done
    obtain ⟨_, _, _, _, _, _, _, _, result⟩ := done
    cases result
    exact { wf with }
  case markAttemptRunning run id now =>
    obtain ⟨_, done, rfl⟩ := performed
    obtain ⟨-, -, rfl⟩ := transitionAttempt_ok done
    exact { wf with }
  case rejectPreparedAttempt run id outcome now =>
    obtain ⟨_, done, rfl⟩ := performed
    unfold rejectPreparedAttempt at done
    split at done
    · cases done
    · obtain ⟨-, -, rfl⟩ := transitionAttempt_ok done
      exact { wf with }
  case finishAttempt run id outcome now =>
    obtain ⟨_, done, rfl⟩ := performed
    obtain ⟨-, -, rfl⟩ := transitionAttempt_ok done
    exact { wf with }
  case recoverAttempt id =>
    obtain ⟨_, done, rfl⟩ := performed
    obtain ⟨_, rfl⟩ := recoverAttempt_ok done
    exact { wf with }
  case blockUnknownAttempt run id now =>
    obtain ⟨_, done, rfl⟩ := performed
    exact blockUnknownAttempt_wellFormed wf done
  case unresolvedAttempts run =>
    obtain ⟨rfl, _, -, rfl⟩ := performed
    exact wf
  case beginStaging command =>
    obtain ⟨_, done, rfl⟩ := performed
    simp only [beginStaging, bind_eq_ok] at done
    obtain ⟨_, _, _, _, _, _, result⟩ := done
    cases result
    exact { wf with }
  case commitStagedExecution files run attempt execution leases now =>
    obtain ⟨_, done, rfl⟩ := performed
    obtain ⟨-, -, _, _, rfl⟩ := commitStagedExecution_ok done
    exact { wf with }
  case recordFailure fence error progress now ids =>
    obtain ⟨_, done, rfl⟩ := performed
    exact recordFailure_wellFormed wf done
  case recordProgress fence now =>
    obtain ⟨_, done, rfl⟩ := performed
    exact recordProgress_wellFormed wf done
  case deliverBundle step =>
    obtain ⟨_, done, rfl⟩ := performed
    obtain ⟨_, rfl, -⟩ := step.perform_ok done
    exact { wf with }
  case recoverStartup now =>
    obtain ⟨_, done, rfl⟩ := performed
    cases done
    exact { recoverCandidates_wellFormed wf with }
  case recoverShutdown actorOwner bundleOwner now =>
    obtain ⟨_, done, rfl⟩ := performed
    cases done
    exact { wf with }

/-- Every reachable store is well formed, by induction on the history. -/
theorem reachable_wellFormed {w : World} (reached : runtime.Reachable w)
    : WellFormed w.issued w.store := by
  refine reached.invariant (J := fun w => WellFormed w.issued w.store) ?_ ?_
  · rintro _ ⟨actors, identities, rfl⟩
    exact .initial actors identities
  · rintro w call _ - wf ⟨admissible, rfl⟩
    rcases w.after_cases call with same | ⟨answer, s, performed, same⟩
    · exact same.symm ▸ wf
    · rw [same, World.commit_store, w.commit_issued performed]
      exact perform_wellFormed wf admissible performed

end Codrik.Runtime.Sqlite
