import Codrik.Runtime.Sqlite.Context

/-! How events, requests and the rows that link events to runs change over any call: what an
event or a request says never changes, and a call writes the links of one run only.
-/

namespace Codrik.Runtime.Sqlite

open Codrik.Relational

variable {s s' t : Store}

-----------------------------------------------------------------------------------------
-- Events
-----------------------------------------------------------------------------------------

/-- The two rows are one event, whose state, work item and run may differ. -/
def SameEvent (before after : EventRow) : Prop :=
  after =
    { before with state := after.state, workItemId := after.workItemId, runId := after.runId }

theorem SameEvent.refl (event : EventRow) : SameEvent event event := rfl

theorem SameEvent.trans {a b c : EventRow} (first : SameEvent a b) (second : SameEvent b c)
    : SameEvent a c := by
  unfold SameEvent at *
  rw [second, first]

theorem SameEvent.id {a b : EventRow} (same : SameEvent a b) : b.id = a.id := by rw [same]

theorem SameEvent.actorId {a b : EventRow} (same : SameEvent a b) : b.actorId = a.actorId := by
  rw [same]

theorem SameEvent.mailboxSequence {a b : EventRow} (same : SameEvent a b)
    : b.mailboxSequence = a.mailboxSequence := by
  rw [same]

theorem SameEvent.payloadJson {a b : EventRow} (same : SameEvent a b)
    : b.payloadJson = a.payloadJson := by
  rw [same]

theorem SameEvent.ingressSource {a b : EventRow} (same : SameEvent a b)
    : b.ingressSource = a.ingressSource := by
  rw [same]

theorem SameEvent.executionPolicy {a b : EventRow} (same : SameEvent a b)
    : b.executionPolicy = a.executionPolicy := by
  rw [same]

/-- The stored events are the same ones before and after. -/
abbrev EventsStay (before after : Table EventRow) : Prop :=
  Table.Rewrites SameEvent before after

/-- Stored events stay, and others may be added. -/
structure EventsEvolve (before after : Table EventRow) : Prop where
  backward : ∀ event' ∈ after, (∃ event ∈ before, SameEvent event event')
    ∨ ∀ event ∈ before, event.id ≠ event'.id
  forward : ∀ event ∈ before, ∃ event' ∈ after, SameEvent event event'

namespace EventsEvolve

variable {a b c : Table EventRow}

theorem refl (events : Table EventRow) : EventsEvolve events events :=
  ⟨fun event mem => Or.inl ⟨event, mem, .refl event⟩, fun event mem => ⟨event, mem, .refl event⟩⟩

theorem of_stay (stay : EventsStay a b) : EventsEvolve a b :=
  ⟨fun event mem => Or.inl (stay.backward event mem), stay.forward⟩

theorem trans (first : EventsEvolve a b) (second : EventsEvolve b c) : EventsEvolve a c := by
  constructor
  · intro event mem
    rcases second.backward event mem with ⟨middle, mem', same⟩ | fresh
    · rcases first.backward middle mem' with ⟨before, stored, same'⟩ | fresh
      · exact Or.inl ⟨before, stored, same'.trans same⟩
      · exact Or.inr (fun before stored => same.id ▸ fresh before stored)
    · refine Or.inr (fun before stored => ?_)
      obtain ⟨middle, mem', same⟩ := first.forward before stored
      exact same.id ▸ fresh middle mem'
  · intro event mem
    obtain ⟨middle, mem', same⟩ := first.forward event mem
    obtain ⟨event', mem'', same'⟩ := second.forward middle mem'
    exact ⟨event', mem'', same.trans same'⟩

/-- A new event is added. -/
theorem insert {event : EventRow} (inserted : a.insert? event = some b) : EventsEvolve a b := by
  constructor
  · intro event' mem
    rcases (Table.mem_insert? inserted).mp mem with stored | rfl
    · exact Or.inl ⟨event', stored, .refl event'⟩
    · exact Or.inr (fun other stored same =>
        Table.fresh_of_insert? inserted other stored (Or.inl same))
  · intro event' stored
    exact ⟨event', (Table.mem_insert? inserted).mpr (Or.inl stored), .refl event'⟩

/-- The row an event has become. -/
theorem of_sameId (evolve : EventsEvolve a b) {before after : EventRow} (stored : before ∈ a)
    (stored' : after ∈ b) (same : after.id = before.id)
    : SameEvent before after := by
  obtain ⟨event, mem, next⟩ := evolve.forward before stored
  have : event = after := Table.eq_of_clash mem stored' (Or.inl (next.id.trans same.symm))
  exact this ▸ next

end EventsEvolve

-----------------------------------------------------------------------------------------
-- Requests
-----------------------------------------------------------------------------------------

/-- The two rows are one request, whose work item may differ; its end, once stored, stays. -/
structure SameRequest (before after : RequestRow) : Prop where
  row : after =
    { before with
      workItemId := after.workItemId, state := after.state
      resultBundleId := after.resultBundleId }
  ended : before.state ≠ .active →
    after.state = before.state ∧ after.resultBundleId = before.resultBundleId

theorem SameRequest.refl (request : RequestRow) : SameRequest request request :=
  ⟨rfl, fun _ => ⟨rfl, rfl⟩⟩

theorem SameRequest.trans {a b c : RequestRow} (first : SameRequest a b)
    (second : SameRequest b c)
    : SameRequest a c where
  row := by
    rw [second.row, first.row]
  ended finished := by
    obtain ⟨state, bundle⟩ := first.ended finished
    obtain ⟨state', bundle'⟩ := second.ended (state ▸ finished)
    exact ⟨state'.trans state, bundle'.trans bundle⟩

/-- Stored requests stay. -/
def RequestsStay (before after : Table RequestRow) : Prop :=
  ∀ request ∈ before, ∃ request' ∈ after, SameRequest request request'

namespace RequestsStay

variable {a b c : Table RequestRow}

theorem refl (requests : Table RequestRow) : RequestsStay requests requests :=
  fun request mem => ⟨request, mem, .refl request⟩

theorem trans (first : RequestsStay a b) (second : RequestsStay b c) : RequestsStay a c := by
  intro request mem
  obtain ⟨middle, mem', same⟩ := first request mem
  obtain ⟨request', mem'', same'⟩ := second middle mem'
  exact ⟨request', mem'', same.trans same'⟩

/-- Requests may move between work items. -/
theorem update {p : RequestRow → Prop} [DecidablePred p] {f : RequestRow → RequestRow}
    {k : Table.KeepsKey f} (same : ∀ request, SameRequest request (f request))
    : RequestsStay a (a.updateWhere p f k) := by
  intro request mem
  refine ⟨_, Table.updateWhere_mem mem, ?_⟩
  split
  · exact same request
  · exact .refl request

/-- Settled requests were active. -/
theorem settle {terminal : TerminalState} {requestIds : List RequestId}
    (settles : Settles terminal requestIds a b)
    : RequestsStay a b := by
  intro request mem
  obtain ⟨request', mem', rfl | ⟨-, active, bundle, rfl⟩⟩ := settles.forward request mem
  · exact ⟨request', mem', .refl request'⟩
  · exact ⟨_, mem', rfl, fun ended => absurd active ended⟩

end RequestsStay

-----------------------------------------------------------------------------------------
-- Mailboxes
-----------------------------------------------------------------------------------------

/-- Nothing is accepted: actors, events and requests are the same ones before and after. -/
structure MailboxesStay (s s' : Store) : Prop where
  actors : s'.actors = s.actors
  cancelTargets : s'.cancelTargets = s.cancelTargets
  events : EventsStay s.events s'.events
  localRequests : RequestsStay s.localRequests s'.localRequests

/-- Changes of other tables leave the mailboxes as they are. -/
theorem MailboxesStay.same (actors : s'.actors = s.actors)
    (cancelTargets : s'.cancelTargets = s.cancelTargets) (events : s'.events = s.events)
    (localRequests : s'.localRequests = s.localRequests)
    : MailboxesStay s s' :=
  ⟨actors, cancelTargets, events ▸ .refl .refl _, localRequests ▸ .refl _⟩

theorem MailboxesStay.refl (s : Store) : MailboxesStay s s := .same rfl rfl rfl rfl

theorem MailboxesStay.trans (first : MailboxesStay s t) (second : MailboxesStay t s')
    : MailboxesStay s s' where
  actors := second.actors.trans first.actors
  cancelTargets := second.cancelTargets.trans first.cancelTargets
  events := first.events.trans second.events .trans
  localRequests := first.localRequests.trans second.localRequests

theorem assignUnassigned_mailboxes {actorId : ActorId} {now : Timestamp}
    {fresh : WorkItemId} (assigned : assignUnassigned actorId now fresh s = .ok s')
    : MailboxesStay s s' := by
  unfold assignUnassigned at assigned
  split at assigned
  · cases assigned
    exact .refl _
  · simp only [bind_eq_ok] at assigned
    obtain ⟨_, _, result⟩ := assigned
    cases result
    exact ⟨rfl, rfl, .update .refl (fun _ _ _ => rfl),
      .update (fun _ => ⟨rfl, fun _ => ⟨rfl, rfl⟩⟩)⟩

/-- Taking events changes their state and run only. -/
theorem Takes.mailboxes {row : RunRow} {batch : List EventRow} (takes : Takes row batch s t)
    : MailboxesStay s t := by
  have image : ∀ event : EventRow, SameEvent event
      (if event.state = .pending ∧ event.id ∈ batch.map (·.id) then event.take row.id
        else event) := by
    intro event
    split
    · exact rfl
    · exact .refl event
  rw [takes.store]
  refine ⟨rfl, rfl, ⟨?_, ?_⟩, .refl _⟩
  · intro event stored
    exact ⟨_, (takes.events _).mpr ⟨event, stored, rfl⟩, image event⟩
  · intro event' mem
    obtain ⟨event, stored, rfl⟩ := (takes.events event').mp mem
    exact ⟨event, stored, image event⟩

theorem reattachRequest_mailboxes {request : RequestRow} {actorId : ActorId} {now : Timestamp}
    {fresh workItemId : WorkItemId}
    (reattached : reattachRequest request actorId now fresh s = .ok (workItemId, s'))
    : MailboxesStay s s' := by
  unfold reattachRequest at reattached
  split at reattached
  · cases reattached
    exact .refl _
  · simp only [bind_eq_ok] at reattached
    obtain ⟨_, _, _, _, result⟩ := reattached
    cases result
    exact ⟨rfl, rfl, .update .refl (fun _ _ _ => rfl),
      .update (fun _ => ⟨rfl, fun _ => ⟨rfl, rfl⟩⟩)⟩

theorem resumeRun_mailboxes {lease : ActorLease} {maxEvents : Nat} {row : RunRow}
    {work : WorkItemRow} {now : Timestamp} {answer : Option AttachedRun}
    (resumed : resumeRun lease maxEvents row work now s = .ok (answer, s'))
    : MailboxesStay s s' := by
  simp only [resumeRun, bind_eq_ok] at resumed
  obtain ⟨m, attached, _, _, rest⟩ := resumed
  have taken := (Takes.of_attachEvents attached).mailboxes
  have blocked : ∀ code message, MailboxesStay m (blockMalformed code message row now m) :=
    fun _ _ => ⟨rfl, rfl, .update .refl (fun _ _ _ => rfl), .refl _⟩
  split at rest
  · cases rest
    exact taken.trans (blocked _ _)
  · split at rest
    · cases rest
      exact taken.trans (blocked _ _)
    · cases rest
      exact taken.trans (.same rfl rfl rfl rfl)

theorem attachNextRun_mailboxes {lease : ActorLease} {maxEvents : Nat} {now : Timestamp}
    {ids : FreshIds} {answer : Option AttachedRun}
    (attached : attachNextRun lease maxEvents now ids s = .ok (answer, s'))
    : MailboxesStay s s' := by
  obtain ⟨-, -, ⟨row, work, -, -, -, resumed⟩ | ⟨-, -, -, rfl⟩ |
    ⟨row, work, m, -, opened, resumed⟩⟩ := attachNextRun_ok attached
  · exact resumeRun_mailboxes resumed
  · exact .refl _
  · obtain ⟨m', assigned, ⟨-, none⟩ | ⟨event, work', runs, opens, some'⟩⟩ := openRun_ok opened
    · cases none
    · cases some'
      have taken := resumeRun_mailboxes resumed
      exact (assignUnassigned_mailboxes assigned).trans
        ⟨taken.actors, taken.cancelTargets, taken.events, taken.localRequests⟩

theorem incorporateEach_mailboxes {runId : RunId} {eventIds : List EventId}
    (marked : incorporateEach runId eventIds s = .ok s')
    : MailboxesStay s s' := by
  obtain ⟨_, rfl⟩ := incorporateEach_store marked
  exact .same rfl rfl rfl rfl

theorem recoverCandidates_same (now : Timestamp) (candidates : List RecoveredUnknownOutcome)
    : MailboxesStay s (recoverCandidates now candidates s).2
      ∧ (recoverCandidates now candidates s).2.runs = s.runs
      ∧ (recoverCandidates now candidates s).2.runEvents = s.runEvents := by
  obtain ⟨_, _, same⟩ := recoverCandidates_store (s := s) now candidates
  rw [same]
  exact ⟨.same rfl rfl rfl rfl, rfl, rfl⟩

-----------------------------------------------------------------------------------------
-- All calls
-----------------------------------------------------------------------------------------

theorem ingest_events {event : NewInboundEvent} {now : Timestamp} {ids : FreshIds}
    {outcome : IngressOutcome} (ingested : ingest event now ids s = .ok (outcome, s'))
    : EventsEvolve s.events s'.events := by
  simp only [ingest, bind_eq_ok] at ingested
  obtain ⟨_, _, ingested⟩ := ingested
  split at ingested
  · cases ingested
    exact .refl _
  · split at ingested
    · cases ingested
      exact .refl _
    · simp only [bind_eq_ok, execute_eq_ok] at ingested
      obtain ⟨_, _, _, _, _, inserted, _, recorded, result⟩ := ingested
      cases result
      obtain ⟨_, _, _, rfl⟩ := recordRoute_ok recorded
      exact .insert inserted

theorem submitForActor_events {actorId : ActorId} {command : LocalSubmission}
    {now : Timestamp} {ids : FreshIds} {outcome : LocalSubmitOutcome}
    (submitted : submitForActor actorId command now ids s = .ok (outcome, s'))
    : EventsEvolve s.events s'.events := by
  unfold submitForActor at submitted
  split at submitted
  · split at submitted
    · split at submitted
      · split at submitted
        · cases submitted
          exact .refl _
        · cases submitted
      · cases submitted
        exact .refl _
    · simp only [bind_eq_ok, execute_eq_ok] at submitted
      obtain ⟨_, _, _, _, _, inserted, _, _, result⟩ := submitted
      cases result
      exact .insert inserted
  · cases submitted
    exact .refl _

theorem acceptCancel_events {actorId : ActorId} {command : LocalCancel}
    {request : RequestRow} {now : Timestamp} {ids : FreshIds} {outcome : CancelOutcome}
    (accepted : acceptCancel actorId command request now ids s = .ok (outcome, s'))
    : EventsEvolve s.events s'.events := by
  simp only [acceptCancel, bind_eq_ok, execute_eq_ok] at accepted
  obtain ⟨⟨_, m⟩, reattached, _, _, _, inserted, _, _, result⟩ := accepted
  cases result
  have moved : EventsEvolve s.events m.events := by
    unfold reattachRequest at reattached
    split at reattached
    · cases reattached
      exact .refl _
    · simp only [bind_eq_ok] at reattached
      obtain ⟨_, _, _, _, result⟩ := reattached
      cases result
      exact .of_stay (.update .refl (fun _ _ _ => rfl))
  exact moved.trans (.insert inserted)

theorem cancelForActor_events {actorId : ActorId} {command : LocalCancel}
    {now : Timestamp} {ids : FreshIds} {outcome : CancelOutcome}
    (cancelled : cancelForActor actorId command now ids s = .ok (outcome, s'))
    : EventsEvolve s.events s'.events := by
  simp only [cancelForActor, bind_eq_ok] at cancelled
  obtain ⟨_, _, cancelled⟩ := cancelled
  split at cancelled
  · simp only [bind_eq_ok] at cancelled
    obtain ⟨_, _, _, _, _, _, result⟩ := cancelled
    cases result
    exact .refl _
  · split at cancelled
    · cases cancelled
    · split at cancelled
      · exact acceptCancel_events cancelled
      · cases cancelled
        exact .refl _

theorem ingestWebhook_events {event : NewWebhookEvent} {now : Timestamp}
    {ids : FreshIds} {outcome : WebhookIngressOutcome}
    (ingested : ingestWebhook event now ids s = .ok (outcome, s'))
    : EventsEvolve s.events s'.events := by
  simp only [ingestWebhook, acceptWebhook] at ingested
  split at ingested
  · split at ingested
    · cases ingested
      exact .refl _
    · simp only [storeWebhook, bind_eq_ok, execute_eq_ok] at ingested
      obtain ⟨_, ⟨_, _, _, _, _, inserted, stored⟩, _, _, result⟩ := ingested
      cases stored
      cases result
      exact .insert inserted
  · cases ingested
    exact .refl _

/-- The calls that accept events. -/
def Call.IsIngress : Call → Prop
  | .ingest _ _ _ | .submitForActor _ _ _ _ | .cancelForActor _ _ _ _
  | .ingestWebhook _ _ _ => True
  | _ => False

/-- Only ingress accepts anything, by cases on the call. -/
theorem perform_mailboxesStay {call : Call} {answer : Answer} (outside : ¬call.IsIngress)
    (performed : call.perform s = .ok (answer, s'))
    : MailboxesStay s s' := by
  cases call <;> simp only [Call.perform, answering_eq_ok, reading_eq_ok] at performed
  case ingest => exact absurd trivial outside
  case submitForActor => exact absurd trivial outside
  case cancelForActor => exact absurd trivial outside
  case ingestWebhook => exact absurd trivial outside
  case acquireReadyActor =>
    obtain ⟨_, done, -⟩ := performed
    obtain ⟨_, rfl⟩ := acquire_ok done
    exact .same rfl rfl rfl rfl
  case acquireReadyActorFor =>
    obtain ⟨_, done, -⟩ := performed
    obtain ⟨_, rfl⟩ := acquire_ok done
    exact .same rfl rfl rfl rfl
  case renewLease =>
    obtain ⟨_, done, -⟩ := performed
    obtain ⟨-, rfl⟩ := renewLease_ok done
    exact .same rfl rfl rfl rfl
  case releaseLease =>
    obtain ⟨_, done, -⟩ := performed
    cases done
    exact .same rfl rfl rfl rfl
  case attachNextRun =>
    obtain ⟨_, done, -⟩ := performed
    exact attachNextRun_mailboxes done
  case newerControlEvent => exact performed.1 ▸ .refl _
  case checkpointRun =>
    obtain ⟨_, done, -⟩ := performed
    simp only [checkpointRun, incorporateEvents, insertMessages, bind_eq_ok] at done
    obtain ⟨_, _, m, ⟨_, _, marked⟩, _, attempts, _, ⟨_, _, stored⟩, result⟩ := done
    cases stored
    cases result
    obtain ⟨_, rfl⟩ := checkpointAttempts_ok attempts
    have stay := incorporateEach_mailboxes marked
    exact ⟨stay.actors, stay.cancelTargets, stay.events, stay.localRequests⟩
  case finalizeRun =>
    obtain ⟨_, done, -⟩ := performed
    obtain ⟨-, ⟨_, -, -, rfl⟩ | ⟨-, -, _, -, -, _, _, t, settles, ⟨_, _, _, _, _, rfl⟩, rfl⟩⟩ :=
      finalizeRun_ok done
    · exact .refl _
    · exact ⟨rfl, rfl, .update .refl (fun _ _ _ => rfl), .settle settles⟩
  case cancelRun =>
    obtain ⟨_, done, -⟩ := performed
    obtain ⟨-, -, _, _, _, -, settles, ⟨_, _, _, _, _, rfl⟩, rfl⟩ := cancelRun_ok done
    refine ⟨rfl, rfl, .trans ?_ (.update .refl (fun _ _ _ => rfl)) .trans, .settle settles⟩
    exact .update .refl (fun _ _ _ => rfl)
  case prepareAttempt =>
    obtain ⟨_, done, -⟩ := performed
    simp only [prepareAttempt, bind_eq_ok] at done
    obtain ⟨_, _, _, _, _, _, _, _, result⟩ := done
    cases result
    exact .same rfl rfl rfl rfl
  case markAttemptRunning =>
    obtain ⟨_, done, -⟩ := performed
    obtain ⟨-, -, rfl⟩ := transitionAttempt_ok done
    exact .same rfl rfl rfl rfl
  case rejectPreparedAttempt =>
    obtain ⟨_, done, -⟩ := performed
    unfold rejectPreparedAttempt at done
    split at done
    · cases done
    · obtain ⟨-, -, rfl⟩ := transitionAttempt_ok done
      exact .same rfl rfl rfl rfl
  case finishAttempt =>
    obtain ⟨_, done, -⟩ := performed
    obtain ⟨-, -, rfl⟩ := transitionAttempt_ok done
    exact .same rfl rfl rfl rfl
  case recoverAttempt =>
    obtain ⟨_, done, -⟩ := performed
    obtain ⟨_, rfl⟩ := recoverAttempt_ok done
    exact .same rfl rfl rfl rfl
  case blockUnknownAttempt =>
    obtain ⟨_, done, -⟩ := performed
    simp only [blockUnknownAttempt, bind_eq_ok] at done
    obtain ⟨_, _, _, _, result⟩ := done
    cases result
    exact .same rfl rfl rfl rfl
  case unresolvedAttempts => exact performed.1 ▸ .refl _
  case beginStaging =>
    obtain ⟨_, done, -⟩ := performed
    simp only [beginStaging, bind_eq_ok] at done
    obtain ⟨_, _, _, _, _, _, result⟩ := done
    cases result
    exact .same rfl rfl rfl rfl
  case commitStagedExecution =>
    obtain ⟨_, done, -⟩ := performed
    obtain ⟨-, -, _, _, rfl⟩ := commitStagedExecution_ok done
    exact .same rfl rfl rfl rfl
  case recordFailure =>
    obtain ⟨_, done, -⟩ := performed
    obtain ⟨row, work, -, -, -, ⟨-, -, rfl⟩ | ⟨-, -, fails⟩⟩ := recordFailure_ok done
    · exact .same rfl rfl rfl rfl
    · obtain ⟨_, _, _, settles, -, ⟨_, _, _, _, _, rfl⟩, rfl⟩ := fails
      refine ⟨rfl, rfl, .trans ?_ (.update .refl (fun _ _ _ => rfl)) .trans,
        .trans (.settle settles) ?_⟩
      · exact .update .refl (fun _ _ _ => rfl)
      · exact .update (fun _ => ⟨rfl, fun _ => ⟨rfl, rfl⟩⟩)
  case recordProgress =>
    obtain ⟨_, done, -⟩ := performed
    simp only [recordProgress, bind_eq_ok] at done
    obtain ⟨_, _, result⟩ := done
    cases result
    exact .same rfl rfl rfl rfl
  case deliverBundle step =>
    obtain ⟨_, done, -⟩ := performed
    obtain ⟨_, rfl, -⟩ := step.perform_ok done
    exact .same rfl rfl rfl rfl
  case recoverStartup now =>
    obtain ⟨_, done, -⟩ := performed
    cases done
    have stay := (recoverCandidates_same (s := s) now (recoveryCandidates s now)).1
    exact ⟨stay.actors, stay.cancelTargets, stay.events, stay.localRequests⟩
  case recoverShutdown =>
    obtain ⟨_, done, -⟩ := performed
    cases done
    exact .same rfl rfl rfl rfl

/-- Events stay what they are over every call, by cases on the call. -/
theorem perform_events {call : Call} {answer : Answer}
    (performed : call.perform s = .ok (answer, s'))
    : EventsEvolve s.events s'.events := by
  cases call with
  | ingest event now ids =>
      obtain ⟨_, done, -⟩ := answering_eq_ok.mp performed
      exact ingest_events done
  | submitForActor actorId command now ids =>
      obtain ⟨_, done, -⟩ := answering_eq_ok.mp performed
      exact submitForActor_events done
  | cancelForActor actorId command now ids =>
      obtain ⟨_, done, -⟩ := answering_eq_ok.mp performed
      exact cancelForActor_events done
  | ingestWebhook event now ids =>
      obtain ⟨_, done, -⟩ := answering_eq_ok.mp performed
      exact ingestWebhook_events done
  | _ => exact .of_stay (perform_mailboxesStay id performed).events

-----------------------------------------------------------------------------------------
-- Links between runs and events
-----------------------------------------------------------------------------------------

/-- The link of an event that a checkpoint lists becomes incorporated. -/
def RunEventRow.incorporate (runId : RunId) (eventIds : List EventId) (link : RunEventRow)
    : RunEventRow :=
  { link with
    incorporated := link.incorporated || decide (link.runId = runId ∧ link.eventId ∈ eventIds) }

/-- What a committed call does to the links. -/
inductive LinkStep (call : Call) (s s' : Store) : Prop
  | same (runEvents : s'.runEvents = s.runEvents)
  | attaches {lease : ActorLease} {maxEvents : Nat} {now : Timestamp} {ids : FreshIds}
      {row : RunRow} {batch : List EventRow} (is : call = .attachNextRun lease maxEvents now ids)
      (known : ∀ run ∈ s.runs, run.id = row.id → run.actorId = lease.actorId)
      (pending : ∀ event ∈ batch, ∃ stored ∈ s.events, stored.id = event.id
        ∧ stored.state = .pending)
      (rows : ∀ link, link ∈ s'.runEvents ↔
        link ∈ s.runEvents ∨ ∃ event ∈ batch, link = ⟨row.id, event.id, false⟩)
  | incorporates {command : CheckpointRun} {now : Timestamp} {row : RunRow} {work : WorkItemRow}
      (is : call = .checkpointRun command now) (valid : Validated s command.run now row work)
      (attached : ∀ eventId ∈ command.incorporatedEventIds,
        Attached s command.run.runId eventId)
      (rows : ∀ link, link ∈ s'.runEvents ↔ ∃ old ∈ s.runEvents,
        old.incorporate command.run.runId command.incorporatedEventIds = link)
  | fails {fence : FailureFence} {error : String} {progress : QuantumProgress}
      {now : Timestamp} {ids : FreshIds} {row : RunRow} {work : WorkItemRow}
      (is : call = .recordFailure fence error progress now ids)
      (fenced : Fenced s fence row work)
      (rows : ∀ link, link ∈ s'.runEvents ↔ link ∈ s.runEvents
        ∧ ¬(link.runId = row.id ∧ link.incorporated = false))

/-- The links a checkpoint marks, by induction on its events. -/
theorem incorporateEach_ok {runId : RunId} {eventIds : List EventId}
    (marked : incorporateEach runId eventIds s = .ok s')
    : (∀ eventId ∈ eventIds, Attached s runId eventId)
      ∧ ∀ link, link ∈ s'.runEvents ↔ ∃ old ∈ s.runEvents,
        old.incorporate runId eventIds = link := by
  induction eventIds generalizing s with
  | nil =>
      cases marked
      refine ⟨fun _ mem => absurd mem List.not_mem_nil, fun link => ?_⟩
      simp [RunEventRow.incorporate]
  | cons eventId rest ih =>
      simp only [incorporateEach, bind_eq_ok, require_eq_ok] at marked
      obtain ⟨_, one, others⟩ := marked
      obtain ⟨attached, rows⟩ := ih others
      constructor
      · intro listed mem
        rcases List.mem_cons.mp mem with rfl | mem
        · obtain ⟨link, stored, runId', same⟩ := Table.exists_of_count one
          exact ⟨link, stored, runId', same⟩
        · obtain ⟨link, stored, runId', same⟩ := attached listed mem
          obtain ⟨old, known, rfl⟩ := Table.mem_updateWhere.mp stored
          refine ⟨old, known, ?_, ?_⟩
          · split at runId' <;> exact runId'
          · split at same <;> exact same
      · intro link
        rw [rows]
        simp only [Table.exists_mem_updateWhere]
        refine exists_congr fun old => and_congr_right fun _ => ?_
        suffices same : (if old.runId = runId ∧ old.eventId = eventId then
            { old with incorporated := true } else old).incorporate runId rest
            = old.incorporate runId (eventId :: rest) by rw [same]
        by_cases here : old.runId = runId ∧ old.eventId = eventId
        · simp [RunEventRow.incorporate, here]
        · rw [if_neg here]
          simp only [RunEventRow.incorporate, List.mem_cons, RunEventRow.mk.injEq, true_and]
          congr 1
          refine decide_eq_decide.mpr (and_congr_right fun sameRun => ?_)
          rw [or_iff_right (fun sameEvent => here ⟨sameRun, sameEvent⟩)]

/-- The links a resumed run gets. -/
theorem resumeRun_links {lease : ActorLease} {maxEvents : Nat} {row : RunRow}
    {work : WorkItemRow} {now : Timestamp} {answer : Option AttachedRun}
    (resumed : resumeRun lease maxEvents row work now s = .ok (answer, s'))
    : ∃ batch : List EventRow,
      (∀ event ∈ batch, event ∈ s.events ∧ event.state = .pending)
      ∧ ∀ link, link ∈ s'.runEvents ↔
        link ∈ s.runEvents ∨ ∃ event ∈ batch, link = ⟨row.id, event.id, false⟩ := by
  simp only [resumeRun, bind_eq_ok] at resumed
  obtain ⟨m, attached, _, _, rest⟩ := resumed
  have takes := Takes.of_attachEvents attached
  have same : s'.runEvents = m.runEvents := by
    split at rest
    · cases rest
      rfl
    · split at rest <;> cases rest <;> rfl
  refine ⟨_, fun event mem => ?_, fun link => by rw [same]; exact takes.rows link⟩
  obtain ⟨stored, absorbable⟩ := Table.mem_selectOrdered.mp (List.mem_of_mem_take mem)
  exact ⟨stored, absorbable.2.2.1⟩

theorem attachNextRun_links {lease : ActorLease} {maxEvents : Nat} {now : Timestamp}
    {ids : FreshIds} {answer : Option AttachedRun}
    (attached : attachNextRun lease maxEvents now ids s = .ok (answer, s'))
    : LinkStep (.attachNextRun lease maxEvents now ids) s s' := by
  obtain ⟨-, -, ⟨row, work, due, -, -, resumed⟩ | ⟨-, -, -, rfl⟩ |
    ⟨row, work, m, -, opened, resumed⟩⟩ := attachNextRun_ok attached
  · obtain ⟨stored, actor, -⟩ := dueActiveRun_some due
    obtain ⟨batch, pending, rows⟩ := resumeRun_links resumed
    refine LinkStep.attaches rfl (fun run known same => ?_)
      (fun event mem => ⟨event, (pending event mem).1, rfl, (pending event mem).2⟩) rows
    rw [Table.eq_of_clash known stored (Or.inl same)]
    exact actor
  · exact .same rfl
  · obtain ⟨m', assigned, ⟨-, none⟩ | ⟨event, work', runs, opens, some'⟩⟩ := openRun_ok opened
    · cases none
    · cases some'
      have same := assignUnassigned_sameExecution assigned
      obtain ⟨batch, pending, rows⟩ := resumeRun_links resumed
      have rows' : ∀ link, link ∈ s'.runEvents ↔ link ∈ s.runEvents
          ∨ ∃ event ∈ batch, link = ⟨(newRun ids.run lease work.id now).id, event.id, false⟩ := by
        intro link
        rw [rows link, ← same.runEvents]
      refine LinkStep.attaches rfl (fun run known sameId => ?_) (fun event mem => ?_) rows'
      · rw [← same.runs] at known
        exact absurd (Or.inl sameId) (Table.fresh_of_insert? opens.inserted run known)
      · obtain ⟨stored, isPending⟩ := pending event mem
        unfold assignUnassigned at assigned
        split at assigned
        · cases assigned
          exact ⟨event, stored, rfl, isPending⟩
        · simp only [bind_eq_ok] at assigned
          obtain ⟨_, _, result⟩ := assigned
          cases result
          obtain ⟨old, known, rfl⟩ := Table.mem_updateWhere.mp stored
          refine ⟨old, known, ?_, ?_⟩
          · split <;> rfl
          · split at isPending <;> exact isPending

/-- What each operation does to the links, by cases on the call. -/
theorem perform_links {call : Call} {answer : Answer}
    (performed : call.perform s = .ok (answer, s'))
    : LinkStep call s s' := by
  cases call <;> simp only [Call.perform, answering_eq_ok, reading_eq_ok] at performed
  case ingest =>
    obtain ⟨_, done, -⟩ := performed
    exact .same (ingest_sameExecution done).runEvents
  case submitForActor =>
    obtain ⟨_, done, -⟩ := performed
    exact .same (submitForActor_sameExecution done).runEvents
  case cancelForActor =>
    obtain ⟨_, done, -⟩ := performed
    exact .same (cancelForActor_sameExecution done).runEvents
  case ingestWebhook =>
    obtain ⟨_, done, -⟩ := performed
    exact .same (ingestWebhook_sameExecution done).runEvents
  case acquireReadyActor =>
    obtain ⟨_, done, -⟩ := performed
    obtain ⟨_, rfl⟩ := acquire_ok done
    exact .same rfl
  case acquireReadyActorFor =>
    obtain ⟨_, done, -⟩ := performed
    obtain ⟨_, rfl⟩ := acquire_ok done
    exact .same rfl
  case renewLease =>
    obtain ⟨_, done, -⟩ := performed
    obtain ⟨-, rfl⟩ := renewLease_ok done
    exact .same rfl
  case releaseLease =>
    obtain ⟨_, done, -⟩ := performed
    cases done
    exact .same rfl
  case attachNextRun =>
    obtain ⟨_, done, -⟩ := performed
    exact attachNextRun_links done
  case newerControlEvent => exact .same (congrArg Store.runEvents performed.1.symm)
  case checkpointRun command now =>
    obtain ⟨_, done, -⟩ := performed
    simp only [checkpointRun, incorporateEvents, insertMessages, bind_eq_ok] at done
    obtain ⟨_, valid, m, ⟨_, _, marked⟩, _, attempts, _, ⟨_, _, stored⟩, result⟩ := done
    obtain ⟨row, work, valid⟩ := validateRun_ok valid
    cases stored
    cases result
    obtain ⟨_, rfl⟩ := checkpointAttempts_ok attempts
    obtain ⟨attached, rows⟩ := incorporateEach_ok marked
    exact .incorporates rfl valid attached rows
  case finalizeRun =>
    obtain ⟨_, done, -⟩ := performed
    obtain ⟨-, ⟨_, -, -, rfl⟩ | ⟨-, -, _, -, -, _, _, t, -, ⟨_, _, _, _, _, rfl⟩, rfl⟩⟩ :=
      finalizeRun_ok done
    · exact .same rfl
    · exact .same rfl
  case cancelRun =>
    obtain ⟨_, done, -⟩ := performed
    obtain ⟨-, -, _, _, _, -, -, ⟨_, _, _, _, _, rfl⟩, rfl⟩ := cancelRun_ok done
    exact .same rfl
  case prepareAttempt =>
    obtain ⟨_, done, -⟩ := performed
    simp only [prepareAttempt, bind_eq_ok] at done
    obtain ⟨_, _, _, _, _, _, _, _, result⟩ := done
    cases result
    exact .same rfl
  case markAttemptRunning =>
    obtain ⟨_, done, -⟩ := performed
    obtain ⟨-, -, rfl⟩ := transitionAttempt_ok done
    exact .same rfl
  case rejectPreparedAttempt =>
    obtain ⟨_, done, -⟩ := performed
    unfold rejectPreparedAttempt at done
    split at done
    · cases done
    · obtain ⟨-, -, rfl⟩ := transitionAttempt_ok done
      exact .same rfl
  case finishAttempt =>
    obtain ⟨_, done, -⟩ := performed
    obtain ⟨-, -, rfl⟩ := transitionAttempt_ok done
    exact .same rfl
  case recoverAttempt =>
    obtain ⟨_, done, -⟩ := performed
    obtain ⟨_, rfl⟩ := recoverAttempt_ok done
    exact .same rfl
  case blockUnknownAttempt =>
    obtain ⟨_, done, -⟩ := performed
    simp only [blockUnknownAttempt, bind_eq_ok] at done
    obtain ⟨_, _, _, _, result⟩ := done
    cases result
    exact .same rfl
  case unresolvedAttempts => exact .same (congrArg Store.runEvents performed.1.symm)
  case beginStaging =>
    obtain ⟨_, done, -⟩ := performed
    simp only [beginStaging, bind_eq_ok] at done
    obtain ⟨_, _, _, _, _, _, result⟩ := done
    cases result
    exact .same rfl
  case commitStagedExecution =>
    obtain ⟨_, done, -⟩ := performed
    obtain ⟨-, -, _, _, rfl⟩ := commitStagedExecution_ok done
    exact .same rfl
  case recordFailure =>
    obtain ⟨_, done, -⟩ := performed
    obtain ⟨row, work, fenced, -, -, ⟨-, -, rfl⟩ | ⟨-, -, fails⟩⟩ := recordFailure_ok done
    · exact .same rfl
    · obtain ⟨_, _, _, -, -, ⟨_, _, _, _, _, rfl⟩, rfl⟩ := fails
      exact .fails rfl fenced (fun link => Table.mem_deleteWhere)
  case recordProgress =>
    obtain ⟨_, done, -⟩ := performed
    simp only [recordProgress, bind_eq_ok] at done
    obtain ⟨_, _, result⟩ := done
    cases result
    exact .same rfl
  case deliverBundle step =>
    obtain ⟨_, done, -⟩ := performed
    obtain ⟨_, rfl, -⟩ := step.perform_ok done
    exact .same rfl
  case recoverStartup now =>
    obtain ⟨_, done, -⟩ := performed
    cases done
    exact .same (recoverCandidates_same now (recoveryCandidates s now)).2.2
  case recoverShutdown =>
    obtain ⟨_, done, -⟩ := performed
    cases done
    exact .same rfl

end Codrik.Runtime.Sqlite
