import Codrik.Runtime.Sqlite.Invariant

/-! What operations do to results: most leave the outbox, bundles and deliveries alone,
accepted messages release deferred results, and the ends of runs create terminal bundles.
-/

namespace Codrik.Runtime.Sqlite

open Codrik.Relational

variable {s s' : Store}

-----------------------------------------------------------------------------------------
-- Operations without results
-----------------------------------------------------------------------------------------

/-- Requests keep their end, and new ones are active. -/
def KeepsEnds (before after : Table RequestRow) : Prop :=
  ∀ request' ∈ after, (request'.state = .active ∧ request'.resultBundleId = none)
    ∨ ∃ request ∈ before, request'.requestId = request.requestId
      ∧ request'.state = request.state ∧ request'.resultBundleId = request.resultBundleId

theorem KeepsEnds.refl (requests : Table RequestRow) : KeepsEnds requests requests :=
  fun request mem => Or.inr ⟨request, mem, rfl, rfl, rfl⟩

theorem KeepsEnds.trans {a b c : Table RequestRow} (first : KeepsEnds a b)
    (second : KeepsEnds b c)
    : KeepsEnds a c := by
  intro request'' mem
  rcases second request'' mem with new | ⟨request', mem', id, state, bundle⟩
  · exact Or.inl new
  · rcases first request' mem' with new | ⟨request, old, id', state', bundle'⟩
    · exact Or.inl ⟨state.trans new.1, bundle.trans new.2⟩
    · exact Or.inr ⟨request, old, id.trans id', state.trans state', bundle.trans bundle'⟩

/-- Moving requests between work items ends none. -/
theorem KeepsEnds.update {requests : Table RequestRow} {p : RequestRow → Prop}
    [DecidablePred p] {f : RequestRow → RequestRow} {k : Table.KeepsKey f}
    (same : ∀ row, (f row).requestId = row.requestId ∧ (f row).state = row.state
      ∧ (f row).resultBundleId = row.resultBundleId)
    : KeepsEnds requests (requests.updateWhere p f k) := by
  intro request' mem
  obtain ⟨request, old, rfl⟩ := Table.mem_updateWhere.mp mem
  refine Or.inr ⟨request, old, ?_⟩
  split
  · exact same request
  · exact ⟨rfl, rfl, rfl⟩

/-- The operation neither stores nor delivers a result. -/
structure LeavesResults (s s' : Store) : Prop where
  localRequests : KeepsEnds s.localRequests s'.localRequests
  outbox : s'.outbox = s.outbox
  outboxDeliveries : s'.outboxDeliveries = s.outboxDeliveries
  resultBundles : Redelivers s.resultBundles s'.resultBundles
  gatewayDeliveries : s'.gatewayDeliveries = s.gatewayDeliveries
  deferredWebhookResults : s'.deferredWebhookResults = s.deferredWebhookResults

/-- Operations on other tables leave all results. -/
theorem LeavesResults.same (localRequests : s'.localRequests = s.localRequests)
    (outbox : s'.outbox = s.outbox) (outboxDeliveries : s'.outboxDeliveries = s.outboxDeliveries)
    (resultBundles : s'.resultBundles = s.resultBundles)
    (gatewayDeliveries : s'.gatewayDeliveries = s.gatewayDeliveries)
    (deferred : s'.deferredWebhookResults = s.deferredWebhookResults)
    : LeavesResults s s' :=
  ⟨localRequests ▸ .refl _, outbox, outboxDeliveries, resultBundles ▸ .refl _,
    gatewayDeliveries, deferred⟩

theorem LeavesResults.refl (s : Store) : LeavesResults s s := .same rfl rfl rfl rfl rfl rfl

theorem LeavesResults.trans {t : Store} (first : LeavesResults s t)
    (second : LeavesResults t s')
    : LeavesResults s s' where
  localRequests := first.localRequests.trans second.localRequests
  outbox := second.outbox.trans first.outbox
  outboxDeliveries := second.outboxDeliveries.trans first.outboxDeliveries
  resultBundles := first.resultBundles.trans second.resultBundles
  gatewayDeliveries := second.gatewayDeliveries.trans first.gatewayDeliveries
  deferredWebhookResults := second.deferredWebhookResults.trans first.deferredWebhookResults

theorem submitForActor_leavesResults {actorId : ActorId} {command : LocalSubmission}
    {now : Timestamp} {ids : FreshIds} {outcome : LocalSubmitOutcome}
    (submitted : submitForActor actorId command now ids s = .ok (outcome, s'))
    : LeavesResults s s' := by
  unfold submitForActor at submitted
  split at submitted
  · split at submitted
    · split at submitted
      · split at submitted
        · cases submitted
          exact .refl _
        · cases submitted
      · cases submitted
        exact .refl _
    · simp only [bind_eq_ok, execute_eq_ok] at submitted
      obtain ⟨_, _, _, _, _, _, requests, inserted, result⟩ := submitted
      cases result
      refine ⟨fun request mem => ?_, rfl, rfl, .refl _, rfl, rfl⟩
      rcases (Table.mem_insert? inserted).mp mem with old | rfl
      · exact Or.inr ⟨request, old, rfl, rfl, rfl⟩
      · exact Or.inl ⟨rfl, rfl⟩
  · cases submitted
    exact .refl _

theorem reattachRequest_leavesResults {request : RequestRow} {actorId : ActorId}
    {now : Timestamp} {fresh workItemId : WorkItemId}
    (reattached : reattachRequest request actorId now fresh s = .ok (workItemId, s'))
    : LeavesResults s s' := by
  unfold reattachRequest at reattached
  split at reattached
  · cases reattached
    exact .refl _
  · simp only [bind_eq_ok] at reattached
    obtain ⟨_, _, _, _, result⟩ := reattached
    cases result
    exact ⟨.update (fun _ => ⟨rfl, rfl, rfl⟩), rfl, rfl, .refl _, rfl, rfl⟩

theorem cancelForActor_leavesResults {actorId : ActorId} {command : LocalCancel}
    {now : Timestamp} {ids : FreshIds} {outcome : CancelOutcome}
    (cancelled : cancelForActor actorId command now ids s = .ok (outcome, s'))
    : LeavesResults s s' := by
  simp only [cancelForActor, bind_eq_ok] at cancelled
  obtain ⟨_, _, cancelled⟩ := cancelled
  split at cancelled
  · simp only [bind_eq_ok] at cancelled
    obtain ⟨_, _, _, _, _, _, result⟩ := cancelled
    cases result
    exact .refl _
  · split at cancelled
    · cases cancelled
    · split at cancelled
      · simp only [acceptCancel, bind_eq_ok] at cancelled
        obtain ⟨⟨_, m⟩, reattached, _, _, _, _, _, _, result⟩ := cancelled
        cases result
        exact (reattachRequest_leavesResults reattached).trans (.same rfl rfl rfl rfl rfl rfl)
      · cases cancelled
        exact .refl _

theorem ingestWebhook_leavesResults {event : NewWebhookEvent} {now : Timestamp}
    {ids : FreshIds} {outcome : WebhookIngressOutcome}
    (ingested : ingestWebhook event now ids s = .ok (outcome, s'))
    : LeavesResults s s' := by
  simp only [ingestWebhook, acceptWebhook] at ingested
  split at ingested
  · split at ingested
    · cases ingested
      exact .refl _
    · simp only [storeWebhook, bind_eq_ok] at ingested
      obtain ⟨_, ⟨_, _, _, _, _, _, stored⟩, _, _, result⟩ := ingested
      cases stored
      cases result
      exact .same rfl rfl rfl rfl rfl rfl
  · cases ingested
    exact .refl _

theorem resumeRun_leavesResults {lease : ActorLease} {maxEvents : Nat} {row : RunRow}
    {work : WorkItemRow} {now : Timestamp} {answer : Option AttachedRun}
    (resumed : resumeRun lease maxEvents row work now s = .ok (answer, s'))
    : LeavesResults s s' := by
  simp only [resumeRun, bind_eq_ok] at resumed
  obtain ⟨t, attached, _, _, rest⟩ := resumed
  obtain ⟨_, _, rfl, -⟩ := attachEvents_ok attached
  split at rest
  · cases rest
    exact .same rfl rfl rfl rfl rfl rfl
  · split at rest <;> cases rest <;> exact .same rfl rfl rfl rfl rfl rfl

theorem attachNextRun_leavesResults {lease : ActorLease} {maxEvents : Nat} {now : Timestamp}
    {ids : FreshIds} {answer : Option AttachedRun}
    (attached : attachNextRun lease maxEvents now ids s = .ok (answer, s'))
    : LeavesResults s s' := by
  obtain ⟨-, -, ⟨row, work, -, -, -, resumed⟩ | ⟨-, -, -, rfl⟩ |
    ⟨row, work, m, -, opened, resumed⟩⟩ := attachNextRun_ok attached
  · exact resumeRun_leavesResults resumed
  · exact .refl _
  · obtain ⟨m', assigned, ⟨-, none⟩ | ⟨event, work', runs, opens, some'⟩⟩ := openRun_ok opened
    · cases none
    · cases some'
      have first : LeavesResults s m' := by
        unfold assignUnassigned at assigned
        split at assigned
        · cases assigned
          exact .refl _
        · simp only [bind_eq_ok] at assigned
          obtain ⟨_, _, result⟩ := assigned
          cases result
          exact ⟨.update (fun _ => ⟨rfl, rfl, rfl⟩), rfl, rfl, .refl _, rfl, rfl⟩
      have second := resumeRun_leavesResults resumed
      refine first.trans (.trans ?_ second)
      exact .same rfl rfl rfl rfl rfl rfl

theorem incorporateEach_leavesResults {runId : RunId} {eventIds : List EventId}
    (marked : incorporateEach runId eventIds s = .ok s')
    : LeavesResults s s' := by
  obtain ⟨_, rfl⟩ := incorporateEach_store marked
  exact .same rfl rfl rfl rfl rfl rfl

theorem recoverCandidates_leavesResults (now : Timestamp)
    (candidates : List RecoveredUnknownOutcome)
    : LeavesResults s (recoverCandidates now candidates s).2 := by
  obtain ⟨_, _, same⟩ := recoverCandidates_store (s := s) now candidates
  rw [same]
  exact .same rfl rfl rfl rfl rfl rfl

-----------------------------------------------------------------------------------------
-- All operations
-----------------------------------------------------------------------------------------

/-- The actor and the event sequence under which the end of a run defers its results, if it
does.
-/
def deferredAs (s : Store) (context : TerminalBundleContext) : Option (ActorId × Nat) :=
  if context.deliveryRoute = none ∧ context.ingressSource.isSome
      ∧ context.executionPolicy = .skillsOnly then
    (sourceEventSequence s context.runId).map (context.actorId, ·)
  else
    none

/-- The actor and the event sequence of the results that a call defers when it goes through:
a finalization, a cancellation with requests, or the last failure of a run.
-/
def Call.defers (s : Store) : Call → Option (ActorId × Nat)
  | .finalizeRun command _ _ => deferredAs s (terminalContext command.run)
  | .cancelRun run control _ _ =>
      if cancellationTargetRequests (consumeControl run control s) run control = [] then
        none
      else
        deferredAs s (terminalContext run)
  | .recordFailure fence _ progress _ _ =>
      match s.runs.find? (fun run => run.workItemId = fence.workItemId ∧ run.state = .active),
          workItem? s fence.workItemId with
      | some run, some work =>
          if nextFailureCount work.failureCount progress < failureLimit then
            none
          else
            deferredAs s
              { actorId := run.actorId, workItemId := fence.workItemId, runId := run.id,
                audience := work.audience, deliveryRoute := run.deliveryRoute,
                executionPolicy := run.executionPolicy, ingressSource := run.ingressSource }
      | _, _ => none
  | _ => none

/-- What a committed call does to results: nothing, the release of a deferred one, or the
creation of terminal bundles.
-/
inductive ResultStep (call : Call) (s s' : Store) : Prop
  | leaves (leaves : LeavesResults s s')
  | recordsRoute {event : NewInboundEvent} {now : Timestamp} {ids : FreshIds}
      {actorId : ActorId} {sequence : Nat} {m : Store}
      (isCall : call = .ingest event now ids)
      (authorized
        : authorizedActor s event.identityProvider event.identitySubject = some actorId)
      (before : LeavesResults s m)
      (recorded : recordRoute event actorId sequence now ids m = .ok s')
  | ends {context : TerminalBundleContext} {requestIds : List RequestId}
      {intents : List NewOutboxIntent} {requested terminal : TerminalState}
      {now : Timestamp} {ids : FreshIds} {m t : Store}
      (before : LeavesResults s m)
      (created
        : createTerminalBundles context requestIds intents requested now ids m
          = .ok (terminal, t))
      (after : LeavesResults t s') (defers : call.defers s = deferredAs m context)

/-- `ingest` leaves the store as it is, or accepts the message and records its route. -/
theorem ingest_records {event : NewInboundEvent} {now : Timestamp} {ids : FreshIds}
    {outcome : IngressOutcome} (ingested : ingest event now ids s = .ok (outcome, s'))
    : (s' = s ∧ ∀ eventId workItemId sequence,
        outcome ≠ .accepted eventId workItemId sequence)
      ∨ ∃ actorId sequence m,
        authorizedActor s event.identityProvider event.identitySubject = some actorId
          ∧ LeavesResults s m ∧ recordRoute event actorId sequence now ids m = .ok s' := by
  simp only [ingest, bind_eq_ok] at ingested
  obtain ⟨_, _, ingested⟩ := ingested
  split at ingested
  · cases ingested
    exact Or.inl ⟨rfl, fun _ _ _ same => by cases same⟩
  · split at ingested
    · cases ingested
      exact Or.inl ⟨rfl, fun _ _ _ same => by cases same⟩
    · rename_i actorId authorized
      simp only [bind_eq_ok] at ingested
      obtain ⟨_, _, ⟨sequence, _⟩, _, _, _, m, recorded, result⟩ := ingested
      cases result
      refine Or.inr ⟨actorId, sequence, _, authorized, ?_, recorded⟩
      exact .same rfl rfl rfl rfl rfl rfl

theorem ingest_resultStep {event : NewInboundEvent} {now : Timestamp} {ids : FreshIds}
    {outcome : IngressOutcome} (ingested : ingest event now ids s = .ok (outcome, s'))
    : ResultStep (.ingest event now ids) s s' := by
  rcases ingest_records ingested with ⟨rfl, -⟩ | ⟨actorId, sequence, m, authorized, before, recorded⟩
  · exact .leaves (.refl _)
  · exact .recordsRoute rfl authorized before recorded

/-- Consuming the control event keeps the source sequence of every run. -/
theorem sourceEventSequence_consumeControl (run : AttachedRun) (control : ControlEvent)
    (s : Store) (runId : RunId)
    : sourceEventSequence (consumeControl run control s) runId = sourceEventSequence s runId := by
  unfold sourceEventSequence consumeControl
  congr 2
  · apply Table.map_select_updateWhere
    · exact fun _ => Iff.rfl
    · exact fun _ => rfl
  · apply Table.map_select_updateWhere
    · exact fun _ => Iff.rfl
    · exact fun _ => rfl

theorem finalizeRun_resultStep {command : FinalizeRun} {now : Timestamp} {ids : FreshIds}
    {outcome : FinalizeOutcome}
    (finalized : finalizeRun command now ids s = .ok (outcome, s'))
    : ResultStep (.finalizeRun command now ids) s s' := by
  simp only [finalizeRun, bind_eq_ok] at finalized
  obtain ⟨_, _, rest⟩ := finalized
  split at rest
  · cases rest
    exact .leaves (.refl _)
  · simp only [insertMessages, bind_eq_ok] at rest
    obtain ⟨_, _, m, ⟨_, _, stored⟩, _, _, ⟨_, _⟩, created, result⟩ := rest
    cases stored
    cases result
    refine .ends ?_ created ?_ rfl
    · exact .same rfl rfl rfl rfl rfl rfl
    · exact .same rfl rfl rfl rfl rfl rfl

theorem cancelRun_resultStep {run : AttachedRun} {control : ControlEvent} {now : Timestamp}
    {ids : FreshIds} {u : Unit} (cancelled : cancelRun run control now ids s = .ok (u, s'))
    : ResultStep (.cancelRun run control now ids) s s' := by
  simp only [cancelRun, bind_eq_ok] at cancelled
  obtain ⟨_, _, _, _, t, created, result⟩ := cancelled
  cases result
  unfold createCancellationBundles at created
  split at created
  · cases created
    exact .leaves (.same rfl rfl rfl rfl rfl rfl)
  · rename_i requests
    simp only [bind_eq_ok] at created
    obtain ⟨⟨_, _⟩, bundles, stored⟩ := created
    cases stored
    refine .ends ?_ bundles ?_ ?_
    · exact .same rfl rfl rfl rfl rfl rfl
    · exact .same rfl rfl rfl rfl rfl rfl
    · have some : cancellationTargetRequests (consumeControl run control s) run control ≠ [] :=
        requests
      simp only [Call.defers, if_neg some, deferredAs]
      rw [← sourceEventSequence_consumeControl run control s]
      rfl

theorem recordFailure_resultStep {fence : FailureFence} {error : String}
    {progress : QuantumProgress} {now : Timestamp} {ids : FreshIds}
    {disposition : FailureDisposition}
    (recorded : recordFailure fence error progress now ids s = .ok (disposition, s'))
    : ResultStep (.recordFailure fence error progress now ids) s s' := by
  obtain ⟨row, work, fence', active, ready, -⟩ := recordFailure_ok recorded
  have found : s.workItems.find?
      (fun work => work.id = fence.workItemId ∧ work.state = .ready) = some work :=
    Table.find?_eq_some_of_unique fence'.workStored
      ⟨fence'.workId.trans fence'.workItemId, ready⟩
      (fun other stored same => Table.eq_of_clash stored fence'.workStored
        (same.1.trans (fence'.workId.trans fence'.workItemId).symm))
  simp only [recordFailure, bind_eq_ok, found] at recorded
  obtain ⟨_, _, rest⟩ := recorded
  split at rest
  · cases rest
    exact .leaves (.same rfl rfl rfl rfl rfl rfl)
  · rename_i last
    have foundWork : workItem? s fence.workItemId = some work :=
      workItem?_eq_some.mpr ⟨fence'.workStored, fence'.workId.trans fence'.workItemId⟩
    simp only [bind_eq_ok, terminalizeWork] at rest
    obtain ⟨t, ended, result⟩ := rest
    cases result
    split at ended
    · rename_i run work' foundRun foundWork'
      simp only [bind_eq_ok] at ended
      obtain ⟨⟨_, _⟩, created, _, failed, stored⟩ := ended
      cases failed
      cases stored
      refine .ends (.refl _) created ?_ ?_
      · exact ⟨.update (fun _ => ⟨rfl, rfl, rfl⟩), rfl, rfl, .refl _, rfl, rfl⟩
      · have same : work' = work := Option.some.inj (foundWork'.symm.trans foundWork)
        subst same
        simp only [Call.defers, foundRun, foundWork', if_neg last]
    · cases ended
      exact .leaves (.same rfl rfl rfl rfl rfl rfl)

/-- What each operation does to results, by cases on the call. -/
theorem perform_resultStep {call : Call} {answer : Answer}
    (performed : call.perform s = .ok (answer, s'))
    : ResultStep call s s' := by
  cases call <;> simp only [Call.perform, answering_eq_ok, reading_eq_ok] at performed
  case ingest =>
    obtain ⟨_, done, -⟩ := performed
    exact ingest_resultStep done
  case submitForActor =>
    obtain ⟨_, done, -⟩ := performed
    exact .leaves (submitForActor_leavesResults done)
  case cancelForActor =>
    obtain ⟨_, done, -⟩ := performed
    exact .leaves (cancelForActor_leavesResults done)
  case ingestWebhook =>
    obtain ⟨_, done, -⟩ := performed
    exact .leaves (ingestWebhook_leavesResults done)
  case acquireReadyActor =>
    obtain ⟨_, done, -⟩ := performed
    obtain ⟨_, rfl⟩ := acquire_ok done
    exact .leaves (.same rfl rfl rfl rfl rfl rfl)
  case acquireReadyActorFor =>
    obtain ⟨_, done, -⟩ := performed
    obtain ⟨_, rfl⟩ := acquire_ok done
    exact .leaves (.same rfl rfl rfl rfl rfl rfl)
  case renewLease =>
    obtain ⟨_, done, -⟩ := performed
    obtain ⟨-, rfl⟩ := renewLease_ok done
    exact .leaves (.same rfl rfl rfl rfl rfl rfl)
  case releaseLease =>
    obtain ⟨_, done, -⟩ := performed
    cases done
    exact .leaves (.same rfl rfl rfl rfl rfl rfl)
  case attachNextRun =>
    obtain ⟨_, done, -⟩ := performed
    exact .leaves (attachNextRun_leavesResults done)
  case newerControlEvent =>
    obtain ⟨rfl, -⟩ := performed
    exact .leaves (.refl _)
  case checkpointRun =>
    obtain ⟨_, done, -⟩ := performed
    simp only [checkpointRun, incorporateEvents, insertMessages, bind_eq_ok] at done
    obtain ⟨_, _, m, ⟨_, _, marked⟩, _, attempts, _, ⟨_, _, stored⟩, result⟩ := done
    cases stored
    cases result
    obtain ⟨_, rfl⟩ := checkpointAttempts_ok attempts
    refine .leaves ((incorporateEach_leavesResults marked).trans ?_)
    exact .same rfl rfl rfl rfl rfl rfl
  case finalizeRun =>
    obtain ⟨_, done, -⟩ := performed
    exact finalizeRun_resultStep done
  case cancelRun =>
    obtain ⟨_, done, -⟩ := performed
    exact cancelRun_resultStep done
  case prepareAttempt =>
    obtain ⟨_, done, -⟩ := performed
    simp only [prepareAttempt, bind_eq_ok] at done
    obtain ⟨_, _, _, _, _, _, _, _, result⟩ := done
    cases result
    exact .leaves (.same rfl rfl rfl rfl rfl rfl)
  case markAttemptRunning =>
    obtain ⟨_, done, -⟩ := performed
    obtain ⟨-, -, rfl⟩ := transitionAttempt_ok done
    exact .leaves (.same rfl rfl rfl rfl rfl rfl)
  case rejectPreparedAttempt =>
    obtain ⟨_, done, -⟩ := performed
    unfold rejectPreparedAttempt at done
    split at done
    · cases done
    · obtain ⟨-, -, rfl⟩ := transitionAttempt_ok done
      exact .leaves (.same rfl rfl rfl rfl rfl rfl)
  case finishAttempt =>
    obtain ⟨_, done, -⟩ := performed
    obtain ⟨-, -, rfl⟩ := transitionAttempt_ok done
    exact .leaves (.same rfl rfl rfl rfl rfl rfl)
  case recoverAttempt =>
    obtain ⟨_, done, -⟩ := performed
    obtain ⟨_, rfl⟩ := recoverAttempt_ok done
    exact .leaves (.same rfl rfl rfl rfl rfl rfl)
  case blockUnknownAttempt =>
    obtain ⟨_, done, -⟩ := performed
    simp only [blockUnknownAttempt, bind_eq_ok] at done
    obtain ⟨_, _, _, _, result⟩ := done
    cases result
    exact .leaves (.same rfl rfl rfl rfl rfl rfl)
  case unresolvedAttempts =>
    obtain ⟨rfl, -⟩ := performed
    exact .leaves (.refl _)
  case beginStaging =>
    obtain ⟨_, done, -⟩ := performed
    simp only [beginStaging, bind_eq_ok] at done
    obtain ⟨_, _, _, _, _, _, result⟩ := done
    cases result
    exact .leaves (.same rfl rfl rfl rfl rfl rfl)
  case commitStagedExecution =>
    obtain ⟨_, done, -⟩ := performed
    obtain ⟨-, -, _, _, rfl⟩ := commitStagedExecution_ok done
    exact .leaves (.same rfl rfl rfl rfl rfl rfl)
  case recordFailure =>
    obtain ⟨_, done, -⟩ := performed
    exact recordFailure_resultStep done
  case recordProgress =>
    obtain ⟨_, done, -⟩ := performed
    simp only [recordProgress, bind_eq_ok] at done
    obtain ⟨_, _, result⟩ := done
    cases result
    exact .leaves (.same rfl rfl rfl rfl rfl rfl)
  case deliverBundle step =>
    obtain ⟨_, done, -⟩ := performed
    obtain ⟨_, rfl, redelivers⟩ := step.perform_ok done
    exact .leaves ⟨.refl _, rfl, rfl, redelivers, rfl, rfl⟩
  case recoverStartup now =>
    obtain ⟨_, done, -⟩ := performed
    cases done
    refine .leaves ((recoverCandidates_leavesResults now (recoveryCandidates s now)).trans ?_)
    exact ⟨.refl _, rfl, rfl, .update (fun _ => ⟨rfl, rfl, rfl, rfl⟩), rfl, rfl⟩
  case recoverShutdown =>
    obtain ⟨_, done, -⟩ := performed
    cases done
    exact .leaves ⟨.refl _, rfl, rfl, .update (fun _ => ⟨rfl, rfl, rfl, rfl⟩), rfl, rfl⟩

end Codrik.Runtime.Sqlite
