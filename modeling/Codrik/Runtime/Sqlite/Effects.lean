import Codrik.Runtime.Sqlite.Attempts
import Codrik.Runtime.Sqlite.Artifacts
import Codrik.Runtime.Sqlite.Failures
import Codrik.Runtime.Sqlite.Recovery
import Codrik.Runtime.Sqlite.Webhook

/-! What the statements shared by several operations check and change. The proofs about
operations use these lemmas and do not unfold the statements again.
-/

namespace Codrik.Runtime.Sqlite

open Codrik.Relational

-----------------------------------------------------------------------------------------
-- Lookups and guards
-----------------------------------------------------------------------------------------

/-- A work item is found under its id. -/
theorem workItem?_eq_some {s : Store} {id : WorkItemId} {work : WorkItemRow}
    : workItem? s id = some work ↔ work ∈ s.workItems ∧ work.id = id := by
  constructor
  · intro found
    obtain ⟨stored, same⟩ := Table.find?_some found
    exact ⟨stored, same⟩
  · rintro ⟨stored, rfl⟩
    exact Table.find?_eq_some_of_unique stored rfl
      (fun _ other same => Table.eq_of_clash other stored same)

@[simp] theorem ensureCurrentLease_eq_ok {s : Store} {lease : ActorLease} {now : Timestamp}
    {u : Unit}
    : ensureCurrentLease s lease now = .ok u ↔ CurrentLease s lease now :=
  require_eq_ok

/-- The facts `validate_run` establishes. -/
structure Validated (s : Store) (run : AttachedRun) (now : Timestamp) (row : RunRow)
    (work : WorkItemRow) : Prop where
  current : CurrentLease s run.lease now
  runStored : row ∈ s.runs
  runId : row.id = run.runId
  active : row.state = .active
  workStored : work ∈ s.workItems
  workId : work.id = row.workItemId
  matching : MatchesRow run row work

/-- A validated run is the active row it claims to be, by inversion of the lookups. -/
theorem validateRun_ok {s : Store} {run : AttachedRun} {now : Timestamp} {u : Unit}
    (valid : validateRun s run now = .ok u)
    : ∃ row work, Validated s run now row work := by
  simp only [validateRun, bind_eq_ok, ensureCurrentLease_eq_ok] at valid
  obtain ⟨_, current, rest⟩ := valid
  cases found : activeRun? s run.runId with
  | none => simp [found] at rest
  | some pair =>
      obtain ⟨row, work⟩ := pair
      simp only [found, bind_eq_ok, require_eq_ok] at rest
      obtain ⟨_, _, matching⟩ := rest
      simp only [activeRun?, Option.pure_def, Option.bind_eq_bind, Option.bind_eq_some_iff,
        Option.some.injEq, Prod.mk.injEq] at found
      obtain ⟨row', foundRun, work', foundWork, rfl, rfl⟩ := found
      obtain ⟨sameId, active⟩ := Table.of_find? foundRun
      obtain ⟨stored, workId⟩ := workItem?_eq_some.mp foundWork
      exact ⟨_, _, current, Table.mem_of_find? foundRun, sameId, active, stored, workId,
        matching⟩

namespace Validated

variable {s : Store} {run : AttachedRun} {now : Timestamp} {row : RunRow} {work : WorkItemRow}

theorem actorId (valid : Validated s run now row work) : row.actorId = run.lease.actorId :=
  valid.matching.1

theorem workItemId (valid : Validated s run now row work)
    : row.workItemId = run.workItemId :=
  valid.matching.2.1

theorem audience (valid : Validated s run now row work) : work.audience = run.audience :=
  valid.matching.2.2.2.1

end Validated

-----------------------------------------------------------------------------------------
-- Ingress statements
-----------------------------------------------------------------------------------------

/-- The actor whose counter is taken, and the counter. -/
theorem nextSequence_ok {s : Store} {actorId : ActorId} {sequence : Nat}
    {actors : Table ActorRow}
    (taken : nextSequence s actorId = .ok (sequence, actors))
    : (∃ actor ∈ s.actors, actor.id = actorId ∧ sequence = actor.nextMailboxSequence + 1)
      ∧ actors = s.actors.updateWhere (·.id = actorId)
          (fun row => { row with nextMailboxSequence := row.nextMailboxSequence + 1 }) := by
  unfold nextSequence at taken
  split at taken
  · cases taken
  · rename_i actor found
    obtain ⟨stored, same⟩ := Table.find?_some found
    cases taken
    exact ⟨⟨actor, stored, same, rfl⟩, rfl⟩

/-- Taking a sequence number disables no actor. -/
theorem nextSequence_enabled {s : Store} {actorId : ActorId} {sequence : Nat}
    {actors : Table ActorRow} (taken : nextSequence s actorId = .ok (sequence, actors))
    {id : ActorId} (enabled : actorIsEnabled s id)
    : ∃ actor ∈ actors, actor.id = id ∧ actor.enabled = true := by
  obtain ⟨-, rfl⟩ := nextSequence_ok taken
  obtain ⟨actor, stored, same, isEnabled⟩ := enabled
  refine ⟨_, Table.updateWhere_mem stored, ?_⟩
  split
  · exact ⟨same, isEnabled⟩
  · exact ⟨same, isEnabled⟩

/-- Projection touches gateway deliveries only. -/
theorem projectOutboxToGateway_ok {intentKey : IntentKey} {outboxId : OutboxId}
    {payload : OutboxPayload} {route : DeliveryRoute} {ids : Nat → GatewayDeliveryId}
    {s s' : Store}
    (projected : projectOutboxToGateway intentKey outboxId payload route ids s = .ok s')
    : ∃ deliveries, s' = { s with gatewayDeliveries := deliveries } := by
  simp only [projectOutboxToGateway, bind_eq_ok] at projected
  obtain ⟨deliveries, _, stored⟩ := projected
  cases stored
  exact ⟨deliveries, rfl⟩

/-- Recording a route touches routes, gateway deliveries and deferred results only. -/
theorem recordLatestRouteAndReleaseDeferred_ok {actorId : ActorId} {sequence : Nat}
    {route : DeliveryRoute} {now : Timestamp} {ids : FreshIds} {s s' : Store}
    (recorded
      : recordLatestRouteAndReleaseDeferred actorId sequence route now ids s = .ok s')
    : ∃ routes deliveries deferred, s' =
        { s with
          latestTelegramRoutes := routes
          gatewayDeliveries := deliveries
          deferredWebhookResults := deferred } := by
  simp only [recordLatestRouteAndReleaseDeferred, bind_eq_ok] at recorded
  obtain ⟨routes, _, rest⟩ := recorded
  split at rest
  · cases rest
    exact ⟨routes, s.gatewayDeliveries, s.deferredWebhookResults, rfl⟩
  · simp only [bind_eq_ok] at rest
    obtain ⟨released, projected, stored⟩ := rest
    obtain ⟨deliveries, rfl⟩ := projectOutboxToGateway_ok projected
    cases stored
    exact ⟨routes, deliveries, _, rfl⟩

theorem recordRoute_ok {event : NewInboundEvent} {actorId : ActorId} {sequence : Nat}
    {now : Timestamp} {ids : FreshIds} {s s' : Store}
    (recorded : recordRoute event actorId sequence now ids s = .ok s')
    : ∃ routes deliveries deferred, s' =
        { s with
          latestTelegramRoutes := routes
          gatewayDeliveries := deliveries
          deferredWebhookResults := deferred } := by
  unfold recordRoute at recorded
  split at recorded
  · exact recordLatestRouteAndReleaseDeferred_ok recorded
  · cases recorded
    exact ⟨_, _, _, rfl⟩

-----------------------------------------------------------------------------------------
-- Attachment
-----------------------------------------------------------------------------------------

/-- Attaching a batch stores one row for each event and marks the pending ones, by
induction on the batch.
-/
theorem attachEvents_ok {runId : RunId} {batch : List EventRow} {s s' : Store}
    (attached : attachEvents runId batch s = .ok s')
    : ∃ runEvents events, s' = { s with runEvents := runEvents, events := events }
      ∧ (∀ row, row ∈ runEvents ↔
          row ∈ s.runEvents ∨ ∃ event ∈ batch, row = ⟨runId, event.id, false⟩)
      ∧ (∀ row, row ∈ events ↔ ∃ event ∈ s.events,
          (if event.state = .pending ∧ event.id ∈ batch.map (·.id) then event.take runId
            else event) = row) := by
  induction batch generalizing s with
  | nil =>
      cases attached
      exact ⟨_, _, rfl, by simp, by simp⟩
  | cons first rest ih =>
      simp only [attachEvents, attachEvent, bind_eq_ok, execute_eq_ok] at attached
      obtain ⟨middle, ⟨rows, inserted, stored⟩, others⟩ := attached
      cases stored
      obtain ⟨runEvents, events, rfl, rowsIff, eventsIff⟩ := ih others
      refine ⟨runEvents, events, rfl, fun row => ?_, fun row => ?_⟩
      · rw [rowsIff, Table.mem_insert? inserted]
        simp only [List.mem_cons, exists_eq_or_imp, or_assoc]
      · simp only [eventsIff, Table.exists_mem_updateWhere]
        refine exists_congr fun event => and_congr_right fun _ => ?_
        by_cases pending : event.state = .pending <;>
          by_cases here : event.id = first.id <;>
          simp [pending, here, EventRow.take]

-----------------------------------------------------------------------------------------
-- Terminal bundles
-----------------------------------------------------------------------------------------

/-- How settling changes the requests: the active ones listed get a terminal state and a
bundle, all others stay.
-/
structure Settles (terminal : TerminalState) (requestIds : List RequestId)
    (before after : Table RequestRow) : Prop where
  backward : ∀ request' ∈ after, ∃ request ∈ before, request' = request
    ∨ (request.requestId ∈ requestIds ∧ request.state = .active
      ∧ ∃ bundle, request' = request.settle terminal bundle)
  forward : ∀ request ∈ before, ∃ request' ∈ after, request' = request
    ∨ (request.requestId ∈ requestIds ∧ request.state = .active
      ∧ ∃ bundle, request' = request.settle terminal bundle)
  settled : ∀ request ∈ after, request.requestId ∈ requestIds → request.state ≠ .active

theorem Settles.refl (terminal : TerminalState) (requests : Table RequestRow)
    : Settles terminal [] requests requests where
  backward request mem := ⟨request, mem, Or.inl rfl⟩
  forward request mem := ⟨request, mem, Or.inl rfl⟩
  settled _ _ listed := absurd listed List.not_mem_nil

/-- Settling one request and then others settles all of them. -/
theorem Settles.cons {terminal : TerminalState} {requestId : RequestId} {bundle : BundleId}
    {rest : List RequestId} {before after : Table RequestRow}
    (others
      : Settles terminal rest
          (before.updateWhere (AwaitsBundle requestId) (·.settle terminal bundle)) after)
    (one : before.count (AwaitsBundle requestId) = 1)
    : Settles terminal (requestId :: rest) before after := by
  have settledNow : ∀ request ∈ before, request.requestId = requestId →
      AwaitsBundle requestId request := by
    intro request mem same
    obtain ⟨found, stored, awaits⟩ := Table.exists_of_count one
    have : request = found := Table.eq_of_clash mem stored (Or.inl (same.trans awaits.1.symm))
    exact this ▸ awaits
  refine ⟨?_, ?_, ?_⟩
  · intro request' mem
    obtain ⟨middle, stored, change⟩ := others.backward request' mem
    obtain ⟨request, original, rfl⟩ := Table.mem_updateWhere.mp stored
    refine ⟨request, original, ?_⟩
    split at change
    · rename_i awaits
      right
      refine ⟨by simp [awaits.1], awaits.2.1, ?_⟩
      rcases change with rfl | ⟨_, active, _⟩
      · exact ⟨bundle, rfl⟩
      · exact absurd active terminal.request_ne_active
    · exact change.imp_right (fun ⟨listed, more⟩ => ⟨List.mem_cons_of_mem _ listed, more⟩)
  · intro request original
    obtain ⟨request', mem, change⟩ := others.forward _
      (Table.updateWhere_mem (p := AwaitsBundle requestId) original)
    refine ⟨request', mem, ?_⟩
    split at change
    · rename_i awaits
      right
      refine ⟨by simp [awaits.1], awaits.2.1, ?_⟩
      rcases change with rfl | ⟨_, active, _⟩
      · exact ⟨bundle, rfl⟩
      · exact absurd active terminal.request_ne_active
    · exact change.imp_right (fun ⟨listed, more⟩ => ⟨List.mem_cons_of_mem _ listed, more⟩)
  · intro request mem listed
    rcases List.mem_cons.mp listed with same | listed
    · obtain ⟨middle, stored, change⟩ := others.backward request mem
      obtain ⟨first, original, rfl⟩ := Table.mem_updateWhere.mp stored
      have sameFirst : first.requestId = requestId := by
        rcases change with rfl | ⟨_, _, bundle', rfl⟩ <;> split at same <;> exact same
      have awaits := settledNow first original sameFirst
      simp only [awaits, if_true] at change
      rcases change with rfl | ⟨_, active, _⟩
      · exact terminal.request_ne_active
      · exact absurd active terminal.request_ne_active
    · exact others.settled request mem listed

/-- The stores that differ from `s` in result tables only: the outbox, bundles and their
deliveries, gateway deliveries and deferred results.
-/
def SameButResults (s s' : Store) : Prop :=
  ∃ outbox deliveries deferred bundles memberships, s' =
    { s with
      outbox := outbox
      gatewayDeliveries := deliveries
      deferredWebhookResults := deferred
      resultBundles := bundles
      outboxDeliveries := memberships }

theorem SameButResults.refl (s : Store) : SameButResults s s :=
  ⟨s.outbox, s.gatewayDeliveries, s.deferredWebhookResults, s.resultBundles,
    s.outboxDeliveries, rfl⟩

theorem SameButResults.trans {s t u : Store} (first : SameButResults s t)
    (second : SameButResults t u)
    : SameButResults s u := by
  obtain ⟨_, _, _, _, _, rfl⟩ := first
  obtain ⟨outbox, deliveries, deferred, bundles, memberships, rfl⟩ := second
  exact ⟨outbox, deliveries, deferred, bundles, memberships, rfl⟩

/-- Each intent is stored under the outbox id returned for it. -/
def StoredAs (s : Store) (payload : OutboxPayload) (id : OutboxId) : Prop :=
  ∃ row ∈ s.outbox, row.id = id ∧ row.payloadJson = payload

theorem insertOutbox_ok {context : TerminalBundleContext} {intent : NewOutboxIntent}
    {outboxId : OutboxId} {s s' : Store}
    (inserted : insertOutbox context intent s = .ok (outboxId, s'))
    : (∃ outbox, s' = { s with outbox := outbox } ∧ ∀ row ∈ s.outbox, row ∈ outbox)
      ∧ StoredAs s' intent.payload outboxId := by
  simp only [insertOutbox, bind_eq_ok, execute_eq_ok, require_eq_ok] at inserted
  obtain ⟨_, _, _, _, outbox, insertion, stored, found, _, agrees, result⟩ := inserted
  cases result
  refine ⟨⟨outbox, rfl, fun row mem => Table.mem_insertUnless_of_mem insertion mem⟩, ?_⟩
  exact ⟨stored, Table.mem_of_find? found, rfl, agrees.2.2.2.2.2⟩

/-- All intents of a bundle are stored, by induction on the intents. -/
theorem insertOutboxes_ok {context : TerminalBundleContext}
    {intents : List NewOutboxIntent} {outboxIds : List OutboxId} {s s' : Store}
    (inserted : insertOutboxes context intents s = .ok (outboxIds, s'))
    : (∃ outbox, s' = { s with outbox := outbox } ∧ ∀ row ∈ s.outbox, row ∈ outbox)
      ∧ List.Forall₂ (fun intent id => StoredAs s' intent.payload id) intents outboxIds := by
  induction intents generalizing s outboxIds with
  | nil =>
      cases inserted
      exact ⟨⟨_, rfl, fun _ mem => mem⟩, .nil⟩
  | cons intent rest ih =>
      simp only [insertOutboxes, bind_eq_ok] at inserted
      obtain ⟨⟨outboxId, middle⟩, first, ⟨others, final⟩, second, result⟩ := inserted
      cases result
      obtain ⟨⟨outbox, rfl, grows⟩, row, stored, same⟩ := insertOutbox_ok first
      obtain ⟨⟨outbox', rfl, grows'⟩, storedRest⟩ := ih second
      refine ⟨⟨outbox', rfl, fun row mem => grows' row (grows row mem)⟩, .cons ?_ storedRest⟩
      exact ⟨row, grows' row stored, same⟩

/-- Projections write gateway deliveries only, by induction on the intents. -/
theorem projectIntents_ok {route : DeliveryRoute} {ids : FreshIds} {position : Nat}
    {intents : List (NewOutboxIntent × OutboxId)} {s s' : Store}
    (projected : projectIntents route ids position intents s = .ok s')
    : ∃ deliveries, s' = { s with gatewayDeliveries := deliveries } := by
  induction intents generalizing s position with
  | nil =>
      cases projected
      exact ⟨_, rfl⟩
  | cons intent rest ih =>
      simp only [projectIntents, bind_eq_ok] at projected
      obtain ⟨middle, first, others⟩ := projected
      obtain ⟨_, rfl⟩ := projectOutboxToGateway_ok first
      obtain ⟨deliveries, rfl⟩ := ih others
      exact ⟨deliveries, rfl⟩

/-- Deferring writes deferred results only, by induction on the outbox ids. -/
theorem deferResults_ok {actorId : ActorId} {sequence : Nat} {outboxIds : List OutboxId}
    {s s' : Store} (deferred : deferResults actorId sequence outboxIds s = .ok s')
    : ∃ results, s' = { s with deferredWebhookResults := results } := by
  induction outboxIds generalizing s with
  | nil =>
      cases deferred
      exact ⟨_, rfl⟩
  | cons outboxId rest ih =>
      simp only [deferResults, bind_eq_ok] at deferred
      obtain ⟨_, _, others⟩ := deferred
      obtain ⟨results, rfl⟩ := ih others
      exact ⟨results, rfl⟩

theorem routeIntents_ok {context : TerminalBundleContext} {intents : List NewOutboxIntent}
    {outboxIds : List OutboxId} {ids : FreshIds} {s s' : Store}
    (routed : routeIntents context intents outboxIds ids s = .ok s')
    : ∃ deliveries results, s' =
      { s with gatewayDeliveries := deliveries, deferredWebhookResults := results } := by
  unfold routeIntents at routed
  split at routed
  · obtain ⟨deliveries, rfl⟩ := projectIntents_ok routed
    exact ⟨deliveries, _, rfl⟩
  · split at routed
    · split at routed
      · cases routed
      · obtain ⟨results, rfl⟩ := deferResults_ok routed
        exact ⟨_, results, rfl⟩
    · cases routed
      exact ⟨_, _, rfl⟩

/-- The memberships a bundle gets, by induction on its members. -/
theorem insertDeliveries_ok {plan : BundlePlan} {ordinal : Nat}
    {members : List (DeliveryId × OutboxId)} {s s' : Store}
    (inserted : insertDeliveries plan ordinal members s = .ok s')
    : ∃ rows, s' = { s with outboxDeliveries := rows }
      ∧ ∀ row, row ∈ rows ↔ row ∈ s.outboxDeliveries
        ∨ ∃ position, members[position]? = some (row.id, row.outboxId)
          ∧ row.bundleId = plan.id ∧ row.ordinal = ordinal + position
          ∧ row.address = plan.requestId := by
  induction members generalizing s ordinal with
  | nil =>
      cases inserted
      exact ⟨_, rfl, fun row => by simp⟩
  | cons member rest ih =>
      simp only [insertDeliveries, bind_eq_ok, execute_eq_ok] at inserted
      obtain ⟨table, first, others⟩ := inserted
      obtain ⟨rows, rfl, mem⟩ := ih others
      refine ⟨rows, rfl, fun row => ?_⟩
      rw [mem row, Table.mem_insert? first, or_assoc]
      refine or_congr_right ?_
      constructor
      · intro new
        rcases new with rfl | ⟨position, found, bundle, counted, address⟩
        · exact ⟨0, rfl, rfl, rfl, rfl⟩
        · exact ⟨position + 1, found, bundle, by omega, address⟩
      · intro new
        obtain ⟨position, found, bundle, counted, address⟩ := new
        cases position with
        | zero =>
            left
            simp only [List.getElem?_cons_zero, Option.some.injEq] at found
            cases row
            simp_all
        | succ position => exact Or.inr ⟨position, found, bundle, by omega, address⟩

/-- Inserting the planned bundles settles their requests, by induction on the plans. -/
theorem insertBundles_ok {terminal : TerminalState} {now : Timestamp}
    {outboxIds : List OutboxId} {plans : List BundlePlan} {s s' : Store}
    (inserted : insertBundles terminal now outboxIds plans s = .ok s')
    : ∃ requests, Settles terminal (plans.map (·.requestId)) s.localRequests requests
      ∧ SameButResults { s with localRequests := requests } s' := by
  induction plans generalizing s with
  | nil =>
      cases inserted
      exact ⟨_, .refl terminal _, .refl _⟩
  | cons plan rest ih =>
      simp only [insertBundles, insertBundle, bind_eq_ok, require_eq_ok] at inserted
      obtain ⟨_, ⟨bundles, _, middle, delivered, _, one, stored⟩, others⟩ := inserted
      cases stored
      obtain ⟨_, rfl, -⟩ := insertDeliveries_ok delivered
      obtain ⟨requests, settles, _, _, _, _, _, rfl⟩ := ih others
      exact ⟨requests, settles.cons one, _, _, _, _, _, rfl⟩

/-- Every planned bundle carries the payloads of all intents under a manifest that accepts
them, by induction on the requests.
-/
theorem buildPlans_ok {intents : List NewOutboxIntent} {ids : FreshIds} {position : Nat}
    {requestIds : List RequestId} {plans : List BundlePlan}
    (built : buildPlans intents ids position requestIds = .ok plans)
    : plans.map (·.requestId) = requestIds
      ∧ ∀ plan ∈ plans, manifestFor plan.deliveries = .ok plan.manifest
        ∧ ∃ ids, plan.deliveries = bundleDeliveries intents ids := by
  induction requestIds generalizing position plans with
  | nil =>
      cases built
      exact ⟨rfl, fun _ mem => absurd mem List.not_mem_nil⟩
  | cons requestId rest ih =>
      simp only [buildPlans] at built
      split at built
      · cases built
      · rename_i manifest accepted
        simp only [bind_eq_ok] at built
        obtain ⟨others, builtRest, result⟩ := built
        cases result
        obtain ⟨sameRest, planned⟩ := ih builtRest
        refine ⟨by simp [sameRest], fun plan mem => ?_⟩
        rcases List.mem_cons.mp mem with rfl | mem
        · exact ⟨accepted, _, rfl⟩
        · exact planned plan mem

/-- A payload no bundle can carry is replaced, and the terminal state is then a failure. -/
theorem effectiveIntents_ok {context : TerminalBundleContext} {intents : List NewOutboxIntent}
    {requested terminal : TerminalState} {ids : FreshIds} {effective : List NewOutboxIntent}
    (chosen : effectiveIntents context intents requested ids = .ok (effective, terminal))
    : (effective = intents ∧ terminal = requested
        ∧ ∃ manifest, manifestFor (bundleDeliveries intents (ids.delivery 0)) = .ok manifest)
      ∨ ∃ error, manifestFor (bundleDeliveries intents (ids.delivery 0)) = .error error
        ∧ effective = [terminalPayloadError context error ids]
        ∧ terminal = .failedTerminal := by
  unfold effectiveIntents at chosen
  split at chosen
  · rename_i manifest accepted
    cases chosen
    exact Or.inl ⟨rfl, rfl, manifest, accepted⟩
  · rename_i error rejected
    simp only at chosen
    split at chosen
    · cases chosen
      exact Or.inr ⟨error, rejected, rfl, rfl⟩
    · cases chosen

/-- Terminal bundles settle the listed requests and otherwise touch result tables only. -/
theorem createTerminalBundles_ok {context : TerminalBundleContext}
    {requestIds : List RequestId} {intents : List NewOutboxIntent}
    {requested terminal : TerminalState} {now : Timestamp} {ids : FreshIds} {s s' : Store}
    (created
      : createTerminalBundles context requestIds intents requested now ids s
        = .ok (terminal, s'))
    : (terminal = requested ∨ terminal = .failedTerminal)
      ∧ ∃ requests, Settles terminal requestIds s.localRequests requests
        ∧ SameButResults { s with localRequests := requests } s' := by
  simp only [createTerminalBundles, bind_eq_ok] at created
  obtain ⟨unique, _, ⟨effective, chosen⟩, effectiveOk, plans, built, ⟨outboxIds, stored⟩,
    inserted, routed, routedOk, final, bundles, result⟩ := created
  have kind : chosen = requested ∨ chosen = .failedTerminal :=
    (effectiveIntents_ok effectiveOk).imp (·.2.1) (fun ⟨_, _, _, failed⟩ => failed)
  cases result
  obtain ⟨⟨_, rfl, -⟩, -⟩ := insertOutboxes_ok inserted
  obtain ⟨_, _, rfl⟩ := routeIntents_ok routedOk
  obtain ⟨requests, settles, _, _, _, _, _, rfl⟩ := insertBundles_ok bundles
  rw [(buildPlans_ok built).1] at settles
  exact ⟨kind, requests, settles, _, _, _, _, _, rfl⟩

-----------------------------------------------------------------------------------------
-- Finalization
-----------------------------------------------------------------------------------------

/-- All rows of the run are in the transcript when finalization goes on. -/
theorem requireAllEventsIncorporated_ok {s : Store} {run : AttachedRun}
    {eventIds : List EventId} {u : Unit}
    (complete : requireAllEventsIncorporated s run eventIds = .ok u)
    : ∀ link ∈ s.runEvents, link.runId = run.runId → link.incorporated = true := by
  simp only [requireAllEventsIncorporated, bind_eq_ok, require_eq_ok] at complete
  obtain ⟨_, -, -, incorporated⟩ := complete
  intro link linked here
  exact (incorporated link (Table.mem_select.mpr ⟨linked, here⟩)).1

/-- The last writes of a finalization. -/
def completeRun (run : AttachedRun) (terminal : TerminalState) (now : Timestamp) (s : Store)
    : Store :=
  { s with
    events := s.events.updateWhere (fun event => Incorporated s run.runId event.id)
      (fun event => { event with state := terminal.event }) (EventRow.keepsKey_settle terminal)
    runs := s.runs.updateWhere (fun row => row.id = run.runId ∧ row.state = .active)
      (·.finish terminal.run now) (RunRow.keepsKey_finish terminal.run_ne_active)
    workItems := s.workItems.updateWhere (·.id = run.workItemId)
      (·.enter terminal.workItem now) }

/-- A finalization that goes through settles the requests of the transcript's events and
ends the run in the state of its bundles.
-/
structure Completes (run : AttachedRun) (now : Timestamp) (terminal : TerminalState)
    (s s' : Store) : Prop where
  kind : terminal = .completed ∨ terminal = .failedTerminal
  incorporated : ∀ link ∈ s.runEvents, link.runId = run.runId → link.incorporated = true
  store : ∃ messages requests t,
    Settles terminal (incorporatedLocalRequests s run.runId) s.localRequests requests
      ∧ SameButResults { s with recentMessages := messages, localRequests := requests } t
      ∧ s' = completeRun run terminal now t

/-- `finalize_run` is preempted by compatible input, and otherwise ends the run. -/
theorem finalizeRun_ok {command : FinalizeRun} {now : Timestamp} {ids : FreshIds}
    {outcome : FinalizeOutcome} {s s' : Store}
    (finalized : finalizeRun command now ids s = .ok (outcome, s'))
    : (∃ row work, Validated s command.run now row work)
      ∧ ((∃ newest, newestCompatibleInput s command.run = some newest
          ∧ outcome = .preempted newest ∧ s' = s)
        ∨ (newestCompatibleInput s command.run = none ∧ outcome = .completed
          ∧ ∃ terminal, Completes command.run now terminal s s')) := by
  simp only [finalizeRun, bind_eq_ok] at finalized
  obtain ⟨_, valid, rest⟩ := finalized
  refine ⟨validateRun_ok valid, ?_⟩
  split at rest
  · rename_i newest found
    cases rest
    exact Or.inl ⟨newest, found, rfl, rfl⟩
  · rename_i found
    simp only [insertMessages, bind_eq_ok] at rest
    obtain ⟨_, complete, _, ⟨_, _, stored⟩, artifacts, _, ⟨terminal, t⟩, created, result⟩ := rest
    cases stored
    cases result
    obtain ⟨kind, requests, settles, same⟩ := createTerminalBundles_ok created
    exact Or.inr ⟨found, rfl, terminal, kind, requireAllEventsIncorporated_ok complete, _,
      requests, t, settles, same, rfl⟩

-----------------------------------------------------------------------------------------
-- Cancellation
-----------------------------------------------------------------------------------------

/-- The first writes of a cancellation: the event is consumed, running tools are given up. -/
def consumeControl (run : AttachedRun) (control : ControlEvent) (s : Store) : Store :=
  { s with
    events := s.events.updateWhere (PendingCancel run control)
      (fun event => { event with state := .cancelled }) (EventRow.keepsKey_state .cancelled)
    toolAttempts := s.toolAttempts.updateWhere
      (fun row => row.runId = run.runId ∧ row.state = .running)
      (fun row => { row with state := .outcomeUnknown })
      (AttemptRow.keepsKey_state .outcomeUnknown) }

/-- The last writes of a cancellation. -/
def abandonRun (run : AttachedRun) (now : Timestamp) (s : Store) : Store :=
  { s with
    events := s.events.updateWhere
      (fun event => event.workItemId = some run.workItemId
        ∧ (event.state = .pending ∨ event.state = .processing))
      (fun event => { event with state := .cancelled }) (EventRow.keepsKey_state .cancelled)
    runs := s.runs.updateWhere (·.id = run.runId)
      (·.finish .cancelled now) (RunRow.keepsKey_cancel now)
    workItems := s.workItems.updateWhere (·.id = run.workItemId) (·.enter .cancelled now)
      (WorkItemRow.keepsKey_enter .cancelled now) }

/-- The requests a cancellation ends: active requests of the run's work item that the
consumed event was accepted for.
-/
theorem mem_cancellationTargetRequests {s : Store} {run : AttachedRun} {control : ControlEvent}
    {requestId : RequestId}
    : requestId ∈ cancellationTargetRequests (consumeControl run control s) run control ↔
      ∃ request ∈ s.localRequests, CancellationTarget s run control request
        ∧ request.requestId = requestId := by
  have target : ∀ request, CancellationTarget (consumeControl run control s) run control request ↔
      CancellationTarget s run control request := by
    intro request
    simp only [CancellationTarget, consumeControl, Table.exists_mem_updateWhere]
    refine and_congr_right fun _ => and_congr_right fun _ => and_congr_right fun _ =>
      exists_congr fun target => and_congr_right fun _ => and_congr_right fun _ =>
      exists_congr fun event => and_congr_right fun _ => ?_
    split <;> exact Iff.rfl
  simp only [cancellationTargetRequests, List.mem_map, Table.mem_selectOrdered, target,
    and_assoc]
  rfl

/-- A cancellation consumes its event, settles its targets and ends the run. -/
structure Cancels (run : AttachedRun) (control : ControlEvent) (now : Timestamp)
    (s s' : Store) : Prop where
  valid : ∃ row work, Validated s run now row work
  consumes : ∃ event ∈ s.events, PendingCancel run control event
  store : ∃ terminal requests t, (terminal = .cancelled ∨ terminal = .failedTerminal)
    ∧ Settles terminal (cancellationTargetRequests (consumeControl run control s) run control)
      s.localRequests requests
    ∧ SameButResults { consumeControl run control s with localRequests := requests } t
    ∧ s' = abandonRun run now t

theorem cancelRun_ok {run : AttachedRun} {control : ControlEvent} {now : Timestamp}
    {ids : FreshIds} {u : Unit} {s s' : Store}
    (cancelled : cancelRun run control now ids s = .ok (u, s'))
    : Cancels run control now s s' := by
  simp only [cancelRun, bind_eq_ok, require_eq_ok] at cancelled
  obtain ⟨_, valid, _, one, t, created, result⟩ := cancelled
  refine ⟨validateRun_ok valid, Table.exists_of_count one, ?_⟩
  cases result
  unfold createCancellationBundles at created
  split at created
  · rename_i none
    cases created
    refine ⟨.cancelled, s.localRequests, _, Or.inl rfl, ?_, .refl _, rfl⟩
    rw [show cancellationTargetRequests (consumeControl run control s) run control = [] from none]
    exact .refl _ _
  · simp only [bind_eq_ok] at created
    obtain ⟨⟨terminal, t'⟩, bundles, stored⟩ := created
    cases stored
    obtain ⟨kind, requests, settles, same⟩ := createTerminalBundles_ok bundles
    exact ⟨terminal, requests, t', kind, settles, same, rfl⟩

-----------------------------------------------------------------------------------------
-- Failures
-----------------------------------------------------------------------------------------

/-- What `ensure_failure_fence` finds: the run and work item the fence names. -/
structure Fenced (s : Store) (fence : FailureFence) (row : RunRow) (work : WorkItemRow)
    : Prop where
  runStored : row ∈ s.runs
  runId : row.id = fence.runId
  workItemId : row.workItemId = fence.workItemId
  actorId : row.actorId = fence.lease.actorId
  generation : row.leaseGeneration = fence.lease.generation
  workStored : work ∈ s.workItems
  workId : work.id = row.workItemId

theorem ensureFailureFence_ok {s : Store} {fence : FailureFence} {now : Timestamp}
    {requireActive : Bool} {u : Unit}
    (fenced : ensureFailureFence s fence now requireActive = .ok u)
    : ∃ row work, Fenced s fence row work ∧ FenceStates s requireActive row work := by
  obtain ⟨lease, _, owns, _, _, row, runStored, actor, runId, workItemId, generation, work,
    workStored, workId, states⟩ := require_eq_ok.mp fenced
  exact ⟨row, work,
    ⟨runStored, runId, workItemId, actor.trans owns.1, generation, workStored, workId⟩, states⟩

/-- The fields of a work item after its last failure. -/
def WorkItemRow.fail (error : String) (now : Timestamp) (work : WorkItemRow) : WorkItemRow :=
  { work with
    state := .failedTerminal
    failureCount := failureLimit
    nextAttemptAt := none
    lastError := some (.reported error)
    updatedAt := now }

/-- The last failure of a run settles the requests of its transcript's events. -/
def Fails (row : RunRow) (error : String) (now : Timestamp) (s s' : Store) : Prop :=
  ∃ terminal requests t,
    Settles terminal (incorporatedLocalRequests s row.id) s.localRequests requests
      ∧ terminal = .failedTerminal
      ∧ SameButResults { s with localRequests := requests } t
      ∧ s' =
        { failRun row now t with
          workItems := t.workItems.updateWhere (·.id = row.workItemId) (·.fail error now) }

/-- `record_failure` backs the work item off, or ends its active run at the limit. -/
theorem recordFailure_ok {fence : FailureFence} {error : String} {progress : QuantumProgress}
    {now : Timestamp} {ids : FreshIds} {disposition : FailureDisposition} {s s' : Store}
    (recorded : recordFailure fence error progress now ids s = .ok (disposition, s'))
    : ∃ row work, Fenced s fence row work ∧ row.state = .active ∧ work.state = .ready
      ∧ ((nextFailureCount work.failureCount progress < failureLimit
          ∧ disposition = .retryAt (retryTime now (nextFailureCount work.failureCount progress))
          ∧ s' =
            { s with
              workItems := s.workItems.updateWhere (·.id = fence.workItemId)
                (fun row =>
                  { row with
                    failureCount := nextFailureCount work.failureCount progress
                    nextAttemptAt :=
                      some (retryTime now (nextFailureCount work.failureCount progress))
                    lastError := some (.reported error)
                    updatedAt := now }) })
        ∨ (failureLimit ≤ nextFailureCount work.failureCount progress
          ∧ disposition = .terminalized ∧ Fails row error now s s')) := by
  simp only [recordFailure, bind_eq_ok] at recorded
  obtain ⟨_, fenced, rest⟩ := recorded
  obtain ⟨row, work, fence', states⟩ := ensureFailureFence_ok fenced
  obtain ⟨active, ready⟩ : row.state = .active ∧ work.state = .ready := by
    simpa [FenceStates] using states
  refine ⟨row, work, fence', active, ready, ?_⟩
  have found : s.workItems.find?
      (fun work => work.id = fence.workItemId ∧ work.state = .ready) = some work :=
    Table.find?_eq_some_of_unique fence'.workStored
      ⟨fence'.workId.trans fence'.workItemId, ready⟩
      (fun other stored same => Table.eq_of_clash stored fence'.workStored
        (same.1.trans (fence'.workId.trans fence'.workItemId).symm))
  simp only [found] at rest
  split at rest
  · cases rest
    exact Or.inl ⟨‹_›, rfl, rfl⟩
  · refine Or.inr ⟨Nat.le_of_not_lt ‹_›, ?_⟩
    have foundRun : s.runs.find?
        (fun run => run.workItemId = fence.workItemId ∧ run.state = .active) = some row :=
      Table.find?_eq_some_of_unique fence'.runStored ⟨fence'.workItemId, active⟩
        (fun other known same => Table.eq_of_clash known fence'.runStored
          (Or.inr ⟨same.2, active, same.1.trans fence'.workItemId.symm⟩))
    have foundWork : workItem? s fence.workItemId = some work :=
      workItem?_eq_some.mpr ⟨fence'.workStored, fence'.workId.trans fence'.workItemId⟩
    simp only [terminalizeWork, foundRun, foundWork, bind_eq_ok] at rest
    obtain ⟨_, ⟨⟨terminal, t⟩, created, _, failed, stored⟩, result⟩ := rest
    cases failed
    cases stored
    cases result
    obtain ⟨kind, requests, settles, same⟩ := createTerminalBundles_ok created
    exact ⟨rfl, terminal, requests, t, settles, kind.elim id id, same, by
      rw [fence'.workItemId]; rfl⟩

end Codrik.Runtime.Sqlite
