import Codrik.Runtime.Sqlite.Results

/-! Deferred webhook results: an accepted message with a route releases the newest pending
one and no other, and releases come in the order of the events when no result is deferred
after a newer one was released.
-/

namespace Codrik.Runtime.Sqlite

open Codrik.Relational
open Codrik.Transition

variable {s s' : Store}

-----------------------------------------------------------------------------------------
-- Releases
-----------------------------------------------------------------------------------------

/-- The message brings a route that the gateway wants recorded. -/
def TracksRoute (event : NewInboundEvent) : Prop :=
  event.recordLatestTelegramRoute = true ∧ event.deliveryRoute.isSome

/-- What the release of `chosen` leaves of a result: pending ones of its actor are released
or superseded.
-/
def DeferredResultRow.afterRelease (chosen : DeferredResultRow) (now : Timestamp)
    (row : DeferredResultRow)
    : DeferredResultRow :=
  if row.actorId = chosen.actorId ∧ row.state = .pending then
    if row.outboxId = chosen.outboxId then
      { row with state := .released, releasedAt := some now }
    else
      { row with state := .superseded }
  else
    row

theorem DeferredResultRow.afterRelease_outboxId (chosen row : DeferredResultRow)
    (now : Timestamp)
    : (chosen.afterRelease now row).outboxId = row.outboxId := by
  unfold DeferredResultRow.afterRelease
  split
  · split <;> rfl
  · rfl

/-- The result is the newest pending one of its actor. -/
structure Newest (s : Store) (chosen : DeferredResultRow) : Prop where
  stored : chosen ∈ s.deferredWebhookResults
  pending : chosen.state = .pending
  greatest : ∀ row ∈ s.deferredWebhookResults, row.actorId = chosen.actorId →
    row.state = .pending → row.eventSequence ≤ chosen.eventSequence

/-- Every deferred result is stored in the outbox. -/
def DeferredStored (s : Store) : Prop :=
  ∀ row ∈ s.deferredWebhookResults, ∃ entry ∈ s.outbox, entry.id = row.outboxId

/-- The results after the release of one. -/
structure Releases (chosen : DeferredResultRow) (now : Timestamp) (s s' : Store) : Prop where
  newest : Newest s chosen
  forward : ∀ row ∈ s.deferredWebhookResults,
    chosen.afterRelease now row ∈ s'.deferredWebhookResults
  backward : ∀ row' ∈ s'.deferredWebhookResults, ∃ row ∈ s.deferredWebhookResults,
    row' = chosen.afterRelease now row

/-- No result of the actor waits for a route. -/
def NonePending (s : Store) (actorId : ActorId) : Prop :=
  ∀ row ∈ s.deferredWebhookResults, row.actorId = actorId → row.state ≠ .pending

theorem newestDeferred_eq_none (stored : DeferredStored s) {actorId : ActorId}
    (none : newestDeferred s actorId = none)
    : NonePending s actorId := by
  intro row mem own pending
  obtain ⟨entry, entryStored, same⟩ := stored row mem
  have waiting : ∃ found, s.deferredWebhookResults.first?
      (fun row => row.actorId = actorId ∧ row.state = .pending
        ∧ ∃ entry ∈ s.outbox, entry.id = row.outboxId)
      (fun row => OrderDual.toDual (toLex (row.eventSequence, row.outboxId))) = some found :=
    Table.first?_isSome mem ⟨own, pending, entry, entryStored, same⟩
  obtain ⟨found, isFirst⟩ := waiting
  obtain ⟨-, -, -, entry', entryStored', same'⟩ := Table.mem_of_first? isFirst
  have entryFound : s.outbox.find? (·.id = found.outboxId) = some entry' :=
    Table.find?_eq_some_of_unique entryStored' same'
      (fun other known same => Table.eq_of_clash known entryStored'
        (Or.inl (same.trans same'.symm)))
  simp only [newestDeferred, isFirst, bind, Option.bind, entryFound, pure] at none
  cases none

theorem newestDeferred_eq_some (stored : DeferredStored s) {actorId : ActorId}
    {chosen : DeferredResultRow} {entry : OutboxRow}
    (found : newestDeferred s actorId = some (chosen, entry))
    : Newest s chosen ∧ chosen.actorId = actorId := by
  simp only [newestDeferred, bind, Option.bind_eq_some_iff] at found
  obtain ⟨row, isFirst, entry', -, result⟩ := found
  cases result
  obtain ⟨mem, own, pending, -⟩ := Table.mem_of_first? isFirst
  refine ⟨⟨mem, pending, fun other known same waits => ?_⟩, own⟩
  have behind := Table.first?_le isFirst known
    ⟨same.trans own, waits, stored other known⟩
  have ordered : toLex (other.eventSequence, other.outboxId)
      ≤ toLex (chosen.eventSequence, chosen.outboxId) := behind
  rcases Prod.Lex.le_iff.mp ordered with less | ⟨equal, -⟩
  · exact Nat.le_of_lt less
  · exact Nat.le_of_eq equal

/-- Recording a route releases the newest pending result of the actor, if there is one. -/
theorem recordRoute_releases (stored : DeferredStored s) {event : NewInboundEvent}
    {actorId : ActorId} {sequence : Nat} {now : Timestamp} {ids : FreshIds}
    (recorded : recordRoute event actorId sequence now ids s = .ok s')
    : (s'.deferredWebhookResults = s.deferredWebhookResults
        ∧ (TracksRoute event → NonePending s actorId))
      ∨ (TracksRoute event
        ∧ ∃ chosen, chosen.actorId = actorId ∧ Releases chosen now s s') := by
  unfold recordRoute at recorded
  split at recorded
  · rename_i route tracks hasRoute
    have tracksRoute : TracksRoute event := ⟨tracks, by simp [hasRoute]⟩
    simp only [recordLatestRouteAndReleaseDeferred, bind_eq_ok] at recorded
    obtain ⟨routes, -, rest⟩ := recorded
    split at rest
    · rename_i none
      cases rest
      exact Or.inl ⟨rfl, fun _ => newestDeferred_eq_none stored none⟩
    · rename_i chosen entry found
      simp only [bind_eq_ok] at rest
      obtain ⟨_, projected, result⟩ := rest
      obtain ⟨_, rfl⟩ := projectOutboxToGateway_ok projected
      cases result
      obtain ⟨newest, own⟩ := newestDeferred_eq_some stored found
      have image : ∀ row : DeferredResultRow, row ∈ s.deferredWebhookResults →
          (let middle := if row.actorId = actorId ∧ row.state = .pending
              ∧ row.outboxId ≠ chosen.outboxId then { row with state := .superseded } else row
           if middle.outboxId = chosen.outboxId ∧ middle.state = .pending then
             { middle with state := .released, releasedAt := some now } else middle)
            = chosen.afterRelease now row := by
        intro row mem
        unfold DeferredResultRow.afterRelease
        by_cases same : row.outboxId = chosen.outboxId
        · have : row = chosen := Table.eq_of_clash mem newest.stored same
          subst this
          simp [newest.pending]
        · by_cases waits : row.actorId = actorId ∧ row.state = .pending <;>
            simp [same, waits, own]
      refine Or.inr ⟨tracksRoute, chosen, own, newest, ?_, ?_⟩
      · intro row mem
        rw [← image row mem]
        exact Table.updateWhere_mem (Table.updateWhere_mem mem)
      · intro row' mem
        obtain ⟨middle, middleMem, rfl⟩ := Table.mem_updateWhere.mp mem
        obtain ⟨row, old, rfl⟩ := Table.mem_updateWhere.mp middleMem
        exact ⟨row, old, image row old⟩
  · rename_i other
    cases recorded
    refine Or.inl ⟨rfl, fun tracks => ?_⟩
    obtain ⟨route, hasRoute⟩ := Option.isSome_iff_exists.mp tracks.2
    exact absurd hasRoute (other route tracks.1)

theorem recordRoute_outbox {event : NewInboundEvent} {actorId : ActorId} {sequence : Nat}
    {now : Timestamp} {ids : FreshIds}
    (recorded : recordRoute event actorId sequence now ids s = .ok s')
    : s'.outbox = s.outbox := by
  unfold recordRoute at recorded
  split at recorded
  · simp only [recordLatestRouteAndReleaseDeferred, bind_eq_ok] at recorded
    obtain ⟨_, -, rest⟩ := recorded
    split at rest
    · cases rest
      rfl
    · simp only [bind_eq_ok] at rest
      obtain ⟨_, projected, result⟩ := rest
      obtain ⟨_, rfl⟩ := projectOutboxToGateway_ok projected
      cases result
      rfl
  · cases recorded
    rfl

-----------------------------------------------------------------------------------------
-- Deferrals
-----------------------------------------------------------------------------------------

/-- The deferred results of the outbox ids, by induction on them. -/
theorem deferResults_rows {actorId : ActorId} {sequence : Nat} {outboxIds : List OutboxId}
    (deferred : deferResults actorId sequence outboxIds s = .ok s')
    : (∀ row ∈ s.deferredWebhookResults, row ∈ s'.deferredWebhookResults)
      ∧ ∀ row ∈ s'.deferredWebhookResults, row ∈ s.deferredWebhookResults
        ∨ (row.state = .pending ∧ row.actorId = actorId ∧ row.eventSequence = sequence
          ∧ row.outboxId ∈ outboxIds) := by
  induction outboxIds generalizing s with
  | nil =>
      cases deferred
      exact ⟨fun _ mem => mem, fun _ mem => Or.inl mem⟩
  | cons outboxId rest ih =>
      simp only [deferResults, bind_eq_ok, execute_eq_ok] at deferred
      obtain ⟨table, inserted, others⟩ := deferred
      obtain ⟨kept, origin⟩ := ih others
      constructor
      · exact fun row mem => kept row (Table.mem_insertUnless_of_mem inserted mem)
      · intro row mem
        rcases origin row mem with middle | ⟨pending, own, counted, listed⟩
        · rcases Table.mem_insertUnless inserted middle with old | rfl
          · exact Or.inl old
          · exact Or.inr ⟨rfl, rfl, rfl, List.mem_cons_self⟩
        · exact Or.inr ⟨pending, own, counted, List.mem_cons_of_mem _ listed⟩

/-- Bundles leave the outbox and the deferred results alone, by induction on the plans. -/
theorem insertBundles_leavesDeferred {terminal : TerminalState} {now : Timestamp}
    {outboxIds : List OutboxId} {plans : List BundlePlan}
    (inserted : insertBundles terminal now outboxIds plans s = .ok s')
    : s'.outbox = s.outbox ∧ s'.deferredWebhookResults = s.deferredWebhookResults := by
  induction plans generalizing s with
  | nil =>
      cases inserted
      exact ⟨rfl, rfl⟩
  | cons plan rest ih =>
      simp only [insertBundles, insertBundle, bind_eq_ok] at inserted
      obtain ⟨_, ⟨_, _, _, delivered, _, _, stored⟩, others⟩ := inserted
      cases stored
      obtain ⟨_, rfl, -⟩ := insertDeliveries_ok delivered
      obtain ⟨sameOutbox, sameDeferred⟩ := ih others
      exact ⟨sameOutbox, sameDeferred⟩

/-- The end of a run adds pending results under its actor and event sequence only, and each
is stored in the outbox.
-/
theorem createTerminalBundles_defers {context : TerminalBundleContext}
    {requestIds : List RequestId} {intents : List NewOutboxIntent}
    {requested terminal : TerminalState} {now : Timestamp} {ids : FreshIds}
    (created
      : createTerminalBundles context requestIds intents requested now ids s
        = .ok (terminal, s'))
    : (∀ row ∈ s.outbox, row ∈ s'.outbox)
      ∧ (∀ row ∈ s.deferredWebhookResults, row ∈ s'.deferredWebhookResults)
      ∧ ∀ row ∈ s'.deferredWebhookResults, row ∈ s.deferredWebhookResults
        ∨ (row.state = .pending
          ∧ deferredAs s context = some (row.actorId, row.eventSequence)
          ∧ ∃ entry ∈ s'.outbox, entry.id = row.outboxId) := by
  simp only [createTerminalBundles, bind_eq_ok] at created
  obtain ⟨_, -, ⟨effective, chosen⟩, -, plans, -, ⟨outboxIds, m⟩, outboxOk, routed,
    routedOk, final, bundles, result⟩ := created
  cases result
  obtain ⟨⟨outbox, rfl, grows⟩, stored⟩ := insertOutboxes_ok outboxOk
  obtain ⟨sameOutbox, sameDeferred⟩ := insertBundles_leavesDeferred bundles
  rw [sameOutbox, sameDeferred]
  unfold routeIntents at routedOk
  split at routedOk
  · obtain ⟨_, rfl⟩ := projectIntents_ok routedOk
    exact ⟨grows, fun _ mem => mem, fun _ mem => Or.inl mem⟩
  · rename_i noRoute
    split at routedOk
    · rename_i webhook
      split at routedOk
      · cases routedOk
      · rename_i sequence counted
        obtain ⟨kept, origin⟩ := deferResults_rows routedOk
        obtain ⟨_, rfl⟩ := deferResults_ok routedOk
        refine ⟨grows, kept, fun row mem => (origin row mem).imp_right fun new => ?_⟩
        obtain ⟨pending, own, counts, listed⟩ := new
        refine ⟨pending, ?_, ?_⟩
        · have sameSequence : sourceEventSequence s context.runId = some sequence := counted
          simp only [deferredAs, noRoute, webhook, sameSequence, own, counts, and_self, if_true,
            Option.map_some]
        · obtain ⟨position, inside, atPosition⟩ := List.mem_iff_getElem.mp listed
          obtain ⟨entry, entryStored, same, -⟩ :=
            stored.get (by rw [stored.length_eq]; exact inside) inside
          exact ⟨entry, entryStored, same.trans atPosition⟩
    · cases routedOk
      exact ⟨grows, fun _ mem => mem, fun _ mem => Or.inl mem⟩

-----------------------------------------------------------------------------------------
-- Steps
-----------------------------------------------------------------------------------------

/-- What a committed call does to the deferred results. -/
inductive DeferralStep (call : Call) (s s' : Store) : Prop
  | same (same : s'.deferredWebhookResults = s.deferredWebhookResults)
  | releases {event : NewInboundEvent} {now : Timestamp} {ids : FreshIds}
      {chosen : DeferredResultRow} (isCall : call = .ingest event now ids)
      (tracks : TracksRoute event)
      (authorized
        : authorizedActor s event.identityProvider event.identitySubject = some chosen.actorId)
      (releases : Releases chosen now s s')
  | defers (kept : ∀ row ∈ s.deferredWebhookResults, row ∈ s'.deferredWebhookResults)
      (origin
        : ∀ row ∈ s'.deferredWebhookResults, row ∈ s.deferredWebhookResults
          ∨ (row.state = .pending ∧ call.defers s = some (row.actorId, row.eventSequence)))

theorem LeavesResults.deferredStored (leaves : LeavesResults s s') (stored : DeferredStored s)
    : DeferredStored s' := by
  unfold DeferredStored
  rw [leaves.deferredWebhookResults, leaves.outbox]
  exact stored

/-- The chosen result among equal tables. -/
theorem Releases.of_same {m : Store} {chosen : DeferredResultRow} {now : Timestamp}
    (releases : Releases chosen now m s')
    (same : m.deferredWebhookResults = s.deferredWebhookResults)
    : Releases chosen now s s' where
  newest := ⟨same ▸ releases.newest.stored, releases.newest.pending,
    same ▸ releases.newest.greatest⟩
  forward := same ▸ releases.forward
  backward := same ▸ releases.backward

theorem Releases.deferredStored {chosen : DeferredResultRow} {now : Timestamp}
    (releases : Releases chosen now s s') (sameOutbox : s'.outbox = s.outbox)
    (stored : DeferredStored s)
    : DeferredStored s' := by
  intro row' mem
  obtain ⟨row, old, rfl⟩ := releases.backward row' mem
  rw [sameOutbox, chosen.afterRelease_outboxId]
  exact stored row old

/-- Every committed call keeps the deferred results stored, and changes them in one of three
ways.
-/
theorem perform_deferralStep {call : Call} {answer : Answer} (stored : DeferredStored s)
    (performed : call.perform s = .ok (answer, s'))
    : DeferredStored s' ∧ DeferralStep call s s' := by
  cases perform_resultStep performed with
  | leaves leaves => exact ⟨leaves.deferredStored stored, .same leaves.deferredWebhookResults⟩
  | @recordsRoute event now ids actorId sequence m isCall authorized before recorded =>
      have storedBefore := before.deferredStored stored
      have sameOutbox : s'.outbox = m.outbox := recordRoute_outbox recorded
      rcases recordRoute_releases storedBefore recorded with
        ⟨same, -⟩ | ⟨tracks, chosen, rfl, releases⟩
      · refine ⟨?_, .same (same.trans before.deferredWebhookResults)⟩
        unfold DeferredStored
        rw [same, sameOutbox]
        exact storedBefore
      · exact ⟨releases.deferredStored sameOutbox storedBefore,
          .releases isCall tracks authorized (releases.of_same before.deferredWebhookResults)⟩
  | ends before created after defers =>
      obtain ⟨grows, kept, origin⟩ := createTerminalBundles_defers created
      rw [before.deferredWebhookResults] at kept origin
      refine ⟨after.deferredStored fun row mem => ?_, .defers ?_ ?_⟩
      · rcases origin row mem with old | ⟨-, -, new⟩
        · obtain ⟨entry, entryStored, same⟩ := stored row old
          exact ⟨entry, grows entry (before.outbox ▸ entryStored), same⟩
        · exact new
      · rw [after.deferredWebhookResults]
        exact kept
      · intro row mem
        rw [after.deferredWebhookResults] at mem
        refine (origin row mem).imp_right fun new => ⟨new.1, ?_⟩
        rw [defers]
        exact new.2.1

theorem reachable_deferredStored {w : World} (reached : runtime.Reachable w)
    : DeferredStored w.store := by
  induction reached with
  | initial start =>
      obtain ⟨_, _, rfl⟩ := start
      exact fun row mem => absurd mem (Table.not_mem_empty row)
  | @step w call w' before taken ih =>
      obtain ⟨-, rfl⟩ := taken
      rcases w.after_cases call with same | ⟨answer, s, performed, committed⟩
      · rwa [same]
      · rw [committed, World.commit_store]
        exact (perform_deferralStep ih performed).1

-----------------------------------------------------------------------------------------
-- History of releases
-----------------------------------------------------------------------------------------

/-- The results that a call releases. -/
def newlyReleased (w : World) (_call : Call) (w' : World) : List DeferredResultRow :=
  w'.store.deferredWebhookResults.select
    (fun row => row.state = .released ∧ row ∉ w.store.deferredWebhookResults)

/-- What a call releases: an accepted message with a route releases the newest pending result
of its actor and supersedes the others, and nothing else releases any.
-/
structure ReleasesNewest (w : World) (call : Call) : Prop where
  kept : ∀ row ∈ w.store.deferredWebhookResults, row.state = .released →
    row ∈ (w.after call).store.deferredWebhookResults
  single : (newlyReleased w call (w.after call)).length ≤ 1
  accepted : ∀ event now ids eventId workItemId sequence s',
    call = .ingest event now ids →
    ingest event now ids w.store = .ok (.accepted eventId workItemId sequence, s') →
    TracksRoute event →
    ∃ actorId, authorizedActor w.store event.identityProvider event.identitySubject = some actorId
      ∧ ((NonePending w.store actorId
          ∧ s'.deferredWebhookResults = w.store.deferredWebhookResults)
        ∨ ∃ chosen, chosen.actorId = actorId ∧ Releases chosen now w.store s')
  only : ∀ row ∈ newlyReleased w call (w.after call), ∃ event now ids,
    call = .ingest event now ids ∧ TracksRoute event
      ∧ authorizedActor w.store event.identityProvider event.identitySubject = some row.actorId

/-- A result deferred by the call belongs to an event after those of all released results of
its actor.
-/
def DefersInOrder (w : World) (call : Call) : Prop :=
  ∀ deferral ∈ call.defers w.store, ∀ row ∈ w.store.deferredWebhookResults,
    row.actorId = deferral.1 → row.state = .released → row.eventSequence < deferral.2

instance (w : World) : DecidablePred (DefersInOrder w) :=
  fun _ => inferInstanceAs (Decidable (∀ deferral ∈ _, ∀ row ∈ _, _ → _ → _))

/-- Results of one actor come in the order of their events. -/
def InEventOrder (log : List DeferredResultRow) : Prop :=
  log.Pairwise (fun earlier later =>
    earlier.actorId = later.actorId → earlier.eventSequence < later.eventSequence)

/-- A released result was the pending one that was chosen. -/
theorem Releases.newlyReleased_eq {chosen : DeferredResultRow} {now : Timestamp}
    (releases : Releases chosen now s s') {row : DeferredResultRow}
    (mem : row ∈ s'.deferredWebhookResults) (released : row.state = .released)
    (new : row ∉ s.deferredWebhookResults)
    : row = { chosen with state := .released, releasedAt := some now } := by
  obtain ⟨old, oldMem, rfl⟩ := releases.backward row mem
  unfold DeferredResultRow.afterRelease at released new ⊢
  split at released
  · split at released
    · rename_i waits same
      have : old = chosen := Table.eq_of_clash oldMem releases.newest.stored same
      subst this
      simp [waits.2]
    · cases released
  · rename_i others
    rw [if_neg others] at new
    exact absurd oldMem new

/-- A released result stays released. -/
theorem DeferralStep.kept {call : Call} (step : DeferralStep call s s')
    {row : DeferredResultRow} (mem : row ∈ s.deferredWebhookResults)
    (released : row.state = .released)
    : row ∈ s'.deferredWebhookResults := by
  cases step with
  | same same => rwa [same]
  | @releases event now ids chosen isCall tracks authorized releases =>
      have stays : chosen.afterRelease now row = row := by
        unfold DeferredResultRow.afterRelease
        rw [if_neg (by simp [released])]
      rw [← stays]
      exact releases.forward row mem
  | defers kept origin => exact kept row mem

/-- A result is only released by the message that chooses it. -/
theorem DeferralStep.released {call : Call} (step : DeferralStep call s s')
    {row : DeferredResultRow} (mem : row ∈ s'.deferredWebhookResults)
    (released : row.state = .released) (new : row ∉ s.deferredWebhookResults)
    : ∃ event now ids chosen, call = .ingest event now ids ∧ TracksRoute event
      ∧ authorizedActor s event.identityProvider event.identitySubject = some chosen.actorId
      ∧ Releases chosen now s s'
      ∧ row = { chosen with state := .released, releasedAt := some now } := by
  cases step with
  | same same => exact absurd (same ▸ mem) new
  | @releases event now ids chosen isCall tracks authorized releases =>
      exact ⟨event, now, ids, chosen, isCall, tracks, authorized, releases,
        releases.newlyReleased_eq mem released new⟩
  | defers kept origin =>
      rcases origin row mem with old | ⟨pending, -⟩
      · exact absurd old new
      · exact absurd (released.symm.trans pending) nofun

/-- The step a call takes in a reachable world. -/
theorem after_deferralStep {w : World} (reached : runtime.Reachable w) (call : Call)
    : DeferralStep call w.store (w.after call).store := by
  rcases w.after_cases call with same | ⟨answer, s, performed, committed⟩
  · rw [same]
    exact .same rfl
  · rw [committed, World.commit_store]
    exact (perform_deferralStep (reachable_deferredStored reached) performed).2

theorem mem_newlyReleased {w w' : World} {call : Call} {row : DeferredResultRow}
    : row ∈ newlyReleased w call w' ↔ row ∈ w'.store.deferredWebhookResults
      ∧ row.state = .released ∧ row ∉ w.store.deferredWebhookResults :=
  Table.mem_select

/-- Results released by one call have distinct outbox ids. -/
theorem newlyReleased_nodup (w : World) (call : Call) (w' : World)
    : ((newlyReleased w call w').map (·.outboxId)).Nodup := by
  refine List.pairwise_map.mpr ?_
  exact (w'.store.deferredWebhookResults.distinct.filter _).imp fun apart same => apart same

theorem newlyReleased_length {w : World} (reached : runtime.Reachable w) (call : Call)
    : (newlyReleased w call (w.after call)).length ≤ 1 := by
  have apart := newlyReleased_nodup w call (w.after call)
  have step := after_deferralStep reached call
  have alike : ∀ a ∈ newlyReleased w call (w.after call),
      ∀ b ∈ newlyReleased w call (w.after call), a.outboxId = b.outboxId := by
    intro a aMem b bMem
    obtain ⟨aStored, aReleased, aNew⟩ := mem_newlyReleased.mp aMem
    obtain ⟨bStored, bReleased, bNew⟩ := mem_newlyReleased.mp bMem
    obtain ⟨_, now, _, chosen, isCall, -, -, releases, rfl⟩ :=
      step.released aStored aReleased aNew
    have same := releases.newlyReleased_eq bStored bReleased bNew
    rw [same]
  generalize newlyReleased w call (w.after call) = found at apart alike
  match found with
  | [] => simp
  | [_] => simp
  | a :: b :: _ =>
      have same := alike a List.mem_cons_self b (List.mem_cons_of_mem _ List.mem_cons_self)
      simp [same] at apart

theorem releasesNewest {w : World} (reached : runtime.Reachable w) (call : Call)
    : ReleasesNewest w call where
  kept _ mem released := (after_deferralStep reached call).kept mem released
  single := newlyReleased_length reached call
  accepted := by
    intro event now ids eventId workItemId sequence s' _ accepted tracks
    rcases ingest_records accepted with ⟨-, other⟩ | ⟨actorId, number, m, authorized, before, recorded⟩
    · exact absurd rfl (other eventId workItemId sequence)
    · refine ⟨actorId, authorized, ?_⟩
      have stored := before.deferredStored (reachable_deferredStored reached)
      rcases recordRoute_releases stored recorded with ⟨same, none⟩ | ⟨-, chosen, own, releases⟩
      · left
        have nonePending := none tracks
        unfold NonePending at nonePending
        rw [before.deferredWebhookResults] at nonePending same
        exact ⟨nonePending, same⟩
      · exact Or.inr ⟨chosen, own, releases.of_same before.deferredWebhookResults⟩
  only := by
    intro row mem
    obtain ⟨stored, released, new⟩ := mem_newlyReleased.mp mem
    obtain ⟨event, now, ids, chosen, isCall, tracks, authorized, -, rfl⟩ :=
      (after_deferralStep reached call).released stored released new
    exact ⟨event, now, ids, isCall, tracks, authorized⟩

-----------------------------------------------------------------------------------------
-- Order of releases
-----------------------------------------------------------------------------------------

/-- The logged results are stored as released, each once. -/
structure Logged (s : Store) (log : List DeferredResultRow) : Prop where
  stored : ∀ row ∈ log, row ∈ s.deferredWebhookResults ∧ row.state = .released
  nodup : (log.map (·.outboxId)).Nodup

/-- Every pending result comes after all released ones of its actor. -/
def PendingAfterReleased (s : Store) : Prop :=
  ∀ released ∈ s.deferredWebhookResults, released.state = .released →
    ∀ row ∈ s.deferredWebhookResults, row.state = .pending → row.actorId = released.actorId →
      released.eventSequence < row.eventSequence

/-- The log of a history, by induction on it. -/
theorem recorded_logged {state : World × List DeferredResultRow}
    (recorded : (runtime.recording newlyReleased).Reachable state)
    : Logged state.1.store state.2 := by
  induction recorded with
  | initial start =>
      rw [start.2]
      exact ⟨fun _ mem => absurd mem List.not_mem_nil, List.nodup_nil⟩
  | @step before call after reached taken logged =>
      obtain ⟨⟨-, moved⟩, grown⟩ := taken
      rw [grown, moved]
      have step := after_deferralStep reached.of_recording call
      have kept : ∀ row ∈ before.2, row ∈ (before.1.after call).store.deferredWebhookResults := by
        intro row mem
        obtain ⟨stored, released⟩ := logged.stored row mem
        exact step.kept stored released
      constructor
      · intro row mem
        rcases List.mem_append.mp mem with old | new
        · exact ⟨kept row old, (logged.stored row old).2⟩
        · obtain ⟨stored, released, -⟩ := mem_newlyReleased.mp new
          exact ⟨stored, released⟩
      · rw [List.map_append]
        refine logged.nodup.append (newlyReleased_nodup _ _ _) ?_
        intro outboxId oldId newId
        obtain ⟨old, oldMem, rfl⟩ := List.mem_map.mp oldId
        obtain ⟨new, newMem, same⟩ := List.mem_map.mp newId
        obtain ⟨stored, -, fresh⟩ := mem_newlyReleased.mp newMem
        have : new = old := Table.eq_of_clash stored (kept old oldMem) same
        subst this
        exact fresh (logged.stored new oldMem).1

/-- After the release of the newest result of an actor no other one of it is pending. -/
theorem Releases.pending_eq {chosen : DeferredResultRow} {now : Timestamp}
    (releases : Releases chosen now s s') {row : DeferredResultRow}
    (mem : row ∈ s'.deferredWebhookResults) (pending : row.state = .pending)
    : row ∈ s.deferredWebhookResults ∧ row.actorId ≠ chosen.actorId := by
  obtain ⟨old, oldMem, rfl⟩ := releases.backward row mem
  unfold DeferredResultRow.afterRelease at pending ⊢
  split at pending
  · split at pending <;> cases pending
  · rename_i others
    rw [if_neg others]
    exact ⟨oldMem, fun own => others ⟨own, pending⟩⟩

/-- Deferring in order keeps the pending results after the released ones. -/
theorem DeferralStep.pendingAfterReleased {w : World} {call : Call}
    (step : DeferralStep call w.store s') (ordered : DefersInOrder w call)
    (after : PendingAfterReleased w.store)
    : PendingAfterReleased s' := by
  intro released mem isReleased row rowMem pending own
  by_cases old : released ∈ w.store.deferredWebhookResults
  · cases step with
    | same same => exact after released old isReleased row (same ▸ rowMem) pending own
    | releases isCall tracks authorized releases =>
        obtain ⟨rowOld, -⟩ := releases.pending_eq rowMem pending
        exact after released old isReleased row rowOld pending own
    | defers kept origin =>
        rcases origin row rowMem with rowOld | ⟨-, deferral⟩
        · exact after released old isReleased row rowOld pending own
        · exact ordered _ deferral released old own.symm isReleased
  · obtain ⟨_, _, _, chosen, -, -, -, releases, rfl⟩ := step.released mem isReleased old
    exact absurd own (releases.pending_eq rowMem pending).2

/-- Results released in one call come after those logged before. -/
theorem inEventOrder_append {w : World} (reached : runtime.Reachable w) (call : Call)
    {log : List DeferredResultRow} (logged : Logged w.store log)
    (after : PendingAfterReleased w.store) (ordered : InEventOrder log)
    : InEventOrder (log ++ newlyReleased w call (w.after call)) := by
  have single := newlyReleased_length reached call
  refine List.pairwise_append.mpr ⟨ordered, ?_, ?_⟩
  · generalize newlyReleased w call (w.after call) = new at single
    match new with
    | [] => exact .nil
    | [row] => exact List.pairwise_singleton _ row
  · intro earlier oldMem later newMem own
    obtain ⟨stored, released, fresh⟩ := mem_newlyReleased.mp newMem
    obtain ⟨_, _, _, chosen, -, -, -, releases, rfl⟩ :=
      (after_deferralStep reached call).released stored released fresh
    obtain ⟨earlierStored, earlierReleased⟩ := logged.stored earlier oldMem
    exact after earlier earlierStored earlierReleased chosen releases.newest.stored
      releases.newest.pending own.symm

/-- When all deferrals come in order, so do the releases, by induction on the history. -/
theorem restricted_inEventOrder {state : World × List DeferredResultRow}
    (recorded : ((runtime.restrict DefersInOrder).recording newlyReleased).Reachable state)
    : PendingAfterReleased state.1.store ∧ InEventOrder state.2 := by
  induction recorded with
  | initial start =>
      obtain ⟨⟨_, _, initial⟩, none⟩ := start
      rw [none, initial]
      exact ⟨fun row mem => absurd mem (Table.not_mem_empty row), .nil⟩
  | @step before call after before' taken ih =>
      obtain ⟨⟨allowed, -, moved⟩, grown⟩ := taken
      obtain ⟨pendingAfter, ordered⟩ := ih
      have recorded := before'.recording_of_restrict
      have reached := recorded.of_recording
      rw [grown, moved]
      exact ⟨(after_deferralStep reached call).pendingAfterReleased allowed pendingAfter,
        inEventOrder_append reached call (recorded_logged recorded) pendingAfter ordered⟩

/-- Over every history: a result is released at most once; an accepted message with a route
releases the newest pending result of its actor, supersedes the others, and nothing else
releases any; and when every result is deferred after the released ones of its actor, results
are released in the order of their events.
-/
theorem deferred_results_released_in_order {w : World} {log : List DeferredResultRow}
    (recorded : (runtime.recording newlyReleased).Reachable (w, log))
    : (log.map (·.outboxId)).Nodup
      ∧ (∀ call, ReleasesNewest w call)
      ∧ (((runtime.restrict DefersInOrder).recording newlyReleased).Reachable (w, log) →
        InEventOrder log) :=
  ⟨(recorded_logged recorded).nodup, releasesNewest recorded.of_recording,
    fun restricted => (restricted_inEventOrder restricted).2⟩

-----------------------------------------------------------------------------------------
-- An overtaken webhook
-----------------------------------------------------------------------------------------

namespace LateWebhook

def lease : ActorLease := ⟨localActor, "daemon", 1, 100000⟩

theorem gateway_named : isBlank "telegram" = false := by
  decide

theorem address_named : isBlank "42" = false := by
  decide

theorem text_limited : 0 < 4096 := Nat.zero_lt_succ _

theorem caption_limited : 0 < 1024 := Nat.zero_lt_succ _

def chat : DeliveryRoute :=
  ⟨"telegram", "42", none, 4096, 1024, gateway_named, address_named, text_limited,
    caption_limited⟩

/-- An actor with a chat. -/
def start : World :=
  World.initial World.single.store.actors
    ((∅ : Table IdentityRow).insertOrIgnore ⟨"telegram", "42", localActor⟩)

def payload : StoredJson InboundPayload :=
  .decoded (.webhook (some "ci") (some "2026-07-15T12:00:00.000Z") (some "\"deployed\""))

def hook (key : Nat) : NewWebhookEvent := ⟨"deploys", localActor, ⟨.automatic, key⟩, payload⟩

def message (text : String) : NewInboundEvent where
  gateway := "telegram"
  externalId := .remote text
  identityProvider := "telegram"
  identitySubject := "42"
  kind := .userMessage
  audience := .actorPrivate
  deliveryRoute := some chat
  executionPolicy := .actorTools
  recordLatestTelegramRoute := true
  payloadJson := .decoded (.text (some text))

/-- The run of the webhook that was accepted as `sequence`. -/
def webhookRun (runId sequence : Nat) : AttachedRun where
  runId := ⟨runId⟩
  workItemId := ⟨sequence⟩
  lease := lease
  audience := .actorPrivate
  sourceEventIds := [⟨sequence⟩]
  requestIds := []
  messages := (eventMessage payload).toOption.toList
  observedSequence := sequence
  deliveryRoute := none
  executionPolicy := .skillsOnly
  ingressSource := some "deploys"

/-- The run of the first chat message. -/
def chatRun : AttachedRun where
  runId := ⟨10⟩
  workItemId := ⟨9⟩
  lease := lease
  audience := .actorPrivate
  sourceEventIds := [⟨9⟩]
  requestIds := []
  messages := [.user (textParts "hi")]
  observedSequence := 3
  deliveryRoute := some chat
  executionPolicy := .actorTools
  ingressSource := none

def answer (runId : Nat) : NewOutboxIntent :=
  ⟨⟨runId⟩, .final ⟨runId⟩, "interactive_final", .actorPrivate, .text "done"⟩

/-- The first webhook backs off, the second is answered, and a message releases its result. -/
def overtaking : List Call :=
  [.ingestWebhook (hook 1) 10 (.numbered 1),
    .ingestWebhook (hook 2) 10 (.numbered 2),
    .acquireReadyActor "daemon" 20 100000,
    .attachNextRun lease 8 30 (.numbered 4),
    .recordFailure ⟨lease, ⟨1⟩, ⟨4⟩⟩ "timeout" .none 40 (.numbered 5),
    .attachNextRun lease 8 50 (.numbered 6),
    .checkpointRun ⟨webhookRun 6 2, [⟨2⟩], [], (webhookRun 6 2).messages⟩ 60,
    .finalizeRun ⟨webhookRun 6 2, [⟨2⟩], [], [answer 6]⟩ 70 (.numbered 8),
    .ingest (message "hi") 80 (.numbered 9)]

/-- The message is answered, then the first webhook, and another message releases its result.
-/
def overtaken : List Call :=
  [.attachNextRun lease 8 90 (.numbered 10),
    .checkpointRun ⟨chatRun, [⟨9⟩], [], chatRun.messages⟩ 100,
    .finalizeRun ⟨chatRun, [⟨9⟩], [], [answer 10]⟩ 110 (.numbered 12),
    .attachNextRun lease 8 2000 (.numbered 13),
    .checkpointRun ⟨webhookRun 4 1, [⟨1⟩], [], (webhookRun 4 1).messages⟩ 2010,
    .finalizeRun ⟨webhookRun 4 1, [⟨1⟩], [], [answer 4]⟩ 2020 (.numbered 15),
    .ingest (message "again") 2030 (.numbered 16)]

theorem recorded_start {allowed : World → Call → Prop}
    : ((runtime.restrict allowed).recording newlyReleased).Reachable (start, []) :=
  .initial ⟨⟨_, _, rfl⟩, rfl⟩

theorem recorded_overtaking
    : ((runtime.restrict DefersInOrder).recording newlyReleased).Reachable
      (start.play overtaking, start.shown newlyReleased overtaking) :=
  recorded_play recorded_start (by decide +kernel) (by decide +kernel)

end LateWebhook

/-- One result is deferred and released. -/
theorem deferred_results_released_in_order_overtaking
    : InEventOrder (LateWebhook.start.shown newlyReleased LateWebhook.overtaking)
      ∧ (LateWebhook.start.shown newlyReleased LateWebhook.overtaking).map (·.eventSequence) = [2] :=
  have recorded := LateWebhook.recorded_overtaking
  ⟨(deferred_results_released_in_order recorded.recording_of_restrict).2.2 recorded,
    by decide +kernel⟩

/-- The result of the overtaken webhook is released after that of the later one. -/
theorem deferred_results_released_out_of_order
    : ∃ w log, (runtime.recording newlyReleased).Reachable (w, log) ∧ ¬InEventOrder log := by
  have recorded : ((runtime.restrict fun _ _ => True).recording newlyReleased).Reachable
      (LateWebhook.start.play (LateWebhook.overtaking ++ LateWebhook.overtaken),
        LateWebhook.start.shown newlyReleased (LateWebhook.overtaking ++ LateWebhook.overtaken)) :=
    recorded_play LateWebhook.recorded_start (by decide +kernel) (by decide +kernel)
  exact ⟨_, _, recorded.recording_of_restrict, by unfold InEventOrder; decide +kernel⟩

end Codrik.Runtime.Sqlite
