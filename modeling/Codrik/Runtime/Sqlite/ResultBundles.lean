import Codrik.Runtime.Sqlite.Results

/-! Results of local requests: a request leaves its active state together with a complete
bundle, and every stored bundle can be loaded.
-/

namespace Codrik.Runtime.Sqlite

open Codrik.Relational

variable {s s' : Store}

-----------------------------------------------------------------------------------------
-- Loading a bundle
-----------------------------------------------------------------------------------------

/-- The rows of a bundle store these deliveries: their ordinals count up from zero, each is
addressed to the request, and the manifest is that of the deliveries.
-/
structure Delivers (s : Store) (bundle : BundleRow)
    (deliveries : List (DeliveryId × FinalPayload)) : Prop where
  count : bundle.deliveryCount = deliveries.length
  manifest : ∃ manifest, manifestFor deliveries = .ok manifest
    ∧ bundle.manifestSha256 = .of manifest
  member : ∀ row ∈ s.outboxDeliveries, row.bundleId = bundle.id →
    row.address = bundle.requestId
      ∧ ∃ outbox ∈ s.outbox, outbox.id = row.outboxId
        ∧ deliveries[row.ordinal]? = some (row.id, payloadFromOutbox outbox.payloadJson)
  complete : ∀ ordinal < deliveries.length, ∃ row ∈ s.outboxDeliveries,
    row.bundleId = bundle.id ∧ row.ordinal = ordinal

/-- The memberships of a bundle in the order they are read. -/
def deliveryRows (s : Store) (id : BundleId) : List OutboxDeliveryRow :=
  s.outboxDeliveries.selectOrdered (·.bundleId = id) (·.ordinal)

theorem Delivers.ordinals {bundle : BundleRow}
    {deliveries : List (DeliveryId × FinalPayload)} (delivers : Delivers s bundle deliveries)
    : (deliveryRows s bundle.id).map (·.ordinal) = List.range bundle.deliveryCount := by
  rw [delivers.count]
  apply Table.selectOrdered_count
  · intro a _ b _ ha hb same
    exact Or.inr (Or.inr ⟨ha.trans hb.symm, same⟩)
  · intro row stored here
    obtain ⟨-, outbox, -, -, found⟩ := delivers.member row stored here
    exact (List.getElem?_eq_some_iff.mp found).1
  · exact delivers.complete

/-- Rows that count up are read as the deliveries they store, by induction on the rows. -/
theorem readMemberships_rows {requestId : RequestId}
    {deliveries : List (DeliveryId × FinalPayload)} {rows : List OutboxDeliveryRow}
    {expected : Nat}
    (counted : rows.map (·.ordinal) = List.range' expected rows.length)
    (all : expected + rows.length = deliveries.length)
    (member : ∀ row ∈ rows, row.address = requestId
      ∧ ∃ outbox ∈ s.outbox, outbox.id = row.outboxId
        ∧ deliveries[row.ordinal]? = some (row.id, payloadFromOutbox outbox.payloadJson))
    : let members := rows.filterMap (fun delivery =>
        (s.outbox.find? (·.id = delivery.outboxId)).map (fun outbox =>
          ({ deliveryId := delivery.id, ordinal := delivery.ordinal,
             address := delivery.address, actorId := outbox.actorId,
             payloadJson := outbox.payloadJson } : MembershipRow)))
      members.length = rows.length
        ∧ readMemberships requestId expected members = .ok (deliveries.drop expected) := by
  induction rows generalizing expected with
  | nil =>
      refine ⟨rfl, ?_⟩
      rw [List.drop_of_length_le (by simp_all)]
      rfl
  | cons row rest ih =>
      simp only [List.map_cons, List.length_cons, List.range'_succ, List.cons.injEq] at counted
      obtain ⟨first, counted⟩ := counted
      obtain ⟨address, outbox, stored, sameId, found⟩ := member row List.mem_cons_self
      have found? : s.outbox.find? (·.id = row.outboxId) = some outbox :=
        Table.find?_eq_some_of_unique stored sameId
          (fun other known same => Table.eq_of_clash known stored
            (Or.inl (same.trans sameId.symm)))
      obtain ⟨length, read⟩ := ih counted (by simp only [List.length_cons] at all; omega)
        (fun other mem => member other (List.mem_cons_of_mem _ mem))
      rw [first] at found
      obtain ⟨inside, here⟩ := List.getElem?_eq_some_iff.mp found
      simp only [List.filterMap_cons, found?, Option.map_some, List.length_cons, length,
        true_and]
      rw [List.drop_eq_getElem_cons inside, here]
      simp only [readMemberships, first, address, require, if_true, read]
      rfl

/-- A bundle whose rows store its deliveries loads as these deliveries. -/
theorem Delivers.load {bundle : BundleRow} {deliveries : List (DeliveryId × FinalPayload)}
    (delivers : Delivers s bundle deliveries) (stored : bundle ∈ s.resultBundles)
    : ∃ manifest, manifestFor deliveries = .ok manifest ∧ loadBundle bundle.id s = .ok
        { id := bundle.id, requestId := bundle.requestId, state := bundle.state,
          manifest := manifest, deliveries := deliveries } := by
  obtain ⟨manifest, accepted, digest⟩ := delivers.manifest
  refine ⟨manifest, accepted, ?_⟩
  have found : s.resultBundles.find? (·.id = bundle.id) = some bundle :=
    Table.find?_eq_some_of_unique stored rfl
      (fun other known same => Table.eq_of_clash known stored (Or.inl same))
  have ordinals := delivers.ordinals
  have lengthEq : (deliveryRows s bundle.id).length = deliveries.length := by
    have := congrArg List.length ordinals
    simpa [delivers.count] using this
  have counted : (deliveryRows s bundle.id).map (·.ordinal)
      = List.range' 0 (deliveryRows s bundle.id).length := by
    rw [ordinals, List.range_eq_range', delivers.count, lengthEq]
  have all : 0 + (deliveryRows s bundle.id).length = deliveries.length := by
    rw [lengthEq, Nat.zero_add]
  obtain ⟨length, read⟩ := readMemberships_rows counted all (fun row mem => by
    obtain ⟨known, here⟩ := Table.mem_selectOrdered.mp mem
    exact delivers.member row known here)
  have within : deliveries.length ≤ maxBundleDeliveries := by
    unfold manifestFor at accepted
    split at accepted
    · cases accepted
    · rename_i bounds
      exact Nat.le_of_not_gt (fun more => bounds (Or.inr more))
  change (memberships s bundle.id).length = _ at length
  change readMemberships bundle.requestId 0 (memberships s bundle.id) = _ at read
  rw [List.drop_zero] at read
  simp only [loadBundle, loadBundleRow, found, length, lengthEq, delivers.count, within,
    require, and_self, if_true, read, accepted, digest, bind, Except.bind]

-----------------------------------------------------------------------------------------
-- Requests and their results
-----------------------------------------------------------------------------------------

/-- A request has ended exactly when it has a bundle, and that bundle is its own and complete.
-/
structure Settled (s : Store) : Prop where
  ended : ∀ request ∈ s.localRequests,
    request.state = .active ↔ request.resultBundleId = none
  result : ∀ request ∈ s.localRequests, ∀ id, request.resultBundleId = some id →
    ∃ bundle ∈ s.resultBundles, bundle.id = id ∧ bundle.requestId = request.requestId
      ∧ ∃ deliveries, Delivers s bundle deliveries
  owned : ∀ row ∈ s.outboxDeliveries, ∃ bundle ∈ s.resultBundles, bundle.id = row.bundleId

theorem Settled.initial (actors : Table ActorRow) (identities : Table IdentityRow)
    : Settled (Store.initial actors identities) where
  ended _ mem := absurd mem (Table.not_mem_empty _)
  result _ mem := absurd mem (Table.not_mem_empty _)
  owned _ mem := absurd mem (Table.not_mem_empty _)

/-- Deliveries of a bundle stay what they are while the outbox grows. -/
theorem Delivers.keep {bundle bundle' : BundleRow}
    {deliveries : List (DeliveryId × FinalPayload)} (delivers : Delivers s bundle deliveries)
    (same : SameContent bundle bundle') (outbox : ∀ row ∈ s.outbox, row ∈ s'.outbox)
    (memberships : ∀ row, row.bundleId = bundle.id →
      (row ∈ s'.outboxDeliveries ↔ row ∈ s.outboxDeliveries))
    : Delivers s' bundle' deliveries where
  count := same.deliveryCount.trans delivers.count
  manifest := by
    rw [same.manifestSha256]
    exact delivers.manifest
  member row mem here := by
    rw [same.id] at here
    obtain ⟨address, item, stored, rest⟩ :=
      delivers.member row ((memberships row here).mp mem) here
    exact ⟨address.trans same.requestId.symm, item, outbox item stored, rest⟩
  complete ordinal inside := by
    obtain ⟨row, mem, here, counted⟩ := delivers.complete ordinal inside
    exact ⟨row, (memberships row here).mpr mem, here.trans same.id.symm, counted⟩

theorem Settled.keep (settled : Settled s)
    (ends : KeepsEnds s.localRequests s'.localRequests)
    (outbox : ∀ row ∈ s.outbox, row ∈ s'.outbox)
    (outboxDeliveries : s'.outboxDeliveries = s.outboxDeliveries)
    (resultBundles : Redelivers s.resultBundles s'.resultBundles)
    : Settled s' where
  ended request' mem := by
    rcases ends request' mem with ⟨active, none⟩ | ⟨request, old, -, state, bundle⟩
    · simp only [active, none]
    · rw [state, bundle]
      exact settled.ended request old
  result request' mem id has := by
    rcases ends request' mem with ⟨-, none⟩ | ⟨request, old, same, -, bundle⟩
    · rw [none] at has
      cases has
    · obtain ⟨row, stored, rfl, own, deliveries, delivers⟩ :=
        settled.result request old id (bundle.symm.trans has)
      obtain ⟨row', stored', content⟩ := resultBundles.kept row stored
      exact ⟨row', stored', content.id, content.requestId.trans (own.trans same.symm),
        deliveries, delivers.keep content outbox (by simp [outboxDeliveries])⟩
  owned row mem := by
    obtain ⟨bundle, stored, same⟩ := settled.owned row (outboxDeliveries ▸ mem)
    obtain ⟨bundle', stored', content⟩ := resultBundles.kept bundle stored
    exact ⟨bundle', stored', content.id.trans same⟩

theorem Settled.leave (settled : Settled s) (leaves : LeavesResults s s') : Settled s' :=
  settled.keep leaves.localRequests (fun _ mem => leaves.outbox ▸ mem)
    leaves.outboxDeliveries leaves.resultBundles

-----------------------------------------------------------------------------------------
-- Terminal bundles
-----------------------------------------------------------------------------------------

/-- Every payload of the plan is stored under the outbox id at its position. -/
def Carries (s : Store) (plan : BundlePlan) (outboxIds : List OutboxId) : Prop :=
  ∀ (position : Nat) delivery, plan.deliveries[position]? = some delivery →
    ∃ id, outboxIds[position]? = some id
      ∧ ∃ payload, StoredAs s payload id ∧ delivery.2 = payloadFromOutbox payload

/-- Plans carry the payloads of the stored intents. -/
theorem Carries.of_intents {intents : List NewOutboxIntent} {ids : Nat → DeliveryId}
    {outboxIds : List OutboxId} {plan : BundlePlan}
    (stored : List.Forall₂ (fun intent id => StoredAs s intent.payload id) intents outboxIds)
    (planned : plan.deliveries = bundleDeliveries intents ids)
    : Carries s plan outboxIds := by
  intro position delivery found
  rw [planned, bundleDeliveries, List.getElem?_mapIdx, Option.map_eq_some_iff] at found
  obtain ⟨intent, here, rfl⟩ := found
  obtain ⟨inside, rfl⟩ := List.getElem?_eq_some_iff.mp here
  obtain ⟨sameLength, each⟩ := List.forall₂_iff_get.mp stored
  have inside' : position < outboxIds.length := sameLength ▸ inside
  exact ⟨outboxIds[position], List.getElem?_eq_getElem inside', _,
    each position inside inside', rfl⟩

/-- The rows of a new bundle store the deliveries of its plan. -/
theorem delivers_of_insertion {plan : BundlePlan} {outboxIds : List OutboxId}
    {bundle : BundleRow} {rows : Table OutboxDeliveryRow}
    (manifest : manifestFor plan.deliveries = .ok plan.manifest)
    (carries : Carries s plan outboxIds)
    (count : bundle.deliveryCount = plan.deliveries.length)
    (digest : bundle.manifestSha256 = .of plan.manifest) (id : bundle.id = plan.id)
    (requestId : bundle.requestId = plan.requestId)
    (fresh : ∀ row ∈ s.outboxDeliveries, row.bundleId ≠ plan.id)
    (inserted : ∀ row, row ∈ rows ↔ row ∈ s.outboxDeliveries
      ∨ ∃ position, ((plan.deliveries.map (·.1)).zip outboxIds)[position]?
          = some (row.id, row.outboxId)
        ∧ row.bundleId = plan.id ∧ row.ordinal = 0 + position
        ∧ row.address = plan.requestId)
    (outboxDeliveries : s'.outboxDeliveries = rows) (outbox : s'.outbox = s.outbox)
    : Delivers s' bundle plan.deliveries where
  count := count
  manifest := ⟨plan.manifest, manifest, digest⟩
  member row mem here := by
    rw [outboxDeliveries] at mem
    rcases (inserted row).mp mem with old | ⟨position, found, -, counted, address⟩
    · exact absurd (here.trans id) (fresh row old)
    · obtain ⟨first, second⟩ := List.getElem?_zip_eq_some.mp found
      rw [List.getElem?_map, Option.map_eq_some_iff] at first
      obtain ⟨delivery, planned, sameId⟩ := first
      obtain ⟨outboxId, atPosition, payload, ⟨item, stored, itemId, rfl⟩, same⟩ :=
        carries position delivery planned
      rw [atPosition, Option.some.injEq] at second
      refine ⟨address.trans requestId.symm, item, outbox ▸ stored, itemId.trans second, ?_⟩
      have whole : delivery = (row.id, payloadFromOutbox item.payloadJson) :=
        Prod.ext sameId same
      rw [counted, Nat.zero_add, planned, whole]
  complete ordinal inside := by
    obtain ⟨id', atPosition, -⟩ := carries ordinal _ (List.getElem?_eq_getElem inside)
    refine ⟨⟨plan.deliveries[ordinal].1, id', plan.id, ordinal, plan.requestId⟩, ?_, id.symm,
      rfl⟩
    rw [outboxDeliveries]
    refine (inserted _).mpr (Or.inr ⟨ordinal, ?_, rfl, (Nat.zero_add _).symm, rfl⟩)
    refine List.getElem?_zip_eq_some.mpr ⟨?_, atPosition⟩
    rw [List.getElem?_map, List.getElem?_eq_getElem inside]
    rfl

/-- A bundle and the end of its request are stored together. -/
theorem Settled.insertBundle {terminal : TerminalState} {now : Timestamp}
    {outboxIds : List OutboxId} {plan : BundlePlan} (settled : Settled s)
    (manifest : manifestFor plan.deliveries = .ok plan.manifest)
    (carries : Carries s plan outboxIds)
    (inserted : Sqlite.insertBundle terminal now outboxIds plan s = .ok s')
    : Settled s' ∧ s'.outbox = s.outbox := by
  simp only [Sqlite.insertBundle, bind_eq_ok, execute_eq_ok, require_eq_ok] at inserted
  obtain ⟨bundles, bundleInserted, middle, delivered, _, one, result⟩ := inserted
  cases result
  obtain ⟨rows, rfl, memRows⟩ := insertDeliveries_ok delivered
  have bundleFresh := Table.fresh_of_insert? bundleInserted
  -- no membership can name the new bundle before it is stored
  have fresh : ∀ row ∈ s.outboxDeliveries, row.bundleId ≠ plan.id := by
    intro row mem same
    obtain ⟨bundle, stored, sameId⟩ := settled.owned row mem
    exact bundleFresh bundle stored (Or.inl (sameId.trans same))
  have newBundle := (Table.mem_insert? bundleInserted).mpr (Or.inr rfl)
  refine ⟨⟨?_, ?_, ?_⟩, rfl⟩
  · intro request' mem
    obtain ⟨request, old, rfl⟩ := Table.mem_updateWhere.mp mem
    split
    · simp [RequestRow.settle, terminal.request_ne_active]
    · exact settled.ended request old
  · intro request' mem id has
    obtain ⟨request, old, rfl⟩ := Table.mem_updateWhere.mp mem
    split at has
    · rename_i awaits
      rw [if_pos awaits]
      cases has
      refine ⟨_, newBundle, rfl, awaits.1.symm, plan.deliveries, ?_⟩
      exact delivers_of_insertion manifest carries rfl rfl rfl rfl fresh memRows rfl rfl
    · rename_i others
      rw [if_neg others]
      obtain ⟨bundle, stored, rfl, own, deliveries, delivers⟩ :=
        settled.result request old id has
      refine ⟨bundle, (Table.mem_insert? bundleInserted).mpr (Or.inl stored), rfl, own,
        deliveries, delivers.keep (.refl bundle) (fun _ mem => mem) (fun row here => ?_)⟩
      refine (memRows row).trans (or_iff_left ?_)
      intro new
      obtain ⟨_, _, same, _⟩ := new
      exact bundleFresh bundle stored (Or.inl (here.symm.trans same))
  · intro row mem
    rcases (memRows row).mp mem with old | ⟨_, _, same, _⟩
    · obtain ⟨bundle, stored, same⟩ := settled.owned row old
      exact ⟨bundle, (Table.mem_insert? bundleInserted).mpr (Or.inl stored), same⟩
    · exact ⟨_, newBundle, same.symm⟩

/-- All planned bundles are stored with the end of their requests, by induction on the plans.
-/
theorem Settled.insertBundles {terminal : TerminalState} {now : Timestamp}
    {outboxIds : List OutboxId} {plans : List BundlePlan} (settled : Settled s)
    (manifests : ∀ plan ∈ plans, manifestFor plan.deliveries = .ok plan.manifest)
    (carries : ∀ plan ∈ plans, Carries s plan outboxIds)
    (inserted : Sqlite.insertBundles terminal now outboxIds plans s = .ok s')
    : Settled s' ∧ s'.outbox = s.outbox := by
  induction plans generalizing s with
  | nil =>
      cases inserted
      exact ⟨settled, rfl⟩
  | cons plan rest ih =>
      simp only [Sqlite.insertBundles, bind_eq_ok] at inserted
      obtain ⟨middle, first, others⟩ := inserted
      obtain ⟨settled, same⟩ := settled.insertBundle (manifests plan List.mem_cons_self)
        (carries plan List.mem_cons_self) first
      obtain ⟨settled, same'⟩ := ih settled
        (fun other mem => manifests other (List.mem_cons_of_mem _ mem))
        (fun other mem => by
          have := carries other (List.mem_cons_of_mem _ mem)
          unfold Carries StoredAs at *
          rwa [same])
        others
      exact ⟨settled, same'.trans same⟩

/-- `create_terminal_bundles` keeps requests and results together, and stores the payloads
it decides on.
-/
theorem Settled.createTerminalBundles {context : TerminalBundleContext}
    {requestIds : List RequestId} {intents : List NewOutboxIntent}
    {requested terminal : TerminalState} {now : Timestamp} {ids : FreshIds}
    (settled : Settled s)
    (created
      : Sqlite.createTerminalBundles context requestIds intents requested now ids s
        = .ok (terminal, s'))
    : Settled s'
      ∧ ∃ unique effective, uniqueIntents [] intents = .ok unique
        ∧ effectiveIntents context unique requested ids = .ok (effective, terminal)
        ∧ ∀ intent ∈ effective, ∃ row ∈ s'.outbox, row.payloadJson = intent.payload := by
  simp only [Sqlite.createTerminalBundles, bind_eq_ok] at created
  obtain ⟨unique, uniqueOk, ⟨effective, chosen⟩, effectiveOk, plans, built,
    ⟨outboxIds, m⟩, outboxOk, routed, routedOk, final, bundles, result⟩ := created
  cases result
  obtain ⟨⟨outbox, same, grows⟩, stored⟩ := insertOutboxes_ok outboxOk
  obtain ⟨_, _, sameRouted⟩ := routeIntents_ok routedOk
  obtain ⟨-, planned⟩ := buildPlans_ok built
  have settledRouted : Settled routed := by
    subst same
    subst sameRouted
    exact settled.keep (.refl _) grows rfl (.refl _)
  have carries : ∀ plan ∈ plans, Carries routed plan outboxIds := by
    intro plan mem
    obtain ⟨_, deliveries⟩ := (planned plan mem).2
    subst sameRouted
    exact Carries.of_intents stored deliveries
  obtain ⟨settled, sameOutbox⟩ := settledRouted.insertBundles
    (fun plan mem => (planned plan mem).1) carries bundles
  refine ⟨settled, unique, effective, uniqueOk, effectiveOk, fun intent mem => ?_⟩
  obtain ⟨position, inside, rfl⟩ := List.getElem_of_mem mem
  obtain ⟨sameLength, each⟩ := List.forall₂_iff_get.mp stored
  obtain ⟨row, known, -, payload⟩ := each position inside (sameLength ▸ inside)
  refine ⟨row, ?_, payload⟩
  rw [sameOutbox, sameRouted]
  exact known

-----------------------------------------------------------------------------------------
-- Reachable stores
-----------------------------------------------------------------------------------------

/-- A committed call keeps requests and results together, by cases on what it does. -/
theorem Settled.step (settled : Settled s) {call : Call} (step : ResultStep call s s')
    : Settled s' := by
  cases step with
  | leaves leaves => exact settled.leave leaves
  | recordsRoute _ _ before recorded =>
      obtain ⟨_, _, _, rfl⟩ := recordRoute_ok recorded
      exact (settled.leave before).keep (.refl _) (fun _ mem => mem) rfl (.refl _)
  | ends before created after _ =>
      exact ((settled.leave before).createTerminalBundles created).1.leave after

/-- In every reachable store requests and results go together, by induction on the history.
-/
theorem reachable_settled {w : World} (reached : runtime.Reachable w) : Settled w.store := by
  refine reached.invariant (J := fun w => Settled w.store) ?_ ?_
  · intro w initial
    obtain ⟨actors, identities, rfl⟩ := initial
    exact .initial actors identities
  · intro w call w' _ settled step
    obtain ⟨-, rfl⟩ := step
    rcases w.after_cases call with same | ⟨answer, s, performed, same⟩
    · exact same.symm ▸ settled
    · rw [same, World.commit_store]
      exact settled.step (perform_resultStep performed)

-----------------------------------------------------------------------------------------
-- Result atomicity
-----------------------------------------------------------------------------------------

/-- The bundle holds as many memberships as it says, counted from zero and addressed to its
request, and it loads.
-/
structure Intact (s : Store) (bundle : BundleRow) : Prop where
  deliveryCount : (deliveryRows s bundle.id).length = bundle.deliveryCount
  ordinals : (deliveryRows s bundle.id).map (·.ordinal) = List.range bundle.deliveryCount
  address : ∀ row ∈ s.outboxDeliveries, row.bundleId = bundle.id →
    row.address = bundle.requestId
  loads : ∃ loaded, loadBundle bundle.id s = .ok loaded
    ∧ loaded.requestId = bundle.requestId

theorem Delivers.intact {bundle : BundleRow} {deliveries : List (DeliveryId × FinalPayload)}
    (delivers : Delivers s bundle deliveries) (stored : bundle ∈ s.resultBundles)
    : Intact s bundle where
  deliveryCount := by
    have := congrArg List.length delivers.ordinals
    simpa using this
  ordinals := delivers.ordinals
  address row mem here := (delivers.member row mem here).1
  loads := by
    obtain ⟨_, -, loaded⟩ := delivers.load stored
    exact ⟨_, loaded, rfl⟩

/-- The request is active and has no bundle, or it has ended and has a bundle of its own. -/
def HasResultIffEnded (s : Store) (request : RequestRow) : Prop :=
  (request.state ≠ .active ↔ ∃ id, request.resultBundleId = some id)
    ∧ ∀ id, request.resultBundleId = some id →
      ∃ bundle ∈ s.resultBundles, bundle.id = id ∧ bundle.requestId = request.requestId
        ∧ Intact s bundle

theorem Settled.hasResultIffEnded (settled : Settled s) {request : RequestRow}
    (stored : request ∈ s.localRequests)
    : HasResultIffEnded s request := by
  constructor
  · rw [ne_eq, settled.ended request stored, ← ne_eq, Option.ne_none_iff_exists']
  · intro id has
    obtain ⟨bundle, bundleStored, same, own, _, delivers⟩ :=
      settled.result request stored id has
    exact ⟨bundle, bundleStored, same, own, delivers.intact bundleStored⟩

/-- The incorporated events, the run, its work item and the active requests of these events
end in one and the same state.
-/
structure EndsAlike (run : AttachedRun) (terminal : TerminalState) (s s' : Store) : Prop where
  events : ∀ event ∈ s.events, Incorporated s run.runId event.id →
    ∃ event' ∈ s'.events, event'.id = event.id ∧ event'.state = terminal.event
  row : ∃ row ∈ s'.runs, row.id = run.runId ∧ row.state = terminal.run
  workItem : ∃ work ∈ s'.workItems, work.id = run.workItemId
    ∧ work.state = terminal.workItem
  requests : ∀ request ∈ s.localRequests, request.state = .active →
    Incorporated s run.runId request.eventId →
    ∃ request' ∈ s'.localRequests, request'.requestId = request.requestId
      ∧ request'.state = terminal.request

/-- A finalization completes unless no bundle can carry its payloads, which are then replaced
by a stored terminal error.
-/
def ReplacedIffFailed (command : FinalizeRun) (ids : FreshIds) (terminal : TerminalState)
    (s s' : Store) : Prop :=
  ∃ artifacts intents, managedArtifactIntents s command.run ids = .ok artifacts
    ∧ uniqueIntents [] (command.outbox ++ artifacts) = .ok intents
    ∧ ((terminal = .completed
        ∧ ∃ manifest, manifestFor (bundleDeliveries intents (ids.delivery 0)) = .ok manifest)
      ∨ (terminal = .failedTerminal
        ∧ ∃ error, manifestFor (bundleDeliveries intents (ids.delivery 0)) = .error error
          ∧ ∃ row ∈ s'.outbox,
            row.payloadJson = .terminalError "invalid_final_payload" error))

theorem Completes.endsAlike {command : FinalizeRun} {now : Timestamp}
    {terminal : TerminalState} {row : RunRow} {work : WorkItemRow}
    (completes : Completes command.run now terminal s s')
    (valid : Validated s command.run now row work)
    : EndsAlike command.run terminal s s' := by
  obtain ⟨-, -, messages, requests, t, settles, same, rfl⟩ := completes
  obtain ⟨_, _, _, _, _, rfl⟩ := same
  constructor
  · intro event stored incorporated
    exact ⟨_, Table.updateWhere_mem_of stored incorporated, rfl, rfl⟩
  · exact ⟨_, Table.updateWhere_mem_of valid.runStored ⟨valid.runId, valid.active⟩,
      valid.runId, rfl⟩
  · have own : work.id = command.run.workItemId := valid.workId.trans valid.matching.2.1
    exact ⟨_, Table.updateWhere_mem_of valid.workStored own, own, rfl⟩
  · intro request stored active incorporated
    have listed : request.requestId ∈ incorporatedLocalRequests s command.run.runId :=
      List.mem_map_of_mem (Table.mem_selectOrdered.mpr ⟨stored, incorporated, active⟩)
    obtain ⟨request', mem, rfl | ⟨-, -, bundle, rfl⟩⟩ := settles.forward request stored
    · exact absurd active (settles.settled request' mem listed)
    · exact ⟨_, mem, rfl, rfl⟩

/-- A completed finalization ends everything of the run alike, in the state its payloads
decide.
-/
theorem finalizeRun_endsAlike (settled : Settled s) {command : FinalizeRun}
    {now : Timestamp} {ids : FreshIds}
    (finalized : finalizeRun command now ids s = .ok (.completed, s'))
    : ∃ terminal, EndsAlike command.run terminal s s'
      ∧ ReplacedIffFailed command ids terminal s s' := by
  have ends : ∀ terminal, Completes command.run now terminal s s' →
      EndsAlike command.run terminal s s' := by
    obtain ⟨⟨row, work, valid⟩, -⟩ := finalizeRun_ok finalized
    exact fun terminal completes => completes.endsAlike valid
  simp only [finalizeRun, bind_eq_ok] at finalized
  obtain ⟨_, valid, rest⟩ := finalized
  split at rest
  · cases rest
  · simp only [insertMessages, bind_eq_ok] at rest
    obtain ⟨_, complete, _, ⟨_, _, stored⟩, artifacts, artifactsOk, ⟨terminal, t⟩, created,
      result⟩ := rest
    cases stored
    cases result
    obtain ⟨kind, requests, settles, same⟩ := createTerminalBundles_ok created
    obtain ⟨-, unique, effective, uniqueOk, effectiveOk, storedAll⟩ :=
      Settled.createTerminalBundles
        (by exact settled.leave (.same rfl rfl rfl rfl rfl rfl)) created
    refine ⟨terminal, ends terminal ⟨kind, requireAllEventsIncorporated_ok complete, _,
      requests, t, settles, same, rfl⟩, artifacts, unique, artifactsOk, uniqueOk, ?_⟩
    rcases effectiveIntents_ok effectiveOk with ⟨-, completed, accepted⟩ |
      ⟨error, rejected, rfl, failed⟩
    · exact Or.inl ⟨completed, accepted⟩
    · exact Or.inr ⟨failed, error, rejected, storedAll _ List.mem_cons_self⟩

/-- In every reachable world: a request has ended exactly when it has a result bundle, which
is its own, complete and loadable; a finalization that completes ends everything of the run
alike; and one that fails changes nothing.
-/
theorem results_are_atomic {w : World} (reached : runtime.Reachable w)
    : (∀ request ∈ w.store.localRequests, HasResultIffEnded w.store request)
      ∧ (∀ command now ids s', finalizeRun command now ids w.store = .ok (.completed, s') →
        ∃ terminal, EndsAlike command.run terminal w.store s'
          ∧ ReplacedIffFailed command ids terminal w.store s')
      ∧ ∀ command now ids error, finalizeRun command now ids w.store = .error error →
        w.after (.finalizeRun command now ids) = w := by
  have settled := reachable_settled reached
  refine ⟨fun request stored => settled.hasResultIffEnded stored,
    fun command now ids s' finalized => finalizeRun_endsAlike settled finalized, ?_⟩
  intro command now ids error failed
  have answered : (Call.finalizeRun command now ids).perform w.store = .error error := by
    simp only [Call.perform, failed]
    rfl
  simp only [World.after, answered]

namespace Answered

def lease : ActorLease := ⟨localActor, "daemon", 1, 100000⟩

/-- The run of a submitted request, as its runner holds it. -/
def run : AttachedRun where
  runId := ⟨3⟩
  workItemId := ⟨1⟩
  lease := lease
  audience := .actorPrivate
  sourceEventIds := [⟨1⟩]
  requestIds := [⟨1⟩]
  messages := [.user (textParts "hello")]
  observedSequence := 1
  deliveryRoute := none
  executionPolicy := .actorTools
  ingressSource := none

def answer : NewOutboxIntent :=
  ⟨⟨50⟩, .final ⟨3⟩, "interactive_final", .actorPrivate, .text "hi"⟩

/-- A submitted request is answered. -/
def world : World := World.single.play
  [.submitForActor localActor ⟨⟨1⟩, "hello", "sha"⟩ 10 (.numbered 1),
    .acquireReadyActor "daemon" 20 100000,
    .attachNextRun lease 8 30 (.numbered 3),
    .checkpointRun ⟨run, [⟨1⟩], [], [.user (textParts "hello")]⟩ 40,
    .finalizeRun ⟨run, [⟨1⟩], [], [answer]⟩ 50 (.numbered 5)]

theorem reachable : runtime.Reachable world :=
  reachable_play reachable_single (by decide +kernel)

end Answered

/-- The request of an answered run is completed and its bundle loads. -/
theorem results_are_atomic_answered
    : (∃ request ∈ Answered.world.store.localRequests, request.state = .completed)
      ∧ ∀ request ∈ Answered.world.store.localRequests,
        HasResultIffEnded Answered.world.store request :=
  ⟨by decide +kernel, (results_are_atomic Answered.reachable).1⟩

end Codrik.Runtime.Sqlite
