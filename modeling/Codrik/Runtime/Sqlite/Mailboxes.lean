import Codrik.Runtime.Sqlite.Evolution

/-! The mailboxes of actors: events are numbered in the order they are accepted, and what was
accepted once is answered alike when it is repeated.
-/

namespace Codrik.Runtime.Sqlite

open Codrik.Relational
open Codrik.Transition

variable {s s' : Store}

-----------------------------------------------------------------------------------------
-- Counters
-----------------------------------------------------------------------------------------

/-- The counter of an actor's mailbox. -/
def mailboxCount (actors : Table ActorRow) (actorId : ActorId) : Nat :=
  match actors.find? (·.id = actorId) with
  | some actor => actor.nextMailboxSequence
  | none => 0

theorem mailboxCount_eq {actors : Table ActorRow} {actor : ActorRow} (stored : actor ∈ actors)
    : mailboxCount actors actor.id = actor.nextMailboxSequence := by
  have found : actors.find? (·.id = actor.id) = some actor :=
    Table.find?_eq_some_of_unique stored rfl
      (fun other known same => Table.eq_of_clash known stored same)
  simp only [mailboxCount, found]

/-- A sequence number is taken from the counter of its actor only. -/
theorem nextSequence_count {actorId : ActorId} {sequence : Nat} {actors : Table ActorRow}
    (taken : nextSequence s actorId = .ok (sequence, actors))
    : sequence = mailboxCount s.actors actorId + 1 ∧ mailboxCount actors actorId = sequence
      ∧ ∀ id ≠ actorId, mailboxCount actors id = mailboxCount s.actors id := by
  obtain ⟨⟨actor, stored, rfl, rfl⟩, rfl⟩ := nextSequence_ok taken
  refine ⟨by rw [mailboxCount_eq stored], ?_, fun id differs => ?_⟩
  · have bumped : { actor with nextMailboxSequence := actor.nextMailboxSequence + 1 }
        ∈ s.actors.updateWhere (·.id = actor.id)
          (fun row => { row with nextMailboxSequence := row.nextMailboxSequence + 1 }) :=
      Table.updateWhere_mem_of stored rfl
    exact mailboxCount_eq bumped
  · cases found : s.actors.find? (·.id = id) with
    | none =>
        have absent : ∀ other ∈ s.actors.updateWhere (·.id = actor.id)
            (fun row => { row with nextMailboxSequence := row.nextMailboxSequence + 1 }),
            other.id ≠ id := by
          intro other mem
          obtain ⟨row, known, rfl⟩ := Table.mem_updateWhere.mp mem
          have := Table.find?_eq_none.mp found row known
          split <;> exact this
        simp only [mailboxCount, found, Table.find?_eq_none.mpr absent]
    | some row =>
        obtain ⟨known, rfl⟩ := Table.find?_some found
        rw [mailboxCount_eq known]
        exact mailboxCount_eq (Table.updateWhere_mem_of_not known differs)

-----------------------------------------------------------------------------------------
-- Acceptance
-----------------------------------------------------------------------------------------

/-- The event takes the next number of its mailbox and is stored. -/
structure Accepts (event : EventRow) (s s' : Store) : Prop where
  numbered : event.mailboxSequence = mailboxCount s.actors event.actorId + 1
  counted : mailboxCount s'.actors event.actorId = event.mailboxSequence
  others : ∀ id ≠ event.actorId, mailboxCount s'.actors id = mailboxCount s.actors id
  enabled : ∀ id, actorIsEnabled s id → actorIsEnabled s' id
  events : ∃ moved, EventsStay s.events moved ∧ moved.insert? event = some s'.events
  localRequests : RequestsStay s.localRequests s'.localRequests

/-- An accepted call with its answer and the event it stored. -/
structure Acceptance where
  call : Call
  answer : Answer
  event : EventRow

/-- What the store remembers of an acceptance, by which it answers repetitions. -/
def Acceptance.Remembered (s : Store) (entry : Acceptance) : Prop :=
  match entry.call with
  | .ingest event _ _ =>
      entry.event.gateway = event.gateway ∧ entry.event.externalId = event.externalId
        ∧ ∃ workItemId, entry.answer
          = .ingested (.accepted entry.event.id workItemId entry.event.mailboxSequence)
  | .submitForActor actorId command _ _ =>
      actorIsEnabled s actorId
        ∧ (∃ workItemId, entry.answer
          = .submitted (.accepted entry.event.id workItemId entry.event.mailboxSequence))
        ∧ ∃ request ∈ s.localRequests, request.requestId = command.requestId
          ∧ request.actorId = actorId ∧ request.promptSha256 = command.promptSha256
          ∧ request.eventId = entry.event.id
  | .cancelForActor actorId command _ _ =>
      actorIsEnabled s actorId ∧ entry.event.actorId = actorId
        ∧ entry.event.gateway = localCancelGateway
        ∧ entry.event.externalId = .cancel command.cancelId
        ∧ entry.event.payloadJson = .decoded (.cancel ⟨command.requestId, false⟩)
        ∧ entry.answer
          = .cancelled ⟨command.cancelId, loadCancelTargets s command.cancelId, false⟩
  | .ingestWebhook _ _ _ =>
      ∃ workItemId deferred, entry.answer
        = .webhook (.accepted entry.event.id workItemId entry.event.mailboxSequence deferred)
  | _ => True

theorem ingest_accepts {event : NewInboundEvent} {now : Timestamp} {ids : FreshIds}
    {outcome : IngressOutcome} (ingested : ingest event now ids s = .ok (outcome, s'))
    : s' = s
      ∨ ∃ row, Accepts row s s' ∧ s'.cancelTargets = s.cancelTargets
        ∧ Acceptance.Remembered s' ⟨.ingest event now ids, .ingested outcome, row⟩ := by
  simp only [ingest, bind_eq_ok] at ingested
  obtain ⟨_, _, ingested⟩ := ingested
  split at ingested
  · cases ingested
    exact Or.inl rfl
  · split at ingested
    · cases ingested
      exact Or.inl rfl
    · simp only [bind_eq_ok, execute_eq_ok] at ingested
      obtain ⟨_, _, ⟨sequence, actors⟩, taken, _, inserted, _, recorded, result⟩ := ingested
      cases result
      obtain ⟨_, _, _, rfl⟩ := recordRoute_ok recorded
      obtain ⟨numbered, counted, others⟩ := nextSequence_count taken
      refine Or.inr ⟨_, ⟨numbered, counted, others, fun id => nextSequence_enabled taken,
        ⟨_, .refl .refl _, inserted⟩, .refl _⟩, rfl, rfl, rfl, _, rfl⟩

theorem submitForActor_accepts {actorId : ActorId} {command : LocalSubmission}
    {now : Timestamp} {ids : FreshIds} {outcome : LocalSubmitOutcome}
    (submitted : submitForActor actorId command now ids s = .ok (outcome, s'))
    : s' = s
      ∨ ∃ row, Accepts row s s' ∧ s'.cancelTargets = s.cancelTargets
        ∧ Acceptance.Remembered s'
          ⟨.submitForActor actorId command now ids, .submitted outcome, row⟩ := by
  unfold submitForActor at submitted
  split at submitted
  · rename_i enabled
    split at submitted
    · split at submitted
      · split at submitted
        · cases submitted
          exact Or.inl rfl
        · cases submitted
      · cases submitted
        exact Or.inl rfl
    · simp only [bind_eq_ok, execute_eq_ok] at submitted
      obtain ⟨_, _, ⟨sequence, actors⟩, taken, _, inserted, requests, stored, result⟩ := submitted
      cases result
      obtain ⟨numbered, counted, others⟩ := nextSequence_count taken
      have keeps : RequestsStay s.localRequests requests := fun request mem =>
        ⟨request, (Table.mem_insert? stored).mpr (Or.inl mem), .refl request⟩
      refine Or.inr ⟨_, ⟨numbered, counted, others, fun id => nextSequence_enabled taken,
        ⟨_, .refl .refl _, inserted⟩, keeps⟩, rfl, nextSequence_enabled taken enabled, ⟨_, rfl⟩, _,
        (Table.mem_insert? stored).mpr (Or.inr rfl), rfl, rfl, rfl, rfl⟩
  · cases submitted
    exact Or.inl rfl

theorem ingestWebhook_accepts {event : NewWebhookEvent} {now : Timestamp} {ids : FreshIds}
    {outcome : WebhookIngressOutcome}
    (ingested : ingestWebhook event now ids s = .ok (outcome, s'))
    : s' = s
      ∨ ∃ row, Accepts row s s' ∧ s'.cancelTargets = s.cancelTargets
        ∧ Acceptance.Remembered s' ⟨.ingestWebhook event now ids, .webhook outcome, row⟩ := by
  simp only [ingestWebhook, acceptWebhook] at ingested
  split at ingested
  · split at ingested
    · cases ingested
      exact Or.inl rfl
    · simp only [storeWebhook, bind_eq_ok, execute_eq_ok] at ingested
      obtain ⟨_, ⟨_, _, ⟨sequence, actors⟩, taken, _, inserted, stored⟩, _, _, result⟩ := ingested
      cases stored
      cases result
      obtain ⟨numbered, counted, others⟩ := nextSequence_count taken
      exact Or.inr ⟨_, ⟨numbered, counted, others, fun id => nextSequence_enabled taken,
        ⟨_, .refl .refl _, inserted⟩, .refl _⟩, rfl, _, _, rfl⟩
  · cases ingested
    exact Or.inl rfl

-----------------------------------------------------------------------------------------
-- Cancellations
-----------------------------------------------------------------------------------------

/-- An active request that a cancellation of `request` cancels too. -/
def Beside (request other : RequestRow) : Prop :=
  other.actorId = request.actorId ∧ other.state = .active ∧ request.workItemId ≠ none
    ∧ other.workItemId = request.workItemId

instance (request : RequestRow) : DecidablePred (Beside request) :=
  fun _ => inferInstanceAs (Decidable (_ ∧ _))

/-- The cancellation a call asks for. -/
def Call.cancellation? : Call → Option LocalCancel
  | .cancelForActor _ command _ _ => some command
  | _ => none

/-- Of the requests a cancellation cancels, those accepted earlier have the smaller ids. -/
def KeepsIdOrder (w : World) (call : Call) : Prop :=
  ∀ command ∈ call.cancellation?,
    ∀ request ∈ w.store.localRequests, request.requestId = command.requestId →
    ∀ a ∈ w.store.localRequests, Beside request a →
    ∀ b ∈ w.store.localRequests, Beside request b →
      a.createdAt < b.createdAt → a.requestId < b.requestId

instance (w : World) : DecidablePred (KeepsIdOrder w) :=
  fun _ => inferInstanceAs (Decidable (∀ _ ∈ _, _))

/-- Every cancel target belongs to a stored cancellation. -/
def TargetsAccepted (s : Store) : Prop :=
  ∀ target ∈ s.cancelTargets, ∃ event ∈ s.events,
    event.gateway = localCancelGateway ∧ event.externalId = .cancel target.cancelId

/-- Targets of one cancellation are no targets of another. -/
theorem loadCancelTargets_insert {cancelId other : CancelId} {now : Timestamp}
    {requestIds : List RequestId} {before after : Table CancelTargetRow}
    (inserted : insertCancelTargets cancelId now requestIds before = .ok after)
    (differs : other ≠ cancelId)
    : after.select (·.cancelId = other) = before.select (·.cancelId = other) := by
  induction requestIds generalizing before with
  | nil =>
      cases inserted
      rfl
  | cons requestId rest ih =>
      simp only [insertCancelTargets, bind_eq_ok, execute_eq_ok] at inserted
      obtain ⟨middle, first, others⟩ := inserted
      exact (ih others).trans (Table.select_insert? first (fun same => differs same.symm))

/-- Cancel targets stored at one time are read back in the order of their ids. -/
theorem loadCancelTargets_eq {cancelId : CancelId} (now : Timestamp)
    (requestIds : List RequestId)
    (rows : ∀ target : CancelTargetRow, target ∈ s.cancelTargets ∧ target.cancelId = cancelId ↔
      ∃ requestId ∈ requestIds, target = ⟨cancelId, requestId, now⟩)
    (sorted : requestIds.Pairwise (· < ·))
    : loadCancelTargets s cancelId = requestIds := by
  have increasing : (loadCancelTargets s cancelId).Pairwise (· < ·) := by
    refine List.pairwise_map.mpr ?_
    refine (Table.pairwise_selectOrdered.and Table.distinct_selectOrdered).imp_of_mem ?_
    rintro a b aMem bMem ⟨ordered, apart⟩
    obtain ⟨x, -, rfl⟩ := (rows a).mp (Table.mem_selectOrdered.mp aMem)
    obtain ⟨y, -, rfl⟩ := (rows b).mp (Table.mem_selectOrdered.mp bMem)
    have le : x ≤ y := by simpa [Prod.Lex.le_iff] using ordered
    exact lt_of_le_of_ne le (fun same => apart (by subst same; exact ⟨rfl, rfl⟩))
  refine increasing.eq_of_mem_iff sorted (fun requestId => ?_)
  simp only [loadCancelTargets, List.mem_map, Table.mem_selectOrdered]
  constructor
  · rintro ⟨target, stored, rfl⟩
    obtain ⟨x, mem, rfl⟩ := (rows target).mp stored
    exact mem
  · intro mem
    exact ⟨_, (rows _).mpr ⟨requestId, mem, rfl⟩, rfl⟩

/-- The requests a cancellation cancels are listed in the order of their ids. -/
theorem activeRequests_sorted {issued : List AttachedRun} (wf : WellFormed issued s)
    {request : RequestRow} {now : Timestamp} {fresh workItemId : WorkItemId}
    (stored : request ∈ s.localRequests)
    (inOrder
      : ∀ a ∈ s.localRequests, Beside request a → ∀ b ∈ s.localRequests, Beside request b →
        a.createdAt < b.createdAt → a.requestId < b.requestId)
    (reattached
      : reattachRequest request request.actorId now fresh s = .ok (workItemId, s'))
    : (activeRequests s' request.actorId workItemId).Pairwise (· < ·) := by
  have increasing : ∀ a ∈ s'.localRequests, ∀ b ∈ s'.localRequests,
      a.actorId = request.actorId ∧ a.workItemId = some workItemId ∧ a.state = .active →
      b.actorId = request.actorId ∧ b.workItemId = some workItemId ∧ b.state = .active →
      a.createdAt < b.createdAt → a.requestId < b.requestId := by
    unfold reattachRequest at reattached
    split at reattached
    · rename_i attached
      cases reattached
      intro a aMem b bMem ⟨aActor, aWork, aActive⟩ ⟨bActor, bWork, bActive⟩
      have known : request.workItemId ≠ none := by simp [attached]
      exact inOrder a aMem ⟨aActor, aActive, known, aWork.trans attached.symm⟩
        b bMem ⟨bActor, bActive, known, bWork.trans attached.symm⟩
    · simp only [bind_eq_ok, execute_eq_ok] at reattached
      obtain ⟨_, inserted, _, _, result⟩ := reattached
      cases result
      -- the new work item holds the request alone, as no row refers to it before
      have alone : ∀ row ∈ s.localRequests, row.workItemId ≠ some fresh := by
        intro row mem attached
        obtain ⟨event, eventStored, -, work, -⟩ := wf.requestEvent row mem
        obtain ⟨item, itemStored, same, -⟩ :=
          wf.eventWork event eventStored _ (work.trans attached)
        exact Table.fresh_of_insert? inserted item itemStored same
      have only : ∀ a ∈ s.localRequests.updateWhere
          (fun row => row.requestId = request.requestId ∧ row.workItemId = none
            ∧ row.state = .active)
          (fun row => { row with workItemId := some fresh })
          (RequestRow.keepsKey_workItemId fresh),
          a.workItemId = some fresh → a.requestId = request.requestId
            ∧ a.createdAt = request.createdAt := by
        intro a mem attached
        obtain ⟨row, known, rfl⟩ := Table.mem_updateWhere.mp mem
        split at attached
        · rename_i detached
          have : row = request := Table.eq_of_clash known stored (Or.inl detached.1)
          rw [if_pos detached, this]
          exact ⟨rfl, rfl⟩
        · exact absurd attached (alone row known)
      rintro a aMem b bMem ⟨-, aWork, -⟩ ⟨-, bWork, -⟩ earlier
      rw [(only a aMem aWork).2, (only b bMem bWork).2] at earlier
      exact absurd earlier (lt_irrefl _)
  refine List.pairwise_map.mpr ?_
  refine (Table.pairwise_selectOrdered.and Table.distinct_selectOrdered).imp_of_mem ?_
  rintro a b aMem bMem ⟨ordered, apart⟩
  obtain ⟨aStored, aTarget⟩ := Table.mem_selectOrdered.mp aMem
  obtain ⟨bStored, bTarget⟩ := Table.mem_selectOrdered.mp bMem
  rcases Prod.Lex.le_iff.mp ordered with earlier | ⟨-, le⟩
  · exact increasing a aStored b bStored aTarget bTarget earlier
  · exact lt_of_le_of_ne le (fun same => apart (Or.inl same))

/-- An accepted cancellation stores its event and, in order, the requests it cancels. -/
theorem acceptCancel_accepts {issued : List AttachedRun} (wf : WellFormed issued s)
    (targets : TargetsAccepted s) {command : LocalCancel} {request : RequestRow}
    {now : Timestamp} {ids : FreshIds} {outcome : CancelOutcome}
    (enabled : actorIsEnabled s request.actorId) (stored : request ∈ s.localRequests)
    (inOrder
      : ∀ a ∈ s.localRequests, Beside request a → ∀ b ∈ s.localRequests, Beside request b →
        a.createdAt < b.createdAt → a.requestId < b.requestId)
    (accepted : acceptCancel request.actorId command request now ids s = .ok (outcome, s'))
    : ∃ row, Accepts row s s' ∧ TargetsAccepted s'
      ∧ row.gateway = localCancelGateway ∧ row.externalId = .cancel command.cancelId
      ∧ (∀ other ≠ command.cancelId,
        s'.cancelTargets.select (·.cancelId = other) = s.cancelTargets.select (·.cancelId = other))
      ∧ Acceptance.Remembered s'
        ⟨.cancelForActor request.actorId command now ids, .cancelled outcome, row⟩ := by
  simp only [acceptCancel, bind_eq_ok, execute_eq_ok] at accepted
  obtain ⟨⟨workItemId, m⟩, reattached, ⟨sequence, actors⟩, taken, events, inserted, cancelTargets,
    listed, result⟩ := accepted
  cases result
  have stay := reattachRequest_mailboxes reattached
  obtain ⟨numbered, counted, others⟩ := nextSequence_count taken
  rw [stay.actors] at numbered others
  have remains : ∀ id, actorIsEnabled s id → ∃ actor ∈ actors, actor.id = id ∧ actor.enabled = true :=
    fun id isEnabled => nextSequence_enabled taken (by unfold actorIsEnabled; rwa [stay.actors])
  have rows := mem_insertCancelTargets listed
  have unused : ∀ target ∈ m.cancelTargets, target.cancelId ≠ command.cancelId := by
    intro target mem same
    obtain ⟨event, known, gateway, external⟩ := targets target (stay.cancelTargets ▸ mem)
    obtain ⟨event', known', same'⟩ := stay.events.forward event known
    refine Table.fresh_of_insert? inserted event' known' (Or.inr (Or.inr ⟨?_, ?_⟩))
    · rw [same', gateway]
    · rw [same', external, same]
  refine ⟨_, ⟨numbered, counted, others, remains, ⟨_, stay.events, inserted⟩, stay.localRequests⟩,
    ?_, rfl, rfl, ?_, remains _ enabled, rfl, rfl, rfl, rfl, ?_⟩
  · intro target mem
    rcases (rows target).mp mem with old | ⟨_, -, rfl⟩
    · obtain ⟨event, known, gateway, external⟩ := targets target (stay.cancelTargets ▸ old)
      obtain ⟨event', known', same⟩ := stay.events.forward event known
      exact ⟨event', (Table.mem_insert? inserted).mpr (Or.inl known'), by rw [same, gateway],
        by rw [same, external]⟩
    · exact ⟨_, (Table.mem_insert? inserted).mpr (Or.inr rfl), rfl, rfl⟩
  · intro other differs
    rw [← stay.cancelTargets]
    exact loadCancelTargets_insert listed differs
  · rw [loadCancelTargets_eq now (activeRequests m request.actorId workItemId) ?_
      (activeRequests_sorted wf stored inOrder reattached)]
    intro target
    constructor
    · rintro ⟨mem, same⟩
      exact ((rows target).mp mem).resolve_left (fun old => unused target old same)
    · rintro ⟨requestId, mem, rfl⟩
      exact ⟨(rows _).mpr (Or.inr ⟨requestId, mem, rfl⟩), rfl⟩

-----------------------------------------------------------------------------------------
-- All calls
-----------------------------------------------------------------------------------------

/-- What a committed call does to the mailboxes. -/
inductive MailboxStep (call : Call) (answer : Answer) (s s' : Store) : Prop
  | stays (stay : MailboxesStay s s') (refuses : call.IsIngress → s' = s)
  | accepts (row : EventRow) (accepts : Accepts row s s') (targets : TargetsAccepted s')
      (others
        : ∀ cancelId, ¬(row.gateway = localCancelGateway ∧ row.externalId = .cancel cancelId) →
          loadCancelTargets s' cancelId = loadCancelTargets s cancelId)
      (remembered : Acceptance.Remembered s' ⟨call, answer, row⟩)

theorem Accepts.forward {row : EventRow} (accepts : Accepts row s s')
    : ∀ event ∈ s.events, ∃ event' ∈ s'.events, SameEvent event event' := by
  obtain ⟨moved, stay, inserted⟩ := accepts.events
  intro event mem
  obtain ⟨event', known, same⟩ := stay.forward event mem
  exact ⟨event', (Table.mem_insert? inserted).mpr (Or.inl known), same⟩

/-- Cancel targets stay accepted while events stay. -/
theorem TargetsAccepted.keep (targets : TargetsAccepted s)
    (same : s'.cancelTargets = s.cancelTargets)
    (forward : ∀ event ∈ s.events, ∃ event' ∈ s'.events, SameEvent event event')
    : TargetsAccepted s' := by
  intro target mem
  obtain ⟨event, stored, gateway, external⟩ := targets target (same ▸ mem)
  obtain ⟨event', stored', next⟩ := forward event stored
  exact ⟨event', stored', by rw [next, gateway], by rw [next, external]⟩

/-- Acceptances that leave the cancel targets alone. -/
theorem MailboxStep.of_sameTargets {call : Call} {answer : Answer} (targets : TargetsAccepted s)
    (done
      : s' = s ∨ ∃ row, Accepts row s s' ∧ s'.cancelTargets = s.cancelTargets
        ∧ Acceptance.Remembered s' ⟨call, answer, row⟩)
    : MailboxStep call answer s s' := by
  rcases done with rfl | ⟨row, accepts, same, remembered⟩
  · exact .stays (.refl _) (fun _ => rfl)
  · refine .accepts row accepts (targets.keep same accepts.forward) (fun cancelId _ => ?_)
      remembered
    unfold loadCancelTargets
    rw [same]

/-- The mailboxes stay as they are, or one event is accepted, by cases on the call. -/
theorem perform_mailboxStep {w : World} {call : Call} {answer : Answer}
    (wf : WellFormed w.issued w.store) (targets : TargetsAccepted w.store)
    (keeps : KeepsIdOrder w call) (performed : call.perform w.store = .ok (answer, s'))
    : MailboxStep call answer w.store s' := by
  cases call with
  | ingest event now ids =>
      obtain ⟨_, done, rfl⟩ := answering_eq_ok.mp performed
      exact .of_sameTargets targets (ingest_accepts done)
  | submitForActor actorId command now ids =>
      obtain ⟨_, done, rfl⟩ := answering_eq_ok.mp performed
      exact .of_sameTargets targets (submitForActor_accepts done)
  | ingestWebhook event now ids =>
      obtain ⟨_, done, rfl⟩ := answering_eq_ok.mp performed
      exact .of_sameTargets targets (ingestWebhook_accepts done)
  | cancelForActor actorId command now ids =>
      obtain ⟨_, done, rfl⟩ := answering_eq_ok.mp performed
      simp only [cancelForActor, bind_eq_ok, require_eq_ok] at done
      obtain ⟨_, enabled, done⟩ := done
      split at done
      · simp only [bind_eq_ok] at done
        obtain ⟨_, _, _, _, _, _, result⟩ := done
        cases result
        exact .stays (.refl _) (fun _ => rfl)
      · split at done
        · cases done
        · rename_i request found
          obtain ⟨stored, same, rfl⟩ := Table.find?_some found
          split at done
          · obtain ⟨row, accepts, targets', gateway, external, others, remembered⟩ :=
              acceptCancel_accepts wf targets enabled stored (keeps command rfl request stored same) done
            refine .accepts row accepts targets' (fun cancelId differs => ?_) remembered
            have other : cancelId ≠ command.cancelId :=
              fun same => differs ⟨gateway, external.trans (by rw [same])⟩
            simp only [loadCancelTargets, Table.selectOrdered, others cancelId other]
          · cases done
            exact .stays (.refl _) (fun _ => rfl)
  | _ => exact .stays (perform_mailboxesStay id performed) (fun ingress => absurd ingress id)

-----------------------------------------------------------------------------------------
-- Histories
-----------------------------------------------------------------------------------------

/-- The histories of a database whose counters start at zero, as its schema has it. -/
def mailboxes : System World Call where
  Initial w := ∃ actors identities, (∀ actor ∈ actors, actor.nextMailboxSequence = 0)
    ∧ w = World.initial actors identities
  Step := runtime.Step

/-- The events a step adds. -/
def arrivals (before after : Table EventRow) : List EventRow :=
  after.select (fun event => ∀ old ∈ before, old.id ≠ event.id)

/-- The acceptances of a call. -/
def acceptances (w : World) (call : Call) (w' : World) : List Acceptance :=
  match call.perform w.store with
  | .ok (answer, _) => (arrivals w.store.events w'.store.events).map (⟨call, answer, ·⟩)
  | .error _ => []

theorem arrivals_eq_nil {before after : Table EventRow} (stay : EventsStay before after)
    : arrivals before after = [] := by
  refine List.filter_eq_nil_iff.mpr (fun event mem fresh => ?_)
  obtain ⟨old, stored, same⟩ := stay.backward event mem
  exact of_decide_eq_true fresh old stored same.id.symm

theorem Accepts.arrivals {row : EventRow} (accepts : Accepts row s s')
    : Sqlite.arrivals s.events s'.events = [row] := by
  obtain ⟨moved, stay, inserted⟩ := accepts.events
  have unclashing := Table.fresh_of_insert? inserted
  have fresh : ∀ old ∈ s.events, old.id ≠ row.id := by
    intro old stored same
    obtain ⟨event, known, next⟩ := stay.forward old stored
    exact unclashing event known (Or.inl (next.id.trans same))
  have split : s'.events.rows = moved.rows ++ [row] := Table.rows_insert? inserted
  simp only [Sqlite.arrivals, Table.select, split, List.filter_append]
  rw [show moved.rows.filter _ = [] from arrivals_eq_nil stay]
  simpa using fresh

/-- What is remembered stays remembered when nothing is forgotten. -/
theorem Acceptance.Remembered.keep {entry : Acceptance} (remembered : entry.Remembered s)
    (enabled : ∀ id, actorIsEnabled s id → actorIsEnabled s' id)
    (localRequests : RequestsStay s.localRequests s'.localRequests)
    (targets
      : ∀ cancelId, entry.event.gateway = localCancelGateway →
        entry.event.externalId = .cancel cancelId →
        loadCancelTargets s' cancelId = loadCancelTargets s cancelId)
    : entry.Remembered s' := by
  obtain ⟨call, answer, event⟩ := entry
  cases call with
  | submitForActor actorId command now ids =>
      obtain ⟨isEnabled, answered, request, stored, requestId, owner, prompt, eventId⟩ := remembered
      obtain ⟨request', stored', same⟩ := localRequests request stored
      exact ⟨enabled _ isEnabled, answered, request', stored', by rw [same.row, requestId],
        by rw [same.row, owner], by rw [same.row, prompt], by rw [same.row, eventId]⟩
  | cancelForActor actorId command now ids =>
      obtain ⟨isEnabled, owner, gateway, external, payload, answered⟩ := remembered
      exact ⟨enabled _ isEnabled, owner, gateway, external, payload,
        answered.trans (by rw [targets _ gateway external])⟩
  | _ => exact remembered

/-- The acceptances so far number the events and are remembered. -/
structure Enrolled (s : Store) (log : List Acceptance) : Prop where
  numbered : ∀ actorId,
    (log.filter (·.event.actorId = actorId)).map (·.event.mailboxSequence)
      = List.range' 1 (mailboxCount s.actors actorId)
  stored : ∀ entry ∈ log, ∃ event ∈ s.events, SameEvent entry.event event
  accepted : ∀ event ∈ s.events, ∃ entry ∈ log, SameEvent entry.event event
  targets : TargetsAccepted s
  remembered : ∀ entry ∈ log, entry.Remembered s

theorem Enrolled.initial {actors : Table ActorRow} (identities : Table IdentityRow)
    (fresh : ∀ actor ∈ actors, actor.nextMailboxSequence = 0)
    : Enrolled (Store.initial actors identities) [] where
  numbered actorId := by
    have none : mailboxCount actors actorId = 0 := by
      unfold mailboxCount
      split
      · rename_i actor found
        exact fresh actor (Table.mem_of_find? found)
      · rfl
    change [] = List.range' 1 (mailboxCount actors actorId)
    rw [none]
    rfl
  stored _ mem := absurd mem List.not_mem_nil
  accepted _ mem := absurd mem (Table.not_mem_empty _)
  targets _ mem := absurd mem (Table.not_mem_empty _)
  remembered _ mem := absurd mem List.not_mem_nil

theorem Enrolled.stay {log : List Acceptance} (enrolled : Enrolled s log)
    (stay : MailboxesStay s s')
    : Enrolled s' log where
  numbered actorId := by
    rw [stay.actors]
    exact enrolled.numbered actorId
  stored entry mem := by
    obtain ⟨event, known, same⟩ := enrolled.stored entry mem
    obtain ⟨event', known', same'⟩ := stay.events.forward event known
    exact ⟨event', known', same.trans same'⟩
  accepted event mem := by
    obtain ⟨before, known, same⟩ := stay.events.backward event mem
    obtain ⟨entry, logged, same'⟩ := enrolled.accepted before known
    exact ⟨entry, logged, same'.trans same⟩
  targets := enrolled.targets.keep stay.cancelTargets stay.events.forward
  remembered entry mem := by
    refine (enrolled.remembered entry mem).keep (fun id enabled => ?_) stay.localRequests
      (fun cancelId _ _ => ?_)
    · unfold actorIsEnabled
      rwa [stay.actors]
    · unfold loadCancelTargets
      rw [stay.cancelTargets]

theorem Enrolled.accept {log : List Acceptance} (enrolled : Enrolled s log) {call : Call}
    {answer : Answer} {row : EventRow} (accepts : Accepts row s s')
    (targets : TargetsAccepted s')
    (others
      : ∀ cancelId, ¬(row.gateway = localCancelGateway ∧ row.externalId = .cancel cancelId) →
        loadCancelTargets s' cancelId = loadCancelTargets s cancelId)
    (remembered : Acceptance.Remembered s' ⟨call, answer, row⟩)
    : Enrolled s' (log ++ [⟨call, answer, row⟩]) where
  numbered actorId := by
    simp only [List.filter_append, List.map_append, enrolled.numbered actorId]
    by_cases own : row.actorId = actorId
    · subst own
      rw [accepts.counted, accepts.numbered, List.range'_1_concat]
      simp [accepts.numbered, Nat.add_comm]
    · simp [own, accepts.others actorId (Ne.symm own)]
  stored entry mem := by
    rcases List.mem_append.mp mem with old | new
    · obtain ⟨event, known, same⟩ := enrolled.stored entry old
      obtain ⟨event', known', same'⟩ := accepts.forward event known
      exact ⟨event', known', same.trans same'⟩
    · obtain ⟨moved, -, inserted⟩ := accepts.events
      rw [List.mem_singleton.mp new]
      exact ⟨row, (Table.mem_insert? inserted).mpr (Or.inr rfl), .refl row⟩
  accepted event mem := by
    obtain ⟨moved, stay, inserted⟩ := accepts.events
    rcases (Table.mem_insert? inserted).mp mem with old | rfl
    · obtain ⟨before, known, same⟩ := stay.backward event old
      obtain ⟨entry, logged, same'⟩ := enrolled.accepted before known
      exact ⟨entry, List.mem_append_left _ logged, same'.trans same⟩
    · exact ⟨_, List.mem_append_right _ (List.mem_singleton_self _), .refl event⟩
  targets := targets
  remembered entry mem := by
    rcases List.mem_append.mp mem with old | new
    · refine (enrolled.remembered entry old).keep accepts.enabled accepts.localRequests
        (fun cancelId gateway external => others cancelId ?_)
      rintro ⟨gateway', external'⟩
      obtain ⟨moved, stay, inserted⟩ := accepts.events
      obtain ⟨event, known, same⟩ := enrolled.stored entry old
      obtain ⟨event', known', same'⟩ := stay.forward event known
      refine Table.fresh_of_insert? inserted event' known' (Or.inr (Or.inr ⟨?_, ?_⟩))
      · rw [same', same, gateway, gateway']
      · rw [same', same, external, external']
    · exact List.mem_singleton.mp new ▸ remembered

/-- Every history enrolls its acceptances, by induction on it. -/
theorem reachable_enrolled {w : World} {log : List Acceptance}
    (reached : ((mailboxes.restrict KeepsIdOrder).recording acceptances).Reachable (w, log))
    : runtime.Reachable w ∧ Enrolled w.store log := by
  refine System.Reachable.invariant
    (J := fun state => runtime.Reachable state.1 ∧ Enrolled state.1.store state.2) ?_ ?_ reached
  · rintro ⟨w, log⟩ ⟨⟨actors, identities, fresh, rfl⟩, rfl⟩
    exact ⟨.initial ⟨actors, identities, rfl⟩, .initial identities fresh⟩
  · rintro ⟨w, log⟩ call ⟨w', log'⟩ - ⟨known, enrolled⟩ ⟨⟨keeps, admissible, rfl⟩, logged⟩
    change log' = log ++ acceptances w call (w.after call) at logged
    subst logged
    refine ⟨.step known ⟨admissible, rfl⟩, ?_⟩
    cases performed : call.perform w.store with
    | error error =>
        simp only [World.after, acceptances, performed, List.append_nil]
        exact enrolled
    | ok done =>
        obtain ⟨answer, s'⟩ := done
        simp only [World.after, acceptances, performed, World.commit_store]
        cases perform_mailboxStep (reachable_wellFormed known) enrolled.targets keeps performed with
        | stays stay _ =>
            rw [arrivals_eq_nil stay.events, List.map_nil, List.append_nil]
            exact enrolled.stay stay
        | accepts row accepts targets others remembered =>
            rw [accepts.arrivals]
            exact enrolled.accept accepts targets others remembered

-----------------------------------------------------------------------------------------
-- Repetitions
-----------------------------------------------------------------------------------------

/-- Repetitions of the call by its identity are answered with what was accepted, and change
nothing.
-/
def Acceptance.Repeated (s : Store) (entry : Acceptance) : Prop :=
  match entry.call with
  | .ingest event _ _ =>
      (∃ workItemId, entry.answer
        = .ingested (.accepted entry.event.id workItemId entry.event.mailboxSequence))
      ∧ ∀ (event' : NewInboundEvent) now ids, event'.gateway = event.gateway →
        event'.externalId = event.externalId → encodeAudience event'.audience = .ok () →
        ingest event' now ids s
          = .ok (.duplicate entry.event.id entry.event.mailboxSequence, s)
  | .submitForActor actorId command _ _ =>
      (∃ workItemId, entry.answer
        = .submitted (.accepted entry.event.id workItemId entry.event.mailboxSequence))
      ∧ ∀ (command' : LocalSubmission) now ids, command'.requestId = command.requestId →
        command'.promptSha256 = command.promptSha256 →
        ∃ workItemId, submitForActor actorId command' now ids s
          = .ok (.duplicate entry.event.id workItemId entry.event.mailboxSequence, s)
  | .cancelForActor actorId command _ _ =>
      ∃ outcome, entry.answer = .cancelled outcome
        ∧ ∀ now ids, cancelForActor actorId command now ids s = .ok (outcome, s)
  | _ => True

/-- What the store remembers answers repetitions, by cases on the call. -/
theorem Acceptance.Remembered.repeated {entry : Acceptance} (remembered : entry.Remembered s)
    (stored : ∃ event ∈ s.events, SameEvent entry.event event)
    : entry.Repeated s := by
  obtain ⟨event, known, same⟩ := stored
  obtain ⟨call, answer, row⟩ := entry
  cases call with
  | ingest message now ids =>
      obtain ⟨gateway, external, answered⟩ := remembered
      refine ⟨answered, fun message' now ids gateway' external' audience => ?_⟩
      have found : s.events.find?
          (fun row => row.gateway = message'.gateway ∧ row.externalId = message'.externalId)
            = some event := by
        have own : event.gateway = message'.gateway ∧ event.externalId = message'.externalId := by
          rw [same, gateway', external']
          exact ⟨gateway, external⟩
        exact Table.find?_eq_some_of_unique known own (fun other mem match' =>
          Table.eq_of_clash mem known (Or.inr (Or.inr
            ⟨match'.1.trans own.1.symm, match'.2.trans own.2.symm⟩)))
      simp only [ingest, audience, found, bind, Except.bind, same.id, same.mailboxSequence]
  | submitForActor actorId command now ids =>
      obtain ⟨enabled, answered, request, mem, requestId, owner, prompt, eventId⟩ := remembered
      refine ⟨answered, fun command' now ids requestId' prompt' => ⟨request.workItemId, ?_⟩⟩
      have eventSame : event.id = request.eventId := same.id.trans eventId.symm
      have found : s.localRequests.find? (fun request => request.requestId = command'.requestId
          ∧ ∃ event ∈ s.events, event.id = request.eventId) = some request :=
        Table.find?_eq_some_of_unique mem
          ⟨requestId.trans requestId'.symm, event, known, eventSame⟩
          (fun other stored same => Table.eq_of_clash stored mem
            (Or.inl (same.1.trans (requestId'.trans requestId.symm))))
      have foundEvent : s.events.find? (·.id = request.eventId) = some event :=
        Table.find?_eq_some_of_unique known eventSame
          (fun other stored same => Table.eq_of_clash stored known
            (Or.inl (same.trans eventSame.symm)))
      simp only [submitForActor, if_pos enabled, found, owner, prompt, prompt', and_self, if_true,
        foundEvent, same.id, same.mailboxSequence]
  | cancelForActor actorId command now ids =>
      obtain ⟨enabled, owner, gateway, external, payload, answered⟩ := remembered
      refine ⟨_, answered, fun now ids => ?_⟩
      have own : event.gateway = localCancelGateway
          ∧ event.externalId = .cancel command.cancelId := by
        rw [same]
        exact ⟨gateway, external⟩
      have found : s.events.find? (fun event => event.gateway = localCancelGateway
          ∧ event.externalId = .cancel command.cancelId) = some event :=
        Table.find?_eq_some_of_unique known own (fun other mem match' =>
          Table.eq_of_clash mem known (Or.inr (Or.inr
            ⟨match'.1.trans own.1.symm, match'.2.trans own.2.symm⟩)))
      have actor : event.actorId = actorId := same.actorId.trans owner
      have decoded : event.payloadJson = .decoded (.cancel ⟨command.requestId, false⟩) :=
        same.payloadJson.trans payload
      simp only [cancelForActor, require, if_pos enabled, found, actor, decoded, storedCancelPayload,
        if_true, bind, Except.bind]
  | _ => exact trivial

/-- The answers that accept nothing. -/
def Answer.Refuses : Answer → Prop
  | .ingested (.duplicate _ _) | .ingested .unauthorized => True
  | .submitted (.duplicate _ _ _) | .submitted .conflict | .submitted .actorUnavailable => True
  | .cancelled outcome => outcome.alreadyTerminal = true
  | .webhook (.duplicate _) | .webhook .actorUnavailable => True
  | _ => False

/-- A refused call commits nothing, by cases on the call. -/
theorem perform_refused {call : Call} {answer : Answer} (ingress : call.IsIngress)
    (performed : call.perform s = .ok (answer, s')) (refused : answer.Refuses)
    : s' = s := by
  cases call with
  | ingest event now ids =>
      obtain ⟨_, done, rfl⟩ := answering_eq_ok.mp performed
      rcases ingest_accepts done with same | ⟨_, -, -, -, -, _, answered⟩
      · exact same
      · exact (Eq.mp (congrArg Answer.Refuses answered) refused).elim
  | submitForActor actorId command now ids =>
      obtain ⟨_, done, rfl⟩ := answering_eq_ok.mp performed
      rcases submitForActor_accepts done with same | ⟨_, -, -, -, ⟨_, answered⟩, -⟩
      · exact same
      · exact (Eq.mp (congrArg Answer.Refuses answered) refused).elim
  | ingestWebhook event now ids =>
      obtain ⟨_, done, rfl⟩ := answering_eq_ok.mp performed
      rcases ingestWebhook_accepts done with same | ⟨_, -, -, _, _, answered⟩
      · exact same
      · exact (Eq.mp (congrArg Answer.Refuses answered) refused).elim
  | cancelForActor actorId command now ids =>
      obtain ⟨outcome, done, rfl⟩ := answering_eq_ok.mp performed
      simp only [cancelForActor, bind_eq_ok] at done
      obtain ⟨_, _, done⟩ := done
      split at done
      · simp only [bind_eq_ok] at done
        obtain ⟨_, _, _, _, _, _, result⟩ := done
        cases result
        rfl
      · split at done
        · cases done
        · split at done
          · simp only [acceptCancel, bind_eq_ok] at done
            obtain ⟨_, _, _, _, _, _, _, _, result⟩ := done
            cases result
            exact absurd refused Bool.false_ne_true
          · cases done
            rfl
  | _ => exact ingress.elim

/-- A call of ingress is refused or fails. -/
def World.Refuses (w : World) (call : Call) : Prop :=
  match call.perform w.store with
  | .ok (answer, _) => answer.Refuses
  | .error _ => True

/-- **Mailboxes, where cancelled requests are accepted in the order of their ids.** In every
history the events of an actor are numbered from one in the order they are accepted, as far
as its counter says, and no others are stored; repetitions of what was accepted are answered
alike and change nothing; and neither does any call that is refused.
-/
theorem mailboxes_numbered_and_idempotent {w : World} {log : List Acceptance}
    (reached : ((mailboxes.restrict KeepsIdOrder).recording acceptances).Reachable (w, log))
    : (∀ actorId, (log.filter (·.event.actorId = actorId)).map (·.event.mailboxSequence)
        = List.range' 1 (mailboxCount w.store.actors actorId))
      ∧ (∀ entry ∈ log, ∃ event ∈ w.store.events, SameEvent entry.event event)
      ∧ (∀ event ∈ w.store.events, ∃ entry ∈ log, SameEvent entry.event event)
      ∧ (∀ entry ∈ log, entry.Repeated w.store)
      ∧ ∀ call, call.IsIngress → w.Refuses call → w.after call = w := by
  obtain ⟨-, enrolled⟩ := reachable_enrolled reached
  refine ⟨enrolled.numbered, enrolled.stored, enrolled.accepted, fun entry mem =>
    (enrolled.remembered entry mem).repeated (enrolled.stored entry mem), ?_⟩
  intro call ingress refuses
  unfold World.Refuses at refuses
  unfold World.after
  cases performed : call.perform w.store with
  | error error => rfl
  | ok done =>
      obtain ⟨answer, s'⟩ := done
      rw [performed] at refuses
      rw [perform_refused ingress performed refuses]
      cases call with
      | ingest => rfl
      | submitForActor => rfl
      | cancelForActor => rfl
      | ingestWebhook => rfl
      | _ => exact ingress.elim

namespace Reordered

/-- Two requests of one work item. -/
def submissions (first second : RequestId) : List Call :=
  [.submitForActor localActor ⟨first, "hello", "sha"⟩ 10 (.numbered 1),
    .submitForActor localActor ⟨second, "and", "sha"⟩ 20 (.numbered 2)]

/-- The one accepted first is cancelled. -/
def cancel (first : RequestId) : Call :=
  .cancelForActor localActor ⟨⟨1⟩, first⟩ 30 (.numbered 3)

def calls (first second : RequestId) : List Call :=
  submissions first second ++ [cancel first]

def world (first second : RequestId) : World := World.single.play (calls first second)

def log (first second : RequestId) : List Acceptance :=
  World.single.shown acceptances (calls first second)

end Reordered

/-- A history of one enabled actor is recorded. -/
theorem recorded_single (allowed : World → Call → Prop) (calls : List Call)
    (lawful : World.single.Lawful calls) (keeps : World.single.Keeps allowed calls)
    : ((mailboxes.restrict allowed).recording acceptances).Reachable
      (World.single.play calls, World.single.shown acceptances calls) :=
  recorded_history (rfl : mailboxes.Step = runtime.Step)
    (.initial ⟨⟨_, _, by decide, rfl⟩, rfl⟩) lawful keeps

/-- The two requests of one work item, whose ids are in order, and their cancellation. -/
theorem mailboxes_numbered_and_idempotent_inOrder
    : ((Reordered.log ⟨1⟩ ⟨2⟩).filter (·.event.actorId = localActor)).map
        (·.event.mailboxSequence) = [1, 2, 3]
      ∧ ∀ entry ∈ Reordered.log ⟨1⟩ ⟨2⟩, entry.Repeated (Reordered.world ⟨1⟩ ⟨2⟩).store := by
  have numbered := mailboxes_numbered_and_idempotent
    (recorded_single KeepsIdOrder (Reordered.calls ⟨1⟩ ⟨2⟩)
      (by decide +kernel) (by decide +kernel))
  exact ⟨by decide +kernel, numbered.2.2.2.1⟩

/-- The requests an answer lists as cancelled. -/
def Answer.affected : Answer → List RequestId
  | .cancelled outcome => outcome.affectedRequestIds
  | _ => []

/-- Repeating the cancellation of the entry lists other requests, or in another order. -/
def Acceptance.reorders (s : Store) (entry : Acceptance) : Bool :=
  match entry.call with
  | .cancelForActor actorId command _ _ =>
      match cancelForActor actorId command 40 (.numbered 4) s with
      | .ok (outcome, _) => outcome.affectedRequestIds != entry.answer.affected
      | .error _ => false
  | _ => false

/-- A repeated cancellation lists the cancelled requests in another order. -/
theorem repeated_cancellation_reorders
    : ¬∀ w log, (mailboxes.recording acceptances).Reachable (w, log) →
      ∀ entry ∈ log, entry.Repeated w.store := by
  intro repeated
  have reached := (recorded_single (fun _ _ => True) (Reordered.calls ⟨2⟩ ⟨1⟩)
    (by decide +kernel) (by decide +kernel)).recording_of_restrict
  obtain ⟨⟨call, answer, event⟩, mem, reorders⟩ : ∃ entry ∈ Reordered.log ⟨2⟩ ⟨1⟩,
      entry.reorders (Reordered.world ⟨2⟩ ⟨1⟩).store = true := by decide +kernel
  have again := repeated _ _ reached _ mem
  cases call with
  | cancelForActor actorId command now ids =>
      obtain ⟨outcome, rfl, answered⟩ := again
      have same := answered 40 (.numbered 4)
      simp [Acceptance.reorders, Reordered.world, same, Answer.affected] at reorders
  | _ => cases reorders

end Codrik.Runtime.Sqlite
