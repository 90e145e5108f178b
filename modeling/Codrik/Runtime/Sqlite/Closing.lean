import Codrik.Runtime.Sqlite.Attachment

/-! The end of a run: finalization, cancellation, the last failure and a malformed payload
all end an active run, and the invariant survives every such end.
-/

namespace Codrik.Runtime.Sqlite

open Codrik.Relational

variable {issued : List AttachedRun} {s : Store}

-----------------------------------------------------------------------------------------
-- What the end of a run does
-----------------------------------------------------------------------------------------

/-- What the end of a run does to an event: nothing, an end of its own, or a return to the
mailbox without a work item.
-/
inductive EventFate (s : Store) (run : RunRow) (event : EventRow) : EventRow → Prop
  | kept (apart : ¬Attached s run.id event.id) : EventFate s run event event
  | ended {state : EventState} {runId : Option RunId} (assigned : event.workItemId ≠ none)
      (here : event.state = .pending ∨ Attached s run.id event.id)
      (notPending : state ≠ .pending) (notProcessing : state ≠ .processing)
    : EventFate s run event { event with state := state, runId := runId }
  | requeued (kind : event.kind = .userMessage) (here : Attached s run.id event.id)
    : EventFate s run event
        { event with state := .pending, runId := none, workItemId := none }

namespace EventFate

variable {run : RunRow} {event event' : EventRow}

theorem id (fate : EventFate s run event event') : event'.id = event.id := by
  cases fate <;> rfl

theorem actorId (fate : EventFate s run event event') : event'.actorId = event.actorId := by
  cases fate <;> rfl

theorem kind (fate : EventFate s run event event') : event'.kind = event.kind := by
  cases fate <;> rfl

theorem audience (fate : EventFate s run event event')
    : event'.audience = event.audience := by
  cases fate <;> rfl

theorem mailboxSequence (fate : EventFate s run event event')
    : event'.mailboxSequence = event.mailboxSequence := by
  cases fate <;> rfl

theorem ingressSource (fate : EventFate s run event event')
    : event'.ingressSource = event.ingressSource := by
  cases fate <;> rfl

/-- An event never changes to another work item. -/
theorem workItemId (fate : EventFate s run event event') {work : WorkItemId}
    (same : event'.workItemId = some work)
    : event.workItemId = some work := by
  cases fate with
  | kept => exact same
  | ended => exact same
  | requeued => cases same

/-- An event in progress afterwards was left alone. -/
theorem of_processing (fate : EventFate s run event event')
    (inProgress : event'.state = .processing)
    : event' = event ∧ ¬Attached s run.id event.id := by
  cases fate with
  | kept apart => exact ⟨rfl, apart⟩
  | ended _ _ _ notProcessing => exact absurd inProgress notProcessing
  | requeued => cases inProgress

/-- A pending event of a work item was left alone. -/
theorem of_pending (fate : EventFate s run event event') (pending : event'.state = .pending)
    (assigned : event'.workItemId ≠ none)
    : event' = event := by
  cases fate with
  | kept => rfl
  | ended _ _ notPending => exact absurd pending notPending
  | requeued => exact absurd rfl assigned

/-- A pending cancellation was left alone. -/
theorem of_isPendingCancel (fate : EventFate s run event event')
    (pending : event'.IsPendingCancel)
    : event' = event := by
  cases fate with
  | kept => rfl
  | ended _ _ notPending => exact absurd pending.2 notPending
  | requeued kind =>
      have : event.kind = .cancelRequested := pending.1
      rw [kind] at this
      cases this

end EventFate

/-- What the end of `run` does to a run: its own row leaves `active`, all others stay. -/
def RunFate (run before after : RunRow) : Prop :=
  (before.id ≠ run.id ∧ after = before)
    ∨ (before.id = run.id ∧ after.id = before.id ∧ after.workItemId = before.workItemId
      ∧ after.actorId = before.actorId ∧ after.observedSequence = before.observedSequence
      ∧ after.state ≠ .active)

/-- What it does to a work item: only that of the run may be over afterwards. -/
structure WorkFate (run : RunRow) (before after : WorkItemRow) : Prop where
  id : after.id = before.id
  actorId : after.actorId = before.actorId
  audience : after.audience = before.audience
  mark : before.cancellationRequestedAt ≠ none → after.cancellationRequestedAt ≠ none
  finished : before.id ≠ run.workItemId → TerminalWork after.state → TerminalWork before.state

/-- What it does to a request: it may end, and follows its event to another work item. -/
structure RequestFate (s : Store) (fate : EventRow → EventRow) (before after : RequestRow)
    : Prop where
  requestId : after.requestId = before.requestId
  eventId : after.eventId = before.eventId
  actorId : after.actorId = before.actorId
  active : after.state = .active → before.state = .active
  workItemId : ∀ event ∈ s.events, event.id = before.eventId →
    after.workItemId = (fate event).workItemId

/-- How an operation ends an active run: the run leaves `active`, its work item may be over,
every event meets its fate, and the rows of the run's remaining events stay.
-/
structure Closes (run : RunRow) (fate : EventRow → EventRow) (s s' : Store) : Prop where
  stored : run ∈ s.runs
  actors : s'.actors = s.actors
  cancelTargets : s'.cancelTargets = s.cancelTargets
  fates : ∀ event ∈ s.events, EventFate s run event (fate event)
  events : ∀ row, row ∈ s'.events ↔ ∃ event ∈ s.events, fate event = row
  runs : ∀ after ∈ s'.runs, ∃ before ∈ s.runs, RunFate run before after
  runsKept : ∀ before ∈ s.runs, ∃ after ∈ s'.runs, RunFate run before after
  workItems : ∀ before ∈ s.workItems, ∃ after ∈ s'.workItems, WorkFate run before after
  rows : ∀ row ∈ s'.runEvents,
    (row ∈ s.runEvents ∧ row.runId ≠ run.id)
      ∨ (row.runId = run.id ∧ ∃ event ∈ s.events, event.id = row.eventId
        ∧ event.kind = .userMessage ∧ (fate event).state ≠ .pending
        ∧ (fate event).workItemId = some run.workItemId)
  rowsKept : ∀ row ∈ s.runEvents, row.runId ≠ run.id → row ∈ s'.runEvents
  requests : ∀ after ∈ s'.localRequests, ∃ before ∈ s.localRequests,
    RequestFate s fate before after

/-- Ending a run keeps the invariant: its work item has no other active run, and what stays
attached is no longer pending.
-/
theorem WellFormed.close (wf : WellFormed issued s) {run : RunRow} {fate : EventRow → EventRow}
    {s' : Store} (active : run.state = .active) (closes : Closes run fate s s')
    : WellFormed issued s' := by
  -- an active run afterwards is another run, left alone, of another work item
  have other : ∀ row ∈ s'.runs, row.state = .active →
      row ∈ s.runs ∧ row.id ≠ run.id ∧ row.workItemId ≠ run.workItemId := by
    intro row mem isActive
    obtain ⟨before, known, ⟨apart, rfl⟩ | ⟨_, _, _, _, _, ended⟩⟩ := closes.runs row mem
    · refine ⟨known, apart, fun same => apart ?_⟩
      have : row = run :=
        Table.eq_of_clash known closes.stored (Or.inr ⟨isActive, active, same⟩)
      exact this ▸ rfl
    · exact absurd isActive ended
  -- an event attached to another run is left alone
  have kept : ∀ link ∈ s.runEvents, link.runId ≠ run.id → ∀ event ∈ s.events,
      event.id = link.eventId → fate event = event := by
    intro link linked apart event known same
    have notHere : ¬Attached s run.id event.id := by
      rintro ⟨row, stored, here, sameEvent⟩
      have : row = link := Table.eq_of_clash stored linked (sameEvent.trans same)
      exact apart (this ▸ here)
    have notPending : event.state ≠ .pending := by
      obtain ⟨_, _, _, row, stored, sameRow, _, notPending, _⟩ := wf.rowRun link linked
      have : row = event :=
        Table.eq_of_clash stored known (Or.inl (sameRow.trans same.symm))
      exact this ▸ notPending
    have fated := closes.fates event known
    generalize fate event = event' at fated ⊢
    cases fated with
    | kept => rfl
    | ended _ here => exact absurd here (by simp [notHere, notPending])
    | requeued _ here => exact absurd here notHere
  have keptRun : ∀ before ∈ s.runs, before.id ≠ run.id → before ∈ s'.runs := by
    intro before known apart
    obtain ⟨row, mem, ⟨_, rfl⟩ | ⟨same, _⟩⟩ := closes.runsKept before known
    · exact mem
    · exact absurd same apart
  constructor
  case eventActor =>
    intro row mem
    obtain ⟨event, known, rfl⟩ := (closes.events row).mp mem
    rw [(closes.fates event known).mailboxSequence, (closes.fates event known).actorId,
      closes.actors]
    exact wf.eventActor event known
  case eventKind =>
    intro row mem
    obtain ⟨event, known, rfl⟩ := (closes.events row).mp mem
    rw [(closes.fates event known).kind]
    exact wf.eventKind event known
  case eventWork =>
    intro row mem id same
    obtain ⟨event, known, rfl⟩ := (closes.events row).mp mem
    have fated := closes.fates event known
    obtain ⟨work, stored, workId, actor, audience⟩ :=
      wf.eventWork event known id (fated.workItemId same)
    obtain ⟨work', stored', next⟩ := closes.workItems work stored
    exact ⟨work', stored', next.id.trans workId, by rw [next.actorId, actor, fated.actorId],
      by rw [next.audience, audience, fated.audience]⟩
  case eventFree =>
    intro row mem free
    obtain ⟨event, known, rfl⟩ := (closes.events row).mp mem
    have fated := closes.fates event known
    generalize fate event = event' at fated free ⊢
    cases fated with
    | kept => exact wf.eventFree event known free
    | ended assigned => exact absurd free assigned
    | requeued kind => exact ⟨rfl, kind⟩
  case eventSource =>
    intro row mem other mem' id same same' source source'
    obtain ⟨event, known, rfl⟩ := (closes.events row).mp mem
    obtain ⟨event', known', rfl⟩ := (closes.events other).mp mem'
    have fated := closes.fates event known
    have fated' := closes.fates event' known'
    rw [fated.id, fated'.id]
    rw [fated.ingressSource] at source
    rw [fated'.ingressSource] at source'
    exact wf.eventSource event known event' known' id (fated.workItemId same)
      (fated'.workItemId same') source source'
  case runWork =>
    intro row mem
    obtain ⟨before, known, change⟩ := closes.runs row mem
    obtain ⟨work, stored, workId, actor, live⟩ := wf.runWork before known
    obtain ⟨work', stored', next⟩ := closes.workItems work stored
    refine ⟨work', stored', ?_⟩
    rcases change with ⟨apart, rfl⟩ | ⟨-, -, sameWork, sameOwner, -, ended⟩
    · refine ⟨next.id.trans workId, next.actorId.trans actor, fun isActive terminal => ?_⟩
      exact live isActive (next.finished (workId ▸ (other row mem isActive).2.2) terminal)
    · exact ⟨by rw [next.id, workId, sameWork], by rw [next.actorId, actor, sameOwner],
        fun isActive => absurd isActive ended⟩
  case runActor =>
    intro row mem
    obtain ⟨before, known, change⟩ := closes.runs row mem
    rw [closes.actors]
    rcases change with ⟨-, rfl⟩ | ⟨-, -, -, sameOwner, sameObserved, -⟩
    · exact wf.runActor row known
    · rw [sameOwner, sameObserved]
      exact wf.runActor before known
  case runBacked =>
    intro row mem isActive
    obtain ⟨stored, apart, -⟩ := other row mem isActive
    refine (wf.runBacked row stored isActive).transfer ?_
    rintro event eventStored ⟨link, linked, sameRun, sameEvent⟩
    have notHere : link.runId ≠ run.id := fun here => apart (sameRun.symm.trans here)
    have same := kept link linked notHere event eventStored sameEvent.symm
    exact ⟨event, (closes.events event).mpr ⟨event, eventStored, same⟩,
      ⟨link, closes.rowsKept link linked notHere, sameRun, sameEvent⟩, rfl, rfl⟩
  case rowRun =>
    intro link mem
    rcases closes.rows link mem with ⟨linked, apart⟩ |
      ⟨here, event, stored, same, kind, state, ofWork⟩
    · obtain ⟨before, known, sameRun, event, stored, same, kind, notPending, progress⟩ :=
        wf.rowRun link linked
      have := kept link linked apart event stored same
      exact ⟨before, keptRun before known (fun h => apart (sameRun.symm.trans h)), sameRun,
        event, (closes.events event).mpr ⟨event, stored, this⟩, same, kind, notPending,
        progress⟩
    · obtain ⟨row, mem', ⟨apart, -⟩ | ⟨-, sameId, sameWork, -, -, ended⟩⟩ :=
        closes.runsKept run closes.stored
      · exact absurd rfl apart
      · have fated := closes.fates event stored
        exact ⟨row, mem', sameId.trans here.symm, fate event,
          (closes.events _).mpr ⟨event, stored, rfl⟩, fated.id.trans same,
          fated.kind.trans kind, state, sameWork ▸ ofWork,
          fun isActive => absurd isActive ended⟩
  case processing =>
    intro row mem inProgress
    obtain ⟨event, known, rfl⟩ := (closes.events row).mp mem
    obtain ⟨same, apart⟩ := (closes.fates event known).of_processing inProgress
    rw [same] at inProgress ⊢
    obtain ⟨link, linked, sameEvent, holder, held, sameRun, isActive⟩ :=
      wf.processing event known inProgress
    have notHere : link.runId ≠ run.id := fun here => apart ⟨link, linked, here, sameEvent⟩
    exact ⟨link, closes.rowsKept link linked notHere, sameEvent, holder,
      keptRun holder held (fun h => notHere (sameRun.symm.trans h)), sameRun, isActive⟩
  case requestEvent =>
    intro request' mem
    obtain ⟨request, known, next⟩ := closes.requests request' mem
    obtain ⟨event, stored, same, -, sameActor, kind, audience⟩ :=
      wf.requestEvent request known
    have fated := closes.fates event stored
    exact ⟨fate event, (closes.events _).mpr ⟨event, stored, rfl⟩, by
      rw [fated.id, same, next.eventId], (next.workItemId event stored same).symm, by
      rw [fated.actorId, sameActor, next.actorId], fated.kind.trans kind,
      fated.audience.trans audience⟩
  case cancel =>
    intro control mem pending
    obtain ⟨event, known, rfl⟩ := (closes.events control).mp mem
    have same := (closes.fates event known).of_isPendingCancel pending
    rw [same] at pending ⊢
    obtain ⟨gateway, audience, cancelId, external, work, stored, ofWork, mark, targets⟩ :=
      wf.cancel event known pending
    obtain ⟨work', stored', next⟩ := closes.workItems work stored
    refine ⟨gateway, audience, cancelId, external, work', stored', by rw [ofWork, next.id],
      next.mark mark, fun request' mem' ofWork' isActive => ?_⟩
    obtain ⟨request, original, next'⟩ := closes.requests request' mem'
    obtain ⟨owner, ownerStored, sameOwner, ownerWork, -⟩ := wf.requestEvent request original
    have inWork : owner.workItemId = some work.id :=
      (closes.fates owner ownerStored).workItemId
        ((next'.workItemId owner ownerStored sameOwner).symm.trans (next.id ▸ ofWork'))
    rw [next'.requestId, closes.cancelTargets]
    exact targets request original (ownerWork.symm.trans inWork) (next'.active isActive)
  case belowCancels =>
    intro row mem isActive control mem' pending actor
    obtain ⟨stored, -, -⟩ := other row mem isActive
    obtain ⟨event, known, rfl⟩ := (closes.events control).mp mem'
    have same := (closes.fates event known).of_isPendingCancel pending
    rw [same] at pending actor ⊢
    exact wf.belowCancels row stored isActive event known pending actor
  case belowPending =>
    intro row mem isActive event' mem' pending ofWork
    obtain ⟨stored, -, -⟩ := other row mem isActive
    obtain ⟨event, known, rfl⟩ := (closes.events event').mp mem'
    have same := (closes.fates event known).of_pending pending (by simp [ofWork])
    rw [same] at pending ofWork ⊢
    exact wf.belowPending row stored isActive event known pending ofWork
  case issuedRun =>
    intro handed mem
    obtain ⟨before, known, id, work, actor, behind⟩ := wf.issuedRun handed mem
    obtain ⟨row, mem', ⟨-, rfl⟩ | ⟨-, sameId, sameWork, sameActor, sameObserved, -⟩⟩ :=
      closes.runsKept before known
    · exact ⟨row, mem', id, work, actor, behind⟩
    · exact ⟨row, mem', sameId.trans id, sameWork.trans work, sameActor.trans actor,
        sameObserved ▸ behind⟩
  case issuedAudience =>
    intro handed mem
    obtain ⟨work, stored, workId, actor, audience⟩ := wf.issuedAudience handed mem
    obtain ⟨work', stored', next⟩ := closes.workItems work stored
    exact ⟨work', stored', next.id.trans workId, next.actorId.trans actor,
      next.audience.trans audience⟩

-----------------------------------------------------------------------------------------
-- The operations that end a run
-----------------------------------------------------------------------------------------

/-- An update that finishes the run's own row. -/
theorem RunFate.finish {run before : RunRow} {state : RunState} {now : Timestamp} {p : Prop}
    [Decidable p] (hits : p ↔ before.id = run.id) (ended : state ≠ .active)
    : RunFate run before (if p then before.finish state now else before) := by
  split
  · exact Or.inr ⟨hits.mp ‹_›, rfl, rfl, rfl, rfl, ended⟩
  · exact Or.inl ⟨fun same => ‹¬p› (hits.mpr same), rfl⟩

/-- An update of the run's work item that keeps what the invariant reads. -/
theorem WorkFate.update {run : RunRow} {before after : WorkItemRow} {p : Prop} [Decidable p]
    (hits : p → before.id = run.workItemId) (id : after.id = before.id)
    (actorId : after.actorId = before.actorId) (audience : after.audience = before.audience)
    (mark : after.cancellationRequestedAt = before.cancellationRequestedAt)
    : WorkFate run before (if p then after else before) := by
  split
  · exact ⟨id, actorId, audience, fun marked => mark ▸ marked, fun other => absurd (hits ‹_›) other⟩
  · exact ⟨rfl, rfl, rfl, fun marked => marked, fun _ finished => finished⟩

/-- The event of a request, in a well-formed store. -/
theorem WellFormed.eventOf (wf : WellFormed issued s) {request : RequestRow} {event : EventRow}
    (known : request ∈ s.localRequests) (stored : event ∈ s.events)
    (same : event.id = request.eventId)
    : event.workItemId = request.workItemId := by
  obtain ⟨event', stored', same', work, -⟩ := wf.requestEvent request known
  have : event' = event := Table.eq_of_clash stored' stored (Or.inl (same'.trans same.symm))
  exact this ▸ work

/-- The fate of an event whose run a malformed payload ends. -/
def blockedFate (s : Store) (row : RunRow) (batch : List EventRow) (event : EventRow)
    : EventRow :=
  if Joins s row batch event then
    { event with
      state := .blocked
      runId :=
        if event.state = .pending ∧ event.id ∈ batch.map (·.id) then some row.id
        else event.runId }
  else
    event

theorem blockedFate_workItemId (s : Store) (row : RunRow) (batch : List EventRow)
    (event : EventRow)
    : (blockedFate s row batch event).workItemId = event.workItemId := by
  unfold blockedFate
  split <;> rfl

/-- A malformed payload ends the run that it was attached to. -/
theorem blockMalformed_closes (wf : WellFormed issued s) {row : RunRow} {maxEvents : Nat}
    {t : Store} {code message : String} {now : Timestamp} (runStored : row ∈ s.runs)
    (active : row.state = .active) (takes : Takes row (nextInput s row maxEvents) s t)
    : Closes row (blockedFate s row (nextInput s row maxEvents)) s
        (blockMalformed code message row now t) := by
  have attachedFate : ∀ event ∈ s.events, Attached s row.id event.id →
      (blockedFate s row (nextInput s row maxEvents) event).state ≠ .pending := by
    intro event stored attached
    simp [blockedFate, Joins, attached]
  exact {
    stored := runStored
    actors := takes.actors
    cancelTargets := takes.cancelTargets
    fates := by
      intro event stored
      unfold blockedFate
      by_cases attached : Attached s row.id event.id
      · have progress := wf.inProgress runStored active stored attached
        rw [if_pos (show Joins _ _ _ event from Or.inl attached)]
        exact .ended (by simp [progress.workItemId]) (Or.inr attached) (by decide) (by decide)
      · by_cases listed : event.id ∈ (nextInput s row maxEvents).map (·.id)
        · obtain ⟨taken, mem, same⟩ := List.mem_map.mp listed
          obtain ⟨takenStored, -, ofWork, pending, -⟩ := of_mem_nextInput mem
          have : taken = event := Table.eq_of_clash takenStored stored (Or.inl same)
          subst this
          rw [if_pos (show Joins _ _ _ taken from Or.inr listed)]
          exact .ended (by simp [ofWork]) (Or.inl pending) (by decide) (by decide)
        · rw [if_neg (by simp [Joins, attached, listed])]
          exact .kept attached
    events := by
      intro event'
      simp only [blockMalformed, Table.mem_updateWhere, takes.events, takes.attached_iff]
      have fated : ∀ event : EventRow, (if Joins s row (nextInput s row maxEvents)
            (if event.state = .pending ∧ event.id ∈ (nextInput s row maxEvents).map (·.id) then
              event.take row.id else event)
          then
            { (if event.state = .pending ∧ event.id ∈ (nextInput s row maxEvents).map (·.id) then
                event.take row.id else event) with state := .blocked }
          else
            (if event.state = .pending ∧ event.id ∈ (nextInput s row maxEvents).map (·.id) then
              event.take row.id else event))
          = blockedFate s row (nextInput s row maxEvents) event := by
        intro event
        unfold blockedFate Joins
        by_cases taken : event.state = .pending
          ∧ event.id ∈ (nextInput s row maxEvents).map (·.id)
        · simp [taken, EventRow.take]
        · simp only [taken, if_false]
      constructor
      · rintro ⟨_, ⟨event, stored, rfl⟩, rfl⟩
        exact ⟨event, stored, (fated event).symm⟩
      · rintro ⟨event, stored, rfl⟩
        exact ⟨_, ⟨event, stored, rfl⟩, fated event⟩
    runs := by
      intro after mem
      obtain ⟨before, known, rfl⟩ := Table.mem_updateWhere.mp mem
      exact ⟨before, takes.runs ▸ known, .finish Iff.rfl (by decide)⟩
    runsKept := by
      intro before known
      exact ⟨_, Table.updateWhere_mem (takes.runs.symm ▸ known), .finish Iff.rfl (by decide)⟩
    workItems := by
      intro before known
      exact ⟨_, Table.updateWhere_mem (takes.workItems.symm ▸ known),
        .update (fun same => same) rfl rfl rfl rfl⟩
    rows := by
      intro link mem
      rcases (takes.rows link).mp mem with linked | ⟨event, taken, rfl⟩
      · by_cases here : link.runId = row.id
        · obtain ⟨-, -, -, event, stored, same, kind, -⟩ := wf.rowRun link linked
          have attached : Attached s row.id event.id := ⟨link, linked, here, same.symm⟩
          refine Or.inr ⟨here, event, stored, same, kind, attachedFate event stored attached, ?_⟩
          rw [blockedFate_workItemId]
          exact (wf.inProgress runStored active stored attached).workItemId
        · exact Or.inl ⟨linked, here⟩
      · obtain ⟨stored, -, ofWork, -, kind, -⟩ := of_mem_nextInput taken
        refine Or.inr ⟨rfl, event, stored, rfl, (wf.eventKind event stored).resolve_right kind, ?_,
          by rwa [blockedFate_workItemId]⟩
        have joins : Joins s row (nextInput s row maxEvents) event :=
          Or.inr (List.mem_map_of_mem taken)
        simp [blockedFate, joins]
    rowsKept := fun link linked _ => (takes.rows link).mpr (Or.inl linked)
    requests := by
      intro request mem
      have known : request ∈ s.localRequests := takes.localRequests ▸ mem
      refine ⟨request, known, rfl, rfl, rfl, fun active => active, fun event stored same => ?_⟩
      rw [← wf.eventOf known stored same]
      unfold blockedFate
      split <;> rfl }

/-- Settled requests stay with their events. -/
theorem Settles.requestFate (wf : WellFormed issued s) {terminal : TerminalState}
    {requestIds : List RequestId} {requests : Table RequestRow} {fate : EventRow → EventRow}
    (settles : Settles terminal requestIds s.localRequests requests)
    (stays : ∀ event ∈ s.events, (fate event).workItemId = event.workItemId)
    : ∀ after ∈ requests, ∃ before ∈ s.localRequests, RequestFate s fate before after := by
  intro after mem
  obtain ⟨before, known, change⟩ := settles.backward after mem
  have work : ∀ event ∈ s.events, event.id = before.eventId →
      before.workItemId = (fate event).workItemId := fun event stored same =>
    (wf.eventOf known stored same).symm.trans (stays event stored).symm
  refine ⟨before, known, ?_⟩
  rcases change with rfl | ⟨-, -, bundle, rfl⟩
  · exact ⟨rfl, rfl, rfl, fun active => active, work⟩
  · exact ⟨rfl, rfl, rfl, fun active => absurd active terminal.request_ne_active, work⟩

/-- A row of the run in the transcript is the only row of its event. -/
theorem attached_of_incorporated {runId : RunId} {eventId : EventId}
    (incorporated : Incorporated s runId eventId)
    : Attached s runId eventId := by
  obtain ⟨link, linked, here, same, -⟩ := incorporated
  exact ⟨link, linked, here, same⟩

/-- The fate of an event whose run is finalized. -/
def completedFate (s : Store) (row : RunRow) (state : EventState) (event : EventRow)
    : EventRow :=
  if Incorporated s row.id event.id then { event with state := state } else event

/-- A finalization ends its run with all its events. -/
theorem Completes.closes (wf : WellFormed issued s) {run : AttachedRun} {now : Timestamp}
    {terminal : TerminalState} {s' : Store} {row : RunRow} {work : WorkItemRow}
    (completes : Completes run now terminal s s') (valid : Validated s run now row work)
    : Closes row (completedFate s row terminal.event) s s' := by
  obtain ⟨-, incorporated, messages, requests, t, settles, same, rfl⟩ := completes
  obtain ⟨_, _, _, _, _, rfl⟩ := same
  have transcript : ∀ link ∈ s.runEvents, link.runId = row.id →
      Incorporated s row.id link.eventId := fun link linked here =>
    ⟨link, linked, here, rfl, incorporated link linked (here.trans valid.runId)⟩
  exact {
    stored := valid.runStored
    actors := rfl
    cancelTargets := rfl
    fates := by
      intro event stored
      unfold completedFate
      split
      · have attached := attached_of_incorporated ‹_›
        have progress := wf.inProgress valid.runStored valid.active stored attached
        refine .ended (by simp [progress.workItemId]) (Or.inr attached) ?_ ?_ <;>
          cases terminal <;> decide
      · refine .kept (fun ⟨link, linked, here, sameEvent⟩ => ?_)
        exact ‹¬_› (sameEvent ▸ transcript link linked here)
    events := by
      intro event'
      simp only [completeRun, Table.mem_updateWhere, completedFate, valid.runId]
      exact Iff.rfl
    runs := by
      intro after mem
      obtain ⟨before, known, rfl⟩ := Table.mem_updateWhere.mp mem
      refine ⟨before, known, .finish ⟨fun hit => hit.1.trans valid.runId.symm, fun here => ?_⟩
        terminal.run_ne_active⟩
      have : before = row := Table.eq_of_clash known valid.runStored (Or.inl here)
      exact this ▸ ⟨valid.runId, valid.active⟩
    runsKept := by
      intro before known
      refine ⟨_, Table.updateWhere_mem known,
        .finish ⟨fun hit => hit.1.trans valid.runId.symm, fun here => ?_⟩
          terminal.run_ne_active⟩
      have : before = row := Table.eq_of_clash known valid.runStored (Or.inl here)
      exact this ▸ ⟨valid.runId, valid.active⟩
    workItems := by
      intro before known
      exact ⟨_, Table.updateWhere_mem known,
        .update (fun same => same.trans valid.workItemId.symm) rfl rfl rfl rfl⟩
    rows := by
      intro link linked
      by_cases here : link.runId = row.id
      · obtain ⟨-, -, -, event, stored, sameEvent, kind, -⟩ := wf.rowRun link linked
        have progress := wf.inProgress valid.runStored valid.active stored
          ⟨link, linked, here, sameEvent.symm⟩
        have fated : completedFate s row terminal.event event
            = { event with state := terminal.event } :=
          if_pos (sameEvent ▸ transcript link linked here)
        refine Or.inr ⟨here, event, stored, sameEvent, kind, ?_, fated ▸ progress.workItemId⟩
        rw [fated]
        change terminal.event ≠ .pending
        cases terminal <;> decide
      · exact Or.inl ⟨linked, here⟩
    rowsKept := fun link linked _ => linked
    requests := settles.requestFate wf (fun event _ => by
      unfold completedFate
      split <;> rfl) }

/-- The fate of an event when its work item is cancelled. -/
def cancelledFate (run : AttachedRun) (control : ControlEvent) (event : EventRow) : EventRow :=
  if PendingCancel run control event ∨ (event.workItemId = some run.workItemId
      ∧ (event.state = .pending ∨ event.state = .processing)) then
    { event with state := .cancelled }
  else
    event

/-- A cancellation ends its run with all open events of the work item. -/
theorem Cancels.closes (wf : WellFormed issued s) {run : AttachedRun} {control : ControlEvent}
    {now : Timestamp} {s' : Store} {row : RunRow} {work : WorkItemRow}
    (cancels : Cancels run control now s s') (valid : Validated s run now row work)
    : Closes row (cancelledFate run control) s s' := by
  obtain ⟨-, -, terminal, requests, t, -, settles, same, rfl⟩ := cancels
  obtain ⟨_, _, _, _, _, rfl⟩ := same
  have open' : ∀ event ∈ s.events, Attached s row.id event.id →
      event.workItemId = some run.workItemId ∧ event.state = .processing := by
    intro event stored attached
    have progress := wf.inProgress valid.runStored valid.active stored attached
    exact ⟨valid.workItemId ▸ progress.workItemId, progress.state⟩
  exact {
    stored := valid.runStored
    actors := rfl
    cancelTargets := rfl
    fates := by
      intro event stored
      unfold cancelledFate
      split
      · rename_i hit
        rcases hit with consumed | ⟨ofWork, pending | inProgress⟩
        · obtain ⟨-, -, -, -, marked, -, ofWork, -⟩ :=
            wf.cancel event stored ⟨consumed.2.2.2, consumed.2.2.1⟩
          exact .ended (by simp [ofWork]) (Or.inl consumed.2.2.1) (by decide) (by decide)
        · exact .ended (by simp [ofWork]) (Or.inl pending) (by decide) (by decide)
        · obtain ⟨link, linked, sameEvent, holder, held, sameRun, active⟩ :=
            wf.processing event stored inProgress
          have attached : Attached s holder.id event.id :=
            ⟨link, linked, sameRun.symm, sameEvent⟩
          have progress := wf.inProgress held active stored attached
          have : holder = row := Table.eq_of_clash held valid.runStored (Or.inr ⟨active,
            valid.active, Option.some.inj (progress.workItemId.symm.trans
              (ofWork.trans (congrArg some valid.workItemId.symm)))⟩)
          exact .ended (by simp [ofWork]) (Or.inr (this ▸ attached)) (by decide) (by decide)
      · refine .kept (fun attached => ‹¬_› (Or.inr ?_))
        obtain ⟨ofWork, inProgress⟩ := open' event stored attached
        exact ⟨ofWork, Or.inr inProgress⟩
    events := by
      intro event'
      refine (Table.mem_updateWhere.trans Table.exists_mem_updateWhere).trans ?_
      refine exists_congr fun event => and_congr_right fun _ => ?_
      unfold cancelledFate
      by_cases consumed : PendingCancel run control event
      · simp [consumed]
      · simp [consumed]
    runs := by
      intro after mem
      obtain ⟨before, known, rfl⟩ := Table.mem_updateWhere.mp mem
      exact ⟨before, known, .finish (by rw [valid.runId]) (by decide)⟩
    runsKept := by
      intro before known
      exact ⟨_, Table.updateWhere_mem known, .finish (by rw [valid.runId]) (by decide)⟩
    workItems := by
      intro before known
      exact ⟨_, Table.updateWhere_mem known,
        .update (fun same => same.trans valid.workItemId.symm) rfl rfl rfl rfl⟩
    rows := by
      intro link linked
      by_cases here : link.runId = row.id
      · obtain ⟨-, -, -, event, stored, sameEvent, kind, -⟩ := wf.rowRun link linked
        obtain ⟨ofWork, inProgress⟩ := open' event stored ⟨link, linked, here, sameEvent.symm⟩
        refine Or.inr ⟨here, event, stored, sameEvent, kind, ?_, ?_⟩
        · simp [cancelledFate, ofWork, inProgress]
        · simp [cancelledFate, ofWork, inProgress, valid.workItemId]
      · exact Or.inl ⟨linked, here⟩
    rowsKept := fun link linked _ => linked
    requests := settles.requestFate wf (fun event _ => by
      unfold cancelledFate
      split <;> rfl) }

/-- The fate of an event whose run failed for the last time. -/
def failedFate (s : Store) (row : RunRow) (event : EventRow) : EventRow :=
  if Unincorporated s row.id event.id then
    { event with state := .pending, runId := none, workItemId := none }
  else if Incorporated s row.id event.id then
    { event with state := .failedTerminal }
  else
    event

/-- The two updates of the last failure make up the fate of an event, since no event is both
in the transcript and outside.
-/
theorem failedFate_eq {t : Store} {row : RunRow} {event : EventRow}
    (rows : t.runEvents = s.runEvents)
    (exclusive : Unincorporated s row.id event.id → ¬Incorporated s row.id event.id)
    : (if Unincorporated t row.id (if Incorporated t row.id event.id then
            { event with state := .failedTerminal } else event).id then
          { (if Incorporated t row.id event.id then
              { event with state := .failedTerminal } else event) with
            state := .pending, runId := none, workItemId := none }
        else if Incorporated t row.id event.id then
          { event with state := .failedTerminal }
        else
          event)
      = failedFate s row event := by
  have into' : Incorporated t row.id event.id ↔ Incorporated s row.id event.id := by
    simp only [Incorporated, rows]
  have out' : ∀ id, Unincorporated t row.id id ↔ Unincorporated s row.id id := by
    simp only [Unincorporated, rows, implies_true]
  simp only [into', out', failedFate]
  by_cases into : Incorporated s row.id event.id
  · have out : ¬Unincorporated s row.id event.id := fun out => exclusive out into
    simp [into, out]
  · simp [into]

/-- The last failure ends its run; input outside the transcript returns to the mailbox. -/
theorem Fails.closes (wf : WellFormed issued s) {row : RunRow} {error : String}
    {now : Timestamp} {s' : Store} (runStored : row ∈ s.runs) (active : row.state = .active)
    (fails : Fails row error now s s')
    : Closes row (failedFate s row) s s' := by
  obtain ⟨terminal, requests, t, settles, -, same, rfl⟩ := fails
  obtain ⟨_, _, _, _, _, rfl⟩ := same
  -- an event has one row, so its message is in the transcript or not
  have exclusive : ∀ eventId, Unincorporated s row.id eventId →
      ¬Incorporated s row.id eventId := by
    rintro eventId ⟨link, linked, -, sameEvent, out⟩ ⟨link', linked', -, sameEvent', into⟩
    have : link = link' := Table.eq_of_clash linked linked' (sameEvent.trans sameEvent'.symm)
    rw [this, into] at out
    cases out
  have attached : ∀ eventId, Unincorporated s row.id eventId → Attached s row.id eventId := by
    rintro eventId ⟨link, linked, here, sameEvent, -⟩
    exact ⟨link, linked, here, sameEvent⟩
  exact {
    stored := runStored
    actors := rfl
    cancelTargets := rfl
    fates := by
      intro event stored
      unfold failedFate
      split
      · have here := attached event.id ‹_›
        obtain ⟨link, linked, sameRun, sameEvent⟩ := here
        obtain ⟨-, -, -, event', stored', sameEvent', kind, -⟩ := wf.rowRun link linked
        have : event' = event :=
          Table.eq_of_clash stored' stored (Or.inl (sameEvent'.trans sameEvent))
        exact .requeued (this ▸ kind) ⟨link, linked, sameRun, sameEvent⟩
      · split
        · have here := attached_of_incorporated ‹_›
          have progress := wf.inProgress runStored active stored here
          exact .ended (by simp [progress.workItemId]) (Or.inr here) (by decide) (by decide)
        · refine .kept (fun ⟨link, linked, here, sameEvent⟩ => ?_)
          cases out : link.incorporated with
          | false => exact ‹¬Unincorporated _ _ _› ⟨link, linked, here, sameEvent, out⟩
          | true => exact ‹¬Incorporated _ _ _› ⟨link, linked, here, sameEvent, out⟩
    events := by
      intro event'
      refine (Table.mem_updateWhere.trans Table.exists_mem_updateWhere).trans ?_
      refine exists_congr fun event => and_congr_right fun _ => ?_
      rw [← failedFate_eq rfl (exclusive event.id)]
      exact Iff.rfl
    runs := by
      intro after mem
      obtain ⟨before, known, rfl⟩ := Table.mem_updateWhere.mp mem
      exact ⟨before, known, .finish Iff.rfl (by decide)⟩
    runsKept := by
      intro before known
      exact ⟨_, Table.updateWhere_mem known, .finish Iff.rfl (by decide)⟩
    workItems := by
      intro before known
      exact ⟨_, Table.updateWhere_mem known, .update (fun same => same) rfl rfl rfl rfl⟩
    rows := by
      intro link mem
      obtain ⟨linked, kept⟩ := Table.mem_deleteWhere.mp mem
      by_cases here : link.runId = row.id
      · obtain ⟨-, -, -, event, stored, sameEvent, kind, -⟩ := wf.rowRun link linked
        have into : Incorporated s row.id event.id :=
          ⟨link, linked, here, sameEvent.symm, by simpa [here] using kept⟩
        have out : ¬Unincorporated s row.id event.id := fun out => exclusive _ out into
        have progress := wf.inProgress runStored active stored
          ⟨link, linked, here, sameEvent.symm⟩
        exact Or.inr ⟨here, event, stored, sameEvent, kind, by simp [failedFate, into, out],
          by simp [failedFate, into, out, progress.workItemId]⟩
      · exact Or.inl ⟨linked, here⟩
    rowsKept := fun link linked apart =>
      Table.mem_deleteWhere.mpr ⟨linked, fun gone => apart gone.1⟩
    requests := by
      intro after mem
      obtain ⟨settled, known', rfl⟩ := Table.mem_updateWhere.mp mem
      obtain ⟨before, known, change⟩ := settles.backward settled known'
      have sameId : settled.requestId = before.requestId ∧ settled.eventId = before.eventId
          ∧ settled.actorId = before.actorId ∧ settled.workItemId = before.workItemId
          ∧ (settled.state = .active → before.state = .active) := by
        rcases change with rfl | ⟨-, -, bundle, rfl⟩
        · exact ⟨rfl, rfl, rfl, rfl, fun active => active⟩
        · exact ⟨rfl, rfl, rfl, rfl, fun active => absurd active terminal.request_ne_active⟩
      obtain ⟨requestId, eventId, actorId, workItemId, isActive⟩ := sameId
      refine ⟨before, known, ?_⟩
      have work : ∀ event ∈ s.events, event.id = before.eventId →
          event.workItemId = before.workItemId :=
        fun event stored same => wf.eventOf known stored same
      split <;> rename_i hit
      · have out : Unincorporated s row.id settled.eventId := hit
        refine ⟨requestId, eventId, actorId, isActive, fun event stored same => ?_⟩
        simp [failedFate, same, ← eventId, out]
      · have out : ¬Unincorporated s row.id settled.eventId := hit
        refine ⟨requestId, eventId, actorId, isActive, fun event stored same => ?_⟩
        rw [failedFate, if_neg (by rw [same, ← eventId]; exact out)]
        split <;> exact workItemId.trans (work event stored same).symm }

end Codrik.Runtime.Sqlite
