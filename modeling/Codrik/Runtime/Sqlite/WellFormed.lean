import Codrik.Runtime.Sqlite.Effects

/-! The invariant of the runtime store: how events, work items, runs and requests refer to
each other, and where runs and cancellations stand in the mailbox. Each lemma below says that
one kind of change keeps it.
-/

namespace Codrik.Runtime.Sqlite

open Codrik.Relational

-----------------------------------------------------------------------------------------
-- Statement
-----------------------------------------------------------------------------------------

/-- A work item that gets no run any more. -/
def TerminalWork (state : WorkItemState) : Prop :=
  state = .completed ∨ state = .cancelled ∨ state = .failedTerminal ∨ state = .blockedMalformed

instance : DecidablePred TerminalWork := fun _ => inferInstanceAs (Decidable (_ ∨ _))

/-- A pending cancellation names its work item, which is marked, and targets every active
request of it.
-/
def CancelAccepted (s : Store) (control : EventRow) : Prop :=
  control.gateway = localCancelGateway ∧ control.audience = .actorPrivate
    ∧ ∃ cancelId, control.externalId = .cancel cancelId
      ∧ ∃ work ∈ s.workItems, control.workItemId = some work.id
        ∧ work.cancellationRequestedAt ≠ none
        ∧ ∀ request ∈ s.localRequests, request.workItemId = some work.id →
          request.state = .active →
          ∃ target ∈ s.cancelTargets, target.cancelId = cancelId
            ∧ target.requestId = request.requestId

/-- The pending cancellation events. -/
def EventRow.IsPendingCancel (event : EventRow) : Prop :=
  event.kind = .cancelRequested ∧ event.state = .pending

/-- An attached event of an active run is in progress, belongs to the run's work item and
was observed by the run.
-/
structure InProgress (run : RunRow) (event : EventRow) : Prop where
  state : event.state = .processing
  workItemId : event.workItemId = some run.workItemId
  actorId : event.actorId = run.actorId
  runId : event.runId = some run.id
  observed : event.mailboxSequence ≤ run.observedSequence

/-- What a run knows of its input comes from its attached events. -/
def Backed (s : Store) (run : RunRow) : Prop :=
  (∀ source, run.ingressSource = some source →
      ∃ event ∈ s.events, Attached s run.id event.id ∧ event.ingressSource = some source)
    ∧ (run.observedSequence ≠ 0 →
      ∃ event ∈ s.events, Attached s run.id event.id
        ∧ event.mailboxSequence = run.observedSequence)

/-- The invariant of a store whose runs `issued` were handed out. -/
structure WellFormed (issued : List AttachedRun) (s : Store) : Prop where
  /-- Sequences are counted by the actor. -/
  eventActor : ∀ event ∈ s.events, 0 < event.mailboxSequence
    ∧ ∃ actor ∈ s.actors, actor.id = event.actorId
      ∧ event.mailboxSequence ≤ actor.nextMailboxSequence
  eventKind : ∀ event ∈ s.events, event.kind = .userMessage ∨ event.kind = .cancelRequested
  /-- An event and its work item agree on actor and audience. -/
  eventWork : ∀ event ∈ s.events, ∀ id, event.workItemId = some id →
    ∃ work ∈ s.workItems, work.id = id ∧ work.actorId = event.actorId
      ∧ work.audience = event.audience
  eventFree : ∀ event ∈ s.events, event.workItemId = none →
    event.state = .pending ∧ event.kind = .userMessage
  /-- At most one event of a work item came from a webhook. -/
  eventSource : ∀ event ∈ s.events, ∀ other ∈ s.events, ∀ id,
    event.workItemId = some id → other.workItemId = some id →
    event.ingressSource ≠ none → other.ingressSource ≠ none → event.id = other.id
  /-- Only work items that are not over have an active run. -/
  runWork : ∀ run ∈ s.runs, ∃ work ∈ s.workItems, work.id = run.workItemId
    ∧ work.actorId = run.actorId ∧ (run.state = .active → ¬TerminalWork work.state)
  runActor : ∀ run ∈ s.runs, ∃ actor ∈ s.actors, actor.id = run.actorId
    ∧ run.observedSequence ≤ actor.nextMailboxSequence
  runBacked : ∀ run ∈ s.runs, run.state = .active → Backed s run
  rowRun : ∀ row ∈ s.runEvents, ∃ run ∈ s.runs, run.id = row.runId
    ∧ ∃ event ∈ s.events, event.id = row.eventId ∧ event.kind = .userMessage
      ∧ event.state ≠ .pending ∧ event.workItemId = some run.workItemId
      ∧ (run.state = .active → InProgress run event)
  processing : ∀ event ∈ s.events, event.state = .processing →
    ∃ row ∈ s.runEvents, row.eventId = event.id
      ∧ ∃ run ∈ s.runs, run.id = row.runId ∧ run.state = .active
  /-- A request and its event share actor and work item. -/
  requestEvent : ∀ request ∈ s.localRequests, ∃ event ∈ s.events,
    event.id = request.eventId ∧ event.workItemId = request.workItemId
      ∧ event.actorId = request.actorId ∧ event.kind = .userMessage
      ∧ event.audience = .actorPrivate
  cancel : ∀ control ∈ s.events, control.IsPendingCancel → CancelAccepted s control
  /-- Active runs stand below the pending cancellations of their actor. -/
  belowCancels : ∀ run ∈ s.runs, run.state = .active → ∀ control ∈ s.events,
    control.IsPendingCancel → control.actorId = run.actorId →
    run.observedSequence < control.mailboxSequence
  /-- Active runs stand below the pending events of their work item. -/
  belowPending : ∀ run ∈ s.runs, run.state = .active → ∀ event ∈ s.events,
    event.state = .pending → event.workItemId = some run.workItemId →
    run.observedSequence < event.mailboxSequence
  /-- A run that was handed out is stored and has not fallen behind. -/
  issuedRun : ∀ run ∈ issued, ∃ row ∈ s.runs, row.id = run.runId
    ∧ row.workItemId = run.workItemId ∧ row.actorId = run.lease.actorId
    ∧ run.observedSequence ≤ row.observedSequence
  /-- A run that was handed out carries the audience of its work item. -/
  issuedAudience : ∀ run ∈ issued, ∃ work ∈ s.workItems, work.id = run.workItemId
    ∧ work.actorId = run.lease.actorId ∧ work.audience = run.audience

variable {issued : List AttachedRun} {s : Store}

/-- The empty database is well formed, as every table with an invariant is empty. -/
theorem WellFormed.initial (actors : Table ActorRow) (identities : Table IdentityRow)
    : WellFormed [] (Store.initial actors identities) := by
  constructor <;> intro _ mem <;> exact absurd mem List.not_mem_nil

/-- A run stays backed when its attached events stay, with source and sequence. -/
theorem Backed.transfer {s' : Store} {run : RunRow} (backed : Backed s run)
    (carries
      : ∀ event ∈ s.events, Attached s run.id event.id →
        ∃ event' ∈ s'.events, Attached s' run.id event'.id
          ∧ event'.ingressSource = event.ingressSource
          ∧ event'.mailboxSequence = event.mailboxSequence)
    : Backed s' run := by
  constructor
  · intro source known
    obtain ⟨event, stored, attached, same⟩ := backed.1 source known
    obtain ⟨event', stored', attached', sameSource, -⟩ := carries event stored attached
    exact ⟨event', stored', attached', sameSource.trans same⟩
  · intro positive
    obtain ⟨event, stored, attached, same⟩ := backed.2 positive
    obtain ⟨event', stored', attached', -, sameSequence⟩ := carries event stored attached
    exact ⟨event', stored', attached', sameSequence.trans same⟩

-----------------------------------------------------------------------------------------
-- Changes that only add or advance
-----------------------------------------------------------------------------------------

/-- The work item `after` may stand in for `before`: it is the same one, is not over unless
`before` was, and keeps its cancellation mark.
-/
structure Continues (before after : WorkItemRow) : Prop where
  id : after.id = before.id
  actorId : after.actorId = before.actorId
  audience : after.audience = before.audience
  live : TerminalWork after.state → TerminalWork before.state
  mark : before.cancellationRequestedAt ≠ none → after.cancellationRequestedAt ≠ none

theorem Continues.refl (work : WorkItemRow) : Continues work work :=
  ⟨rfl, rfl, rfl, fun finished => finished, fun mark => mark⟩

/-- Work items may be added and continued. -/
theorem WellFormed.withWorkItems (wf : WellFormed issued s) {workItems : Table WorkItemRow}
    (continues : ∀ work ∈ s.workItems, ∃ work' ∈ workItems, Continues work work')
    : WellFormed issued { s with workItems := workItems } :=
  { wf with
    eventWork := by
      intro event mem id same
      obtain ⟨work, stored, workId, actor, audience⟩ := wf.eventWork event mem id same
      obtain ⟨work', stored', next⟩ := continues work stored
      exact ⟨work', stored', next.id.trans workId, next.actorId.trans actor,
        next.audience.trans audience⟩
    runWork := by
      intro run mem
      obtain ⟨work, stored, workId, actor, live⟩ := wf.runWork run mem
      obtain ⟨work', stored', next⟩ := continues work stored
      exact ⟨work', stored', next.id.trans workId, next.actorId.trans actor,
        fun active finished => live active (next.live finished)⟩
    cancel := by
      intro control mem pending
      obtain ⟨gateway, audience, cancelId, external, work, stored, same, mark, targets⟩ :=
        wf.cancel control mem pending
      obtain ⟨work', stored', next⟩ := continues work stored
      exact ⟨gateway, audience, cancelId, external, work', stored', by rw [same, next.id],
        next.mark mark, by rw [next.id]; exact targets⟩
    issuedAudience := by
      intro run mem
      obtain ⟨work, stored, workId, actor, audience⟩ := wf.issuedAudience run mem
      obtain ⟨work', stored', next⟩ := continues work stored
      exact ⟨work', stored', next.id.trans workId, next.actorId.trans actor,
        next.audience.trans audience⟩ }

/-- Updating work items continues them when each updated row does. -/
theorem WellFormed.updateWorkItems (wf : WellFormed issued s) {p : WorkItemRow → Prop}
    [DecidablePred p] {f : WorkItemRow → WorkItemRow} {k : Table.KeepsKey f}
    (continues : ∀ work ∈ s.workItems, p work → Continues work (f work))
    : WellFormed issued { s with workItems := s.workItems.updateWhere p f k } := by
  refine wf.withWorkItems (fun work mem => ⟨_, Table.updateWhere_mem mem, ?_⟩)
  split
  · exact continues work mem ‹_›
  · exact .refl work

/-- A new work item may be added. -/
theorem WellFormed.insertWorkItem (wf : WellFormed issued s) {work : WorkItemRow}
    {workItems : Table WorkItemRow} (inserted : s.workItems.insert? work = some workItems)
    : WellFormed issued { s with workItems := workItems } :=
  wf.withWorkItems (fun work' mem =>
    ⟨work', (Table.mem_insert? inserted).mpr (Or.inl mem), .refl work'⟩)

/-- Mailbox counters may advance. -/
theorem WellFormed.withActors (wf : WellFormed issued s) {actors : Table ActorRow}
    (advances : ∀ actor ∈ s.actors, ∃ actor' ∈ actors, actor'.id = actor.id
      ∧ actor.nextMailboxSequence ≤ actor'.nextMailboxSequence)
    : WellFormed issued { s with actors := actors } :=
  { wf with
    eventActor := by
      intro event mem
      obtain ⟨positive, actor, stored, same, counted⟩ := wf.eventActor event mem
      obtain ⟨actor', stored', sameId, le⟩ := advances actor stored
      exact ⟨positive, actor', stored', sameId.trans same, counted.trans le⟩
    runActor := by
      intro run mem
      obtain ⟨actor, stored, same, counted⟩ := wf.runActor run mem
      obtain ⟨actor', stored', sameId, le⟩ := advances actor stored
      exact ⟨actor', stored', sameId.trans same, counted.trans le⟩ }

/-- Cancellation targets may be added. -/
theorem WellFormed.withCancelTargets (wf : WellFormed issued s)
    {cancelTargets : Table CancelTargetRow}
    (grows : ∀ target ∈ s.cancelTargets, target ∈ cancelTargets)
    : WellFormed issued { s with cancelTargets := cancelTargets } :=
  { wf with
    cancel := by
      intro control mem pending
      obtain ⟨gateway, audience, cancelId, external, work, stored, same, mark, targets⟩ :=
        wf.cancel control mem pending
      refine ⟨gateway, audience, cancelId, external, work, stored, same, mark, ?_⟩
      intro request known ofWork active
      obtain ⟨target, listed, sameTarget⟩ := targets request known ofWork active
      exact ⟨target, grows target listed, sameTarget⟩ }

/-- Requests may end. -/
theorem WellFormed.withLocalRequests (wf : WellFormed issued s)
    {localRequests : Table RequestRow}
    (ends : ∀ request' ∈ localRequests, ∃ request ∈ s.localRequests,
      request'.requestId = request.requestId ∧ request'.eventId = request.eventId
        ∧ request'.actorId = request.actorId ∧ request'.workItemId = request.workItemId
        ∧ (request'.state = .active → request.state = .active))
    : WellFormed issued { s with localRequests := localRequests } :=
  { wf with
    requestEvent := by
      intro request' mem
      obtain ⟨request, stored, -, event, actor, work, -⟩ := ends request' mem
      rw [event, actor, work]
      exact wf.requestEvent request stored
    cancel := by
      intro control mem pending
      obtain ⟨gateway, audience, cancelId, external, work, stored, same, mark, targets⟩ :=
        wf.cancel control mem pending
      refine ⟨gateway, audience, cancelId, external, work, stored, same, mark, ?_⟩
      intro request' known ofWork active'
      obtain ⟨request, original, sameId, -, -, sameWork, active⟩ := ends request' known
      rw [sameId]
      exact targets request original (sameWork.symm.trans ofWork) (active active') }

/-- Settling requests keeps the invariant. -/
theorem WellFormed.settle (wf : WellFormed issued s) {terminal : TerminalState}
    {requestIds : List RequestId} {localRequests : Table RequestRow}
    (settles : Settles terminal requestIds s.localRequests localRequests)
    : WellFormed issued { s with localRequests := localRequests } := by
  refine wf.withLocalRequests (fun request' mem => ?_)
  obtain ⟨request, stored, rfl | ⟨-, -, bundle, rfl⟩⟩ := settles.backward request' mem
  · exact ⟨request', stored, rfl, rfl, rfl, rfl, id⟩
  · exact ⟨request, stored, rfl, rfl, rfl, rfl,
      fun active => absurd active terminal.request_ne_active⟩

/-- The result tables do not matter. -/
theorem WellFormed.sameButResults (wf : WellFormed issued s) {s' : Store}
    (same : SameButResults s s')
    : WellFormed issued s' := by
  obtain ⟨_, _, _, _, _, rfl⟩ := same
  exact { wf with }

/-- Marking rows as incorporated keeps the invariant. -/
theorem WellFormed.updateRunEvents (wf : WellFormed issued s) {p : RunEventRow → Prop}
    [DecidablePred p] {f : RunEventRow → RunEventRow} {k : Table.KeepsKey f}
    (same : ∀ row, (f row).runId = row.runId ∧ (f row).eventId = row.eventId)
    : WellFormed issued { s with runEvents := s.runEvents.updateWhere p f k } := by
  have columns : ∀ row : RunEventRow, (if p row then f row else row).runId = row.runId
      ∧ (if p row then f row else row).eventId = row.eventId := by
    intro row
    split
    · exact same row
    · exact ⟨rfl, rfl⟩
  have attached : ∀ runId eventId, Attached s runId eventId →
      Attached { s with runEvents := s.runEvents.updateWhere p f k } runId eventId := by
    rintro runId eventId ⟨row, mem, sameRun, sameEvent⟩
    exact ⟨_, Table.updateWhere_mem (k := k) mem, (columns row).1.trans sameRun,
      (columns row).2.trans sameEvent⟩
  exact { wf with
    runBacked := by
      intro run mem active
      exact (wf.runBacked run mem active).transfer (fun event stored isAttached =>
        ⟨event, stored, attached _ _ isAttached, rfl, rfl⟩)
    rowRun := by
      intro row' mem
      obtain ⟨row, stored, rfl⟩ := Table.mem_updateWhere.mp mem
      rw [(columns row).1, (columns row).2]
      exact wf.rowRun row stored
    processing := by
      intro event mem inProgress
      obtain ⟨row, stored, sameEvent, run, known, sameRun, active⟩ :=
        wf.processing event mem inProgress
      exact ⟨_, Table.updateWhere_mem (k := k) stored, (columns row).2.trans sameEvent, run, known,
        sameRun.trans (columns row).1.symm, active⟩ }

-----------------------------------------------------------------------------------------
-- Arrival of events and requests
-----------------------------------------------------------------------------------------

/-- What the mailbox asks of an event that arrives: it is the newest of its actor, belongs to
a work item, and is an accepted cancellation if it is one at all.
-/
structure Arrives (s : Store) (event : EventRow) (work : WorkItemRow) : Prop where
  pending : event.state = .pending
  kind : event.kind = .userMessage ∨ event.kind = .cancelRequested
  positive : 0 < event.mailboxSequence
  counted : ∃ actor ∈ s.actors, actor.id = event.actorId
    ∧ event.mailboxSequence ≤ actor.nextMailboxSequence
  newest : ∀ run ∈ s.runs, run.actorId = event.actorId →
    run.observedSequence < event.mailboxSequence
  workStored : work ∈ s.workItems
  workItemId : event.workItemId = some work.id
  actorId : work.actorId = event.actorId
  audience : work.audience = event.audience
  source : event.ingressSource ≠ none → ∀ other ∈ s.events, other.workItemId ≠ some work.id
  cancel : event.kind = .cancelRequested → CancelAccepted s event

/-- An arriving event may be stored. -/
theorem WellFormed.insertEvent (wf : WellFormed issued s) {event : EventRow}
    {work : WorkItemRow} (arrives : Arrives s event work) {events : Table EventRow}
    (inserted : s.events.insert? event = some events)
    : WellFormed issued { s with events := events } := by
  have mem_iff : ∀ row, row ∈ events ↔ row ∈ s.events ∨ row = event :=
    fun row => Table.mem_insert? inserted
  have old : ∀ row ∈ s.events, row ∈ events := fun row mem => (mem_iff row).mpr (Or.inl mem)
  exact { wf with
    eventActor := by
      intro row mem
      rcases (mem_iff row).mp mem with stored | rfl
      · exact wf.eventActor row stored
      · exact ⟨arrives.positive, arrives.counted⟩
    eventKind := by
      intro row mem
      rcases (mem_iff row).mp mem with stored | rfl
      · exact wf.eventKind row stored
      · exact arrives.kind
    eventWork := by
      intro row mem id same
      rcases (mem_iff row).mp mem with stored | rfl
      · exact wf.eventWork row stored id same
      · have : work.id = id := Option.some.inj (arrives.workItemId.symm.trans same)
        exact ⟨work, arrives.workStored, this, arrives.actorId, arrives.audience⟩
    eventFree := by
      intro row mem free
      rcases (mem_iff row).mp mem with stored | rfl
      · exact wf.eventFree row stored free
      · rw [arrives.workItemId] at free
        cases free
    eventSource := by
      intro row mem other mem' id same same' source source'
      rcases (mem_iff row).mp mem with stored | rfl <;>
        rcases (mem_iff other).mp mem' with stored' | rfl
      · exact wf.eventSource row stored other stored' id same same' source source'
      · have : work.id = id := Option.some.inj (arrives.workItemId.symm.trans same')
        exact absurd (this ▸ same) (arrives.source source' row stored)
      · have : work.id = id := Option.some.inj (arrives.workItemId.symm.trans same)
        exact absurd (this ▸ same') (arrives.source source other stored')
      · rfl
    runBacked := by
      intro run mem active
      exact (wf.runBacked run mem active).transfer (fun row stored attached =>
        ⟨row, old row stored, attached, rfl, rfl⟩)
    rowRun := by
      intro row mem
      obtain ⟨run, known, sameRun, attached, stored, more⟩ := wf.rowRun row mem
      exact ⟨run, known, sameRun, attached, old attached stored, more⟩
    processing := by
      intro row mem inProgress
      rcases (mem_iff row).mp mem with stored | rfl
      · exact wf.processing row stored inProgress
      · rw [arrives.pending] at inProgress
        cases inProgress
    requestEvent := by
      intro request mem
      obtain ⟨row, stored, more⟩ := wf.requestEvent request mem
      exact ⟨row, old row stored, more⟩
    cancel := by
      intro control mem pending
      rcases (mem_iff control).mp mem with stored | rfl
      · exact wf.cancel control stored pending
      · exact arrives.cancel pending.1
    belowCancels := by
      intro run mem active control mem' pending actor
      rcases (mem_iff control).mp mem' with stored | rfl
      · exact wf.belowCancels run mem active control stored pending actor
      · exact arrives.newest run mem actor.symm
    belowPending := by
      intro run mem active row mem' pending ofWork
      rcases (mem_iff row).mp mem' with stored | rfl
      · exact wf.belowPending run mem active row stored pending ofWork
      · obtain ⟨runWork, stored, workId, actor, -⟩ := wf.runWork run mem
        have same : work = runWork := Table.eq_of_clash arrives.workStored stored
          ((Option.some.inj (arrives.workItemId.symm.trans ofWork)).trans workId.symm)
        exact arrives.newest run mem (by rw [← actor, ← same, arrives.actorId]) }

/-- An active request may be stored for a stored event whose work item is not marked. -/
theorem WellFormed.insertRequest (wf : WellFormed issued s) {request : RequestRow}
    {event : EventRow} {work : WorkItemRow} {localRequests : Table RequestRow}
    (inserted : s.localRequests.insert? request = some localRequests)
    (stored : event ∈ s.events) (eventId : event.id = request.eventId)
    (sameWork : event.workItemId = request.workItemId)
    (actorId : event.actorId = request.actorId) (kind : event.kind = .userMessage)
    (audience : event.audience = .actorPrivate) (workStored : work ∈ s.workItems)
    (workItemId : request.workItemId = some work.id)
    (unmarked : work.cancellationRequestedAt = none)
    : WellFormed issued { s with localRequests := localRequests } :=
  { wf with
    requestEvent := by
      intro row mem
      rcases (Table.mem_insert? inserted).mp mem with known | rfl
      · exact wf.requestEvent row known
      · exact ⟨event, stored, eventId, sameWork, actorId, kind, audience⟩
    cancel := by
      intro control mem pending
      obtain ⟨gateway, audience, cancelId, external, marked, markedStored, same, mark, targets⟩ :=
        wf.cancel control mem pending
      refine ⟨gateway, audience, cancelId, external, marked, markedStored, same, mark, ?_⟩
      intro row known ofWork active
      rcases (Table.mem_insert? inserted).mp known with known | rfl
      · exact targets row known ofWork active
      · have : work = marked := Table.eq_of_clash workStored markedStored
          (Option.some.inj (workItemId.symm.trans ofWork))
        exact absurd (this ▸ unmarked) mark }

/-- An event without a work item, and the request it belongs to, may get a new one. -/
theorem WellFormed.assign (wf : WellFormed issued s) {event : EventRow} {work : WorkItemRow}
    {workItems : Table WorkItemRow} (inserted : s.workItems.insert? work = some workItems)
    (stored : event ∈ s.events) (free : event.workItemId = none)
    (actorId : work.actorId = event.actorId) (audience : work.audience = event.audience)
    {p : EventRow → Prop} [DecidablePred p] {k : Table.KeepsKey
      (fun row : EventRow => { row with workItemId := some work.id })}
    (chosen : ∀ row ∈ s.events, p row ↔ row.id = event.id)
    {q : RequestRow → Prop} [DecidablePred q] {l : Table.KeepsKey
      (fun row : RequestRow => { row with workItemId := some work.id })}
    (requests : ∀ row ∈ s.localRequests, q row ↔ row.eventId = event.id)
    : WellFormed issued
        { s with
          workItems := workItems
          events := s.events.updateWhere p
            (fun row => { row with workItemId := some work.id }) k
          localRequests := s.localRequests.updateWhere q
            (fun row => { row with workItemId := some work.id }) l } := by
  have unused : ∀ other ∈ s.workItems, other.id ≠ work.id := Table.fresh_of_insert? inserted
  have noEvent : ∀ row ∈ s.events, row.workItemId ≠ some work.id := by
    intro row mem same
    obtain ⟨other, known, sameId, -⟩ := wf.eventWork row mem _ same
    exact unused other known sameId
  have keptWork : ∀ other ∈ s.workItems, other ∈ workItems :=
    fun other mem => (Table.mem_insert? inserted).mpr (Or.inl mem)
  have only : ∀ row ∈ s.events, p row → row = event := fun row mem hp =>
    Table.eq_of_clash mem stored (Or.inl ((chosen row mem).mp hp))
  have untouched : ∀ row ∈ s.events, row.id ≠ event.id → row ∈ s.events.updateWhere p
      (fun row => { row with workItemId := some work.id }) k := fun row mem other =>
    Table.updateWhere_mem_of_not mem (fun hp => other ((chosen row mem).mp hp))
  have isPending : event.state = .pending ∧ event.kind = .userMessage :=
    wf.eventFree event stored free
  have attachedOther : ∀ row ∈ s.events, row.state ≠ .pending → row.id ≠ event.id := by
    intro row mem state same
    exact state ((Table.eq_of_clash mem stored (Or.inl same)) ▸ isPending.1)
  exact { wf with
    eventActor := by
      intro row' mem
      obtain ⟨row, known, rfl⟩ := Table.mem_updateWhere.mp mem
      have := wf.eventActor row known
      split <;> exact this
    eventKind := by
      intro row' mem
      obtain ⟨row, known, rfl⟩ := Table.mem_updateWhere.mp mem
      have := wf.eventKind row known
      split <;> exact this
    eventWork := by
      intro row' mem id same
      obtain ⟨row, known, rfl⟩ := Table.mem_updateWhere.mp mem
      split at same
      · rename_i hp
        cases only row known hp
        simp only [hp, if_true]
        exact ⟨work, (Table.mem_insert? inserted).mpr (Or.inr rfl), Option.some.inj same,
          actorId, audience⟩
      · rename_i hp
        simp only [hp, if_false]
        obtain ⟨other, otherStored, more⟩ := wf.eventWork row known id same
        exact ⟨other, keptWork other otherStored, more⟩
    eventFree := by
      intro row' mem none
      obtain ⟨row, known, rfl⟩ := Table.mem_updateWhere.mp mem
      split at none
      · cases none
      · rename_i hp
        simp only [hp, if_false]
        exact wf.eventFree row known none
    eventSource := by
      intro row' mem other' mem' id same same' source source'
      obtain ⟨row, known, rfl⟩ := Table.mem_updateWhere.mp mem
      obtain ⟨other, known', rfl⟩ := Table.mem_updateWhere.mp mem'
      split at same <;> split at same' <;> rename_i hp hp'
      · simp only [hp, hp', if_true]
        rw [only row known hp, only other known' hp']
      · exact absurd (same'.trans same.symm) (noEvent other known')
      · exact absurd (same.trans same'.symm) (noEvent row known)
      · simp only [hp, hp', if_false] at source source' ⊢
        exact wf.eventSource row known other known' id same same' source source'
    runWork := by
      intro run mem
      obtain ⟨other, known, more⟩ := wf.runWork run mem
      exact ⟨other, keptWork other known, more⟩
    runBacked := by
      intro run mem active
      refine (wf.runBacked run mem active).transfer (fun row rowStored attached => ?_)
      obtain ⟨link, linked, sameRun, sameEvent⟩ := attached
      obtain ⟨_, _, _, row', known', sameRow, _, notPending, _⟩ := wf.rowRun link linked
      have : row' = row :=
        Table.eq_of_clash known' rowStored (Or.inl (sameRow.trans sameEvent))
      exact ⟨row, untouched row rowStored (attachedOther row rowStored (this ▸ notPending)),
        ⟨link, linked, sameRun, sameEvent⟩, rfl, rfl⟩
    rowRun := by
      intro link mem
      obtain ⟨run, known, sameRun, row, rowStored, sameRow, kind, notPending, more⟩ :=
        wf.rowRun link mem
      exact ⟨run, known, sameRun, row,
        untouched row rowStored (attachedOther row rowStored notPending), sameRow, kind,
        notPending, more⟩
    processing := by
      intro row' mem inProgress
      obtain ⟨row, known, rfl⟩ := Table.mem_updateWhere.mp mem
      split at inProgress
      · rename_i hp
        rw [only row known hp, isPending.1] at inProgress
        cases inProgress
      · rename_i hp
        simp only [hp, if_false]
        exact wf.processing row known inProgress
    requestEvent := by
      intro request' mem
      obtain ⟨request, known, rfl⟩ := Table.mem_updateWhere.mp mem
      obtain ⟨row, rowStored, same, sameWork, actor, kind, private'⟩ :=
        wf.requestEvent request known
      by_cases here : row.id = event.id
      · have hq : q request := (requests request known).mpr (same ▸ here)
        have hp : p row := (chosen row rowStored).mpr here
        simp only [hq, if_true]
        exact ⟨_, Table.updateWhere_mem_of (k := k) rowStored hp, same, rfl, actor, kind,
          private'⟩
      · have hq : ¬q request := fun hq => here (same.trans ((requests request known).mp hq))
        simp only [hq, if_false]
        exact ⟨row, untouched row rowStored here, same, sameWork, actor, kind, private'⟩
    cancel := by
      intro control' mem pending
      obtain ⟨control, known, rfl⟩ := Table.mem_updateWhere.mp mem
      split at pending
      · rename_i hp
        have kind := pending.1
        rw [only control known hp, isPending.2] at kind
        cases kind
      · rename_i hp
        simp only [hp, if_false]
        obtain ⟨gateway, private', cancelId, external, marked, markedStored, same, mark,
          targets⟩ := wf.cancel control known pending
        refine ⟨gateway, private', cancelId, external, marked, keptWork marked markedStored,
          same, mark, ?_⟩
        intro request' mem' ofWork active
        obtain ⟨request, original, rfl⟩ := Table.mem_updateWhere.mp mem'
        split at ofWork
        · exact absurd (Option.some.inj ofWork).symm (unused marked markedStored)
        · rename_i hq
          simp only [hq, if_false] at active ⊢
          exact targets request original ofWork active
    belowCancels := by
      intro run mem active control' mem' pending actor
      obtain ⟨control, known, rfl⟩ := Table.mem_updateWhere.mp mem'
      have kept : ∀ control : EventRow, control ∈ s.events → control.IsPendingCancel →
          control.actorId = run.actorId → run.observedSequence < control.mailboxSequence :=
        fun control known pending actor =>
          wf.belowCancels run mem active control known pending actor
      split <;> rename_i hp <;> simp only [hp, if_true, if_false] at pending actor
      · exact kept control known pending actor
      · exact kept control known pending actor
    belowPending := by
      intro run mem active row' mem' pending ofWork
      obtain ⟨row, known, rfl⟩ := Table.mem_updateWhere.mp mem'
      split at ofWork <;> rename_i hp
      · obtain ⟨other, otherStored, same, -⟩ := wf.runWork run mem
        exact absurd (same.trans (Option.some.inj ofWork).symm) (unused other otherStored)
      · simp only [hp, if_false] at pending ⊢
        exact wf.belowPending run mem active row known pending ofWork
    issuedAudience := by
      intro run mem
      obtain ⟨other, known, more⟩ := wf.issuedAudience run mem
      exact ⟨other, keptWork other known, more⟩ }

-----------------------------------------------------------------------------------------
-- Attachment
-----------------------------------------------------------------------------------------

/-- A run that has observed nothing may be opened for a live work item. -/
theorem WellFormed.insertRun (wf : WellFormed issued s) {run : RunRow} {work : WorkItemRow}
    {runs : Table RunRow} (inserted : s.runs.insert? run = some runs)
    (workStored : work ∈ s.workItems) (workId : work.id = run.workItemId)
    (actorId : work.actorId = run.actorId) (live : ¬TerminalWork work.state)
    (counted : ∃ actor ∈ s.actors, actor.id = run.actorId)
    (unobserved : run.observedSequence = 0) (noSource : run.ingressSource = none)
    : WellFormed issued { s with runs := runs } := by
  have mem_iff : ∀ row, row ∈ runs ↔ row ∈ s.runs ∨ row = run :=
    fun row => Table.mem_insert? inserted
  have old : ∀ row ∈ s.runs, row ∈ runs := fun row mem => (mem_iff row).mpr (Or.inl mem)
  exact { wf with
    runWork := by
      intro row mem
      rcases (mem_iff row).mp mem with stored | rfl
      · exact wf.runWork row stored
      · exact ⟨work, workStored, workId, actorId, fun _ => live⟩
    runActor := by
      intro row mem
      rcases (mem_iff row).mp mem with stored | rfl
      · exact wf.runActor row stored
      · obtain ⟨actor, stored, same⟩ := counted
        exact ⟨actor, stored, same, by simp [unobserved]⟩
    runBacked := by
      intro row mem active
      rcases (mem_iff row).mp mem with stored | rfl
      · exact wf.runBacked row stored active
      · exact ⟨fun source known => by simp [noSource] at known,
          fun positive => absurd unobserved positive⟩
    rowRun := by
      intro link mem
      obtain ⟨row, stored, more⟩ := wf.rowRun link mem
      exact ⟨row, old row stored, more⟩
    processing := by
      intro event mem inProgress
      obtain ⟨link, linked, same, row, stored, more⟩ := wf.processing event mem inProgress
      exact ⟨link, linked, same, row, old row stored, more⟩
    belowCancels := by
      intro row mem active control mem' pending actor
      rcases (mem_iff row).mp mem with stored | rfl
      · exact wf.belowCancels row stored active control mem' pending actor
      · exact unobserved ▸ (wf.eventActor control mem').1
    belowPending := by
      intro row mem active event mem' pending ofWork
      rcases (mem_iff row).mp mem with stored | rfl
      · exact wf.belowPending row stored active event mem' pending ofWork
      · exact unobserved ▸ (wf.eventActor event mem').1
    issuedRun := by
      intro handed mem
      obtain ⟨row, stored, more⟩ := wf.issuedRun handed mem
      exact ⟨row, old row stored, more⟩ }

/-- What a batch of events and the new observed sequence of a run must satisfy. -/
structure Absorbs (s : Store) (run : RunRow) (batch : List EventRow) (observed : Nat)
    (source : Option String) : Prop where
  absorbable : ∀ event ∈ batch, event ∈ s.events
    ∧ Absorbable s run.actorId run.workItemId event
  advances : run.observedSequence ≤ observed
  observes : ∀ event ∈ batch, event.mailboxSequence ≤ observed
  counted : ∃ actor ∈ s.actors, actor.id = run.actorId ∧ observed ≤ actor.nextMailboxSequence
  belowCancels : ∀ control ∈ s.events, control.IsPendingCancel →
    control.actorId = run.actorId → observed < control.mailboxSequence
  belowPending : ∀ event ∈ s.events, event.state = .pending →
    event.workItemId = some run.workItemId → event.id ∉ batch.map (·.id) →
    observed < event.mailboxSequence
  source : ∀ text, source = some text → ∃ event ∈ s.events, event.ingressSource = some text
    ∧ (Attached s run.id event.id ∨ event.id ∈ batch.map (·.id))
  exact : observed ≠ 0 → ∃ event ∈ s.events, event.mailboxSequence = observed
    ∧ (Attached s run.id event.id ∨ event.id ∈ batch.map (·.id))

/-- An active run may absorb a batch of pending events. -/
theorem WellFormed.attach (wf : WellFormed issued s) {run : RunRow} {batch : List EventRow}
    {observed : Nat} {source : Option String} (stored : run ∈ s.runs)
    (active : run.state = .active) (absorbs : Absorbs s run batch observed source)
    {runEvents : Table RunEventRow}
    (rows : ∀ row, row ∈ runEvents ↔
      row ∈ s.runEvents ∨ ∃ event ∈ batch, row = ⟨run.id, event.id, false⟩)
    {events : Table EventRow}
    (taken : ∀ row, row ∈ events ↔ ∃ event ∈ s.events,
      (if event.state = .pending ∧ event.id ∈ batch.map (·.id) then event.take run.id
        else event) = row)
    (lease : ActorLease) (policy : ExecutionPolicy) (route : Option DeliveryRoute)
    (now : Timestamp) (k : Table.KeepsKey (RunRow.attach lease observed policy source route now))
    : WellFormed issued
        { s with
          runEvents := runEvents
          events := events
          runs := s.runs.updateWhere (·.id = run.id)
            (·.attach lease observed policy source route now) k } := by
  have batchMem : ∀ row ∈ s.events, row.id ∈ batch.map (·.id) → row ∈ batch := by
    intro row mem listed
    obtain ⟨event, inBatch, same⟩ := List.mem_map.mp listed
    exact (Table.eq_of_clash (absorbs.absorbable event inBatch).1 mem (Or.inl same)) ▸ inBatch
  have runOf : ∀ row ∈ s.runs, row.id = run.id → row = run :=
    fun row mem same => Table.eq_of_clash mem stored (Or.inl same)
  have keptEvent : ∀ row ∈ s.events, row.state ≠ .pending → row ∈ events := by
    intro row mem notPending
    exact (taken row).mpr ⟨row, mem, by simp [notPending]⟩
  exact { wf with
    eventActor := by
      intro row' mem
      obtain ⟨row, known, rfl⟩ := (taken row').mp mem
      have := wf.eventActor row known
      split <;> exact this
    eventKind := by
      intro row' mem
      obtain ⟨row, known, rfl⟩ := (taken row').mp mem
      have := wf.eventKind row known
      split <;> exact this
    eventWork := by
      intro row' mem
      obtain ⟨row, known, rfl⟩ := (taken row').mp mem
      have := wf.eventWork row known
      split <;> exact this
    eventFree := by
      intro row' mem free
      obtain ⟨row, known, rfl⟩ := (taken row').mp mem
      split at free <;> rename_i hb
      · have ofWork := (absorbs.absorbable row (batchMem row known hb.2)).2.2.1
        exact absurd (ofWork.symm.trans free) (by simp)
      · simp only [hb, if_false]
        exact wf.eventFree row known free
    eventSource := by
      intro row' mem other' mem'
      obtain ⟨row, known, rfl⟩ := (taken row').mp mem
      obtain ⟨other, known', rfl⟩ := (taken other').mp mem'
      have := wf.eventSource row known other known'
      split <;> split <;> exact this
    runWork := by
      intro row' mem
      obtain ⟨row, known, rfl⟩ := Table.mem_updateWhere.mp mem
      have := wf.runWork row known
      split <;> exact this
    runActor := by
      intro row' mem
      obtain ⟨row, known, rfl⟩ := Table.mem_updateWhere.mp mem
      split <;> rename_i same
      · cases runOf row known same
        exact absorbs.counted
      · exact wf.runActor row known
    runBacked := by
      intro row' mem isActive
      obtain ⟨row, known, rfl⟩ := Table.mem_updateWhere.mp mem
      have carries : ∀ event ∈ s.events, Attached s row.id event.id →
          ∃ event' ∈ events, (∃ link ∈ runEvents, link.runId = row.id
              ∧ link.eventId = event'.id)
            ∧ event'.ingressSource = event.ingressSource
            ∧ event'.mailboxSequence = event.mailboxSequence := by
        rintro event eventStored ⟨link, linked, sameRun, sameEvent⟩
        refine ⟨_, (taken _).mpr ⟨event, eventStored, rfl⟩,
          ⟨link, (rows link).mpr (Or.inl linked), sameRun, ?_⟩, ?_⟩
        · split <;> exact sameEvent
        · split <;> exact ⟨rfl, rfl⟩
      split at isActive <;> rename_i same
      · cases runOf row known same
        simp only [if_true]
        have backs : ∀ event ∈ s.events,
            Attached s run.id event.id ∨ event.id ∈ batch.map (·.id) →
            ∃ event' ∈ events, (∃ link ∈ runEvents, link.runId = run.id
                ∧ link.eventId = event'.id)
              ∧ event'.ingressSource = event.ingressSource
              ∧ event'.mailboxSequence = event.mailboxSequence := by
          rintro event eventStored (attached | listed)
          · exact carries event eventStored attached
          · refine ⟨_, (taken _).mpr ⟨event, eventStored, rfl⟩, ⟨⟨run.id, event.id, false⟩,
              (rows _).mpr (Or.inr ⟨event, batchMem event eventStored listed, rfl⟩), rfl, ?_⟩, ?_⟩
            · split <;> rfl
            · split <;> exact ⟨rfl, rfl⟩
        constructor
        · intro text known'
          obtain ⟨event, eventStored, from', here⟩ := absorbs.source text known'
          obtain ⟨event', stored', attached', sameSource, -⟩ := backs event eventStored here
          exact ⟨event', stored', attached', sameSource.trans from'⟩
        · intro positive
          obtain ⟨event, eventStored, exact', here⟩ := absorbs.exact positive
          obtain ⟨event', stored', attached', -, sameSequence⟩ := backs event eventStored here
          exact ⟨event', stored', attached', sameSequence.trans exact'⟩
      · simp only [same, if_false]
        exact (wf.runBacked row known isActive).transfer carries
    rowRun := by
      intro link mem
      rcases (rows link).mp mem with linked | ⟨event, inBatch, rfl⟩
      · obtain ⟨row, known, sameRun, event, eventStored, sameEvent, kind, notPending, ofWork,
          progress⟩ := wf.rowRun link linked
        refine ⟨_, Table.updateWhere_mem known, ?_, event, keptEvent event eventStored notPending,
          sameEvent, kind, notPending, ?_, ?_⟩
        · split <;> exact sameRun
        · split <;> exact ofWork
        · split <;> rename_i same
          · intro isActive
            have before := progress isActive
            cases runOf row known same
            exact ⟨before.state, before.workItemId, before.actorId, before.runId,
              before.observed.trans absorbs.advances⟩
          · exact progress
      · obtain ⟨eventStored, actor, ofWork, pending, notCancel, -⟩ :=
          absorbs.absorbable event inBatch
        have listed : event.id ∈ batch.map (·.id) := List.mem_map_of_mem inBatch
        refine ⟨_, Table.updateWhere_mem_of stored rfl, rfl, event.take run.id,
          (taken _).mpr ⟨event, eventStored, by rw [if_pos ⟨pending, listed⟩]⟩, rfl,
          (wf.eventKind event eventStored).resolve_right notCancel, by simp [EventRow.take],
          ofWork, ?_⟩
        exact fun _ => ⟨rfl, ofWork, actor, rfl, absorbs.observes event inBatch⟩
    processing := by
      intro row' mem inProgress
      obtain ⟨row, known, rfl⟩ := (taken row').mp mem
      split at inProgress <;> rename_i hb
      · simp only [hb, and_self, if_true]
        exact ⟨⟨run.id, row.id, false⟩, (rows _).mpr (Or.inr
          ⟨row, batchMem row known hb.2, rfl⟩), rfl, _,
          Table.updateWhere_mem_of stored rfl, rfl, active⟩
      · simp only [hb, if_false]
        obtain ⟨link, linked, same, holder, held, sameRun, isActive⟩ :=
          wf.processing row known inProgress
        refine ⟨link, (rows link).mpr (Or.inl linked), same, _, Table.updateWhere_mem held, ?_, ?_⟩
        · split <;> exact sameRun
        · split <;> exact isActive
    requestEvent := by
      intro request mem
      obtain ⟨event, eventStored, more⟩ := wf.requestEvent request mem
      refine ⟨_, (taken _).mpr ⟨event, eventStored, rfl⟩, ?_⟩
      split <;> exact more
    cancel := by
      intro control' mem pending
      obtain ⟨control, known, rfl⟩ := (taken control').mp mem
      split at pending <;> rename_i hb
      · have := pending.2
        cases this
      · simp only [hb, if_false]
        exact wf.cancel control known pending
    belowCancels := by
      intro row' mem isActive control' mem' pending actor
      obtain ⟨row, known, rfl⟩ := Table.mem_updateWhere.mp mem
      obtain ⟨control, known', rfl⟩ := (taken control').mp mem'
      split at pending <;> rename_i hb
      · have := pending.2
        cases this
      · simp only [hb, if_false] at actor ⊢
        split at actor <;> rename_i same
        · cases runOf row known same
          simp only [if_true]
          exact absorbs.belowCancels control known' pending actor
        · simp only [same, if_false] at isActive ⊢
          exact wf.belowCancels row known isActive control known' pending actor
    belowPending := by
      intro row' mem isActive event' mem' pending ofWork
      obtain ⟨row, known, rfl⟩ := Table.mem_updateWhere.mp mem
      obtain ⟨event, known', rfl⟩ := (taken event').mp mem'
      split at pending <;> rename_i hb
      · cases pending
      · simp only [hb, if_false] at ofWork ⊢
        split at ofWork <;> rename_i same
        · cases runOf row known same
          simp only [if_true]
          exact absorbs.belowPending event known' pending ofWork
            (fun listed => hb ⟨pending, listed⟩)
        · simp only [same, if_false] at isActive ⊢
          exact wf.belowPending row known isActive event known' pending ofWork
    issuedRun := by
      intro handed mem
      obtain ⟨row, known, sameId, work, actor, behind⟩ := wf.issuedRun handed mem
      refine ⟨_, Table.updateWhere_mem known, ?_⟩
      split <;> rename_i same
      · cases runOf row known same
        exact ⟨sameId, work, actor, behind.trans absorbs.advances⟩
      · exact ⟨sameId, work, actor, behind⟩ }

/-- A run may be handed out as its row stands. -/
theorem WellFormed.issue (wf : WellFormed issued s) {run : AttachedRun} {row : RunRow}
    (stored : row ∈ s.runs) (id : row.id = run.runId) (work : row.workItemId = run.workItemId)
    (actor : row.actorId = run.lease.actorId)
    (observed : run.observedSequence ≤ row.observedSequence)
    {item : WorkItemRow} (itemStored : item ∈ s.workItems) (itemId : item.id = run.workItemId)
    (audience : item.audience = run.audience)
    : WellFormed (run :: issued) s :=
  { wf with
    issuedRun := by
      intro handed mem
      rcases List.mem_cons.mp mem with rfl | mem
      · exact ⟨row, stored, id, work, actor, observed⟩
      · exact wf.issuedRun handed mem
    issuedAudience := by
      intro handed mem
      rcases List.mem_cons.mp mem with rfl | mem
      · obtain ⟨owner, ownerStored, ownerId, ownerActor, -⟩ := wf.runWork row stored
        have : owner = item :=
          Table.eq_of_clash ownerStored itemStored ((ownerId.trans work).trans itemId.symm)
        subst this
        exact ⟨owner, itemStored, itemId, ownerActor.trans actor, audience⟩
      · exact wf.issuedAudience handed mem }

end Codrik.Runtime.Sqlite
