import Codrik.Runtime.Sqlite.WellFormed

/-! Attachment of pending input to a run: what `attach_next_run` does when it succeeds, and
that it succeeds from a well-formed store.
-/

namespace Codrik.Runtime.Sqlite

open Codrik.Relational

variable {issued : List AttachedRun} {s t s' : Store}

-----------------------------------------------------------------------------------------
-- Selection
-----------------------------------------------------------------------------------------

/-- A due run and the work item that makes it due. -/
theorem dueActiveRun_some {actorId : ActorId} {now : Timestamp} {row : RunRow}
    (due : dueActiveRun s actorId now = some row)
    : row ∈ s.runs ∧ row.actorId = actorId ∧ row.state = .active
      ∧ ∃ work ∈ s.workItems, work.id = row.workItemId ∧ work.Runnable now := by
  obtain ⟨stored, actor, active, work⟩ := Table.mem_of_first? due
  exact ⟨stored, actor, active, work⟩

/-- The selected event and its work item. -/
theorem selectPending_some {actorId : ActorId} {now : Timestamp} {event : EventRow}
    (selected : selectPending s actorId now = some event)
    : event ∈ s.events ∧ Selectable s actorId now event := by
  obtain ⟨stored, selectable⟩ := Table.mem_of_first? selected
  exact ⟨stored, selectable⟩

/-- The work item that `open_run` opens a run for, in the store after the assignment. -/
structure Opens (lease : ActorLease) (now : Timestamp) (ids : FreshIds) (m : Store)
    (event : EventRow) (work : WorkItemRow) (runs : Table RunRow) : Prop where
  selected : selectPending m lease.actorId now = some event
  workStored : work ∈ m.workItems
  workItemId : event.workItemId = some work.id
  runnable : work.Runnable now
  unmarked : work.cancellationRequestedAt = none ∨ event.kind = .cancelRequested
  inserted : m.runs.insert? (newRun ids.run lease work.id now) = some runs

/-- Without a selectable event no run is opened; otherwise the run of its work item is. -/
theorem openRun_ok {lease : ActorLease} {now : Timestamp} {ids : FreshIds}
    {answer : Option (RunRow × WorkItemRow × Store)}
    (opened : openRun lease now ids s = .ok answer)
    : ∃ m, assignUnassigned lease.actorId now ids.workItem s = .ok m
      ∧ ((selectPending m lease.actorId now = none ∧ answer = none)
        ∨ ∃ event work runs, Opens lease now ids m event work runs
          ∧ answer = some (newRun ids.run lease work.id now, work, { m with runs := runs })) := by
  simp only [openRun, bind_eq_ok] at opened
  obtain ⟨m, assigned, rest⟩ := opened
  refine ⟨m, assigned, ?_⟩
  cases selected : selectPending m lease.actorId now with
  | none =>
      rw [selected] at rest
      cases rest
      exact Or.inl ⟨rfl, rfl⟩
  | some event =>
      obtain ⟨-, -, -, work, workStored, workItemId, runnable, unmarked⟩ :=
        selectPending_some selected
      have found : workItem? m work.id = some work := workItem?_eq_some.mpr ⟨workStored, rfl⟩
      rw [selected] at rest
      simp only [Option.bind_eq_bind, Option.bind_some, workItemId, found, bind_eq_ok,
        execute_eq_ok] at rest
      obtain ⟨runs, inserted, result⟩ := rest
      cases result
      exact Or.inr ⟨event, work, runs,
        ⟨selected, workStored, workItemId, runnable, unmarked, inserted⟩, rfl⟩

/-- `attach_next_run` resumes the due run, or a run opened for a selectable event. -/
theorem attachNextRun_ok {lease : ActorLease} {maxEvents : Nat} {now : Timestamp}
    {ids : FreshIds} {answer : Option AttachedRun}
    (attached : attachNextRun lease maxEvents now ids s = .ok (answer, s'))
    : maxEvents ≠ 0 ∧ CurrentLease s lease now
      ∧ ((∃ row work, dueActiveRun s lease.actorId now = some row ∧ work ∈ s.workItems
          ∧ work.id = row.workItemId
          ∧ resumeRun lease maxEvents row work now s = .ok (answer, s'))
        ∨ (dueActiveRun s lease.actorId now = none ∧ openRun lease now ids s = .ok none
          ∧ answer = none ∧ s' = s)
        ∨ ∃ row work m, dueActiveRun s lease.actorId now = none
          ∧ openRun lease now ids s = .ok (some (row, work, m))
          ∧ resumeRun lease maxEvents row work now m = .ok (answer, s')) := by
  simp only [attachNextRun, bind_eq_ok, require_eq_ok, ensureCurrentLease_eq_ok] at attached
  obtain ⟨_, positive, _, current, rest⟩ := attached
  refine ⟨positive, current, ?_⟩
  split at rest
  · rename_i row due
    split at rest
    · rename_i work found
      obtain ⟨workStored, workId⟩ := workItem?_eq_some.mp found
      exact Or.inl ⟨row, work, due, workStored, workId, rest⟩
    · cases rest
  · rename_i due
    simp only [bind_eq_ok] at rest
    obtain ⟨opened, opens, rest⟩ := rest
    split at rest
    · cases rest
      exact Or.inr (Or.inl ⟨due, opens, rfl, rfl⟩)
    · exact Or.inr (Or.inr ⟨_, _, _, due, opens, rest⟩)

-----------------------------------------------------------------------------------------
-- The attached run
-----------------------------------------------------------------------------------------

/-- The run that is handed out reflects the store `t` in which its input is attached. -/
structure Reflects (lease : ActorLease) (row : RunRow) (work : WorkItemRow) (t : Store)
    (run : AttachedRun) : Prop where
  lease : run.lease = lease
  workItemId : run.workItemId = row.workItemId
  runId : run.runId = row.id
  observedSequence : run.observedSequence
    = (((loadRunEvents t row.id).map (·.mailboxSequence)).max?).getD row.observedSequence
  sourceEventIds : run.sourceEventIds = (loadRunEvents t row.id).map (·.id)
  audience : run.audience = work.audience
  source : ingressSourceOf row.ingressSource (loadRunEvents t row.id) = .ok run.ingressSource
  messages : newMessages t row.id = .ok run.messages
  executionPolicy : run.executionPolicy = (loadRunEvents t row.id).foldl
    (fun policy event => policy.intersect event.executionPolicy) row.executionPolicy

/-- The input `attach_next_run` selects for a run. -/
def nextInput (s : Store) (row : RunRow) (maxEvents : Nat) : List EventRow :=
  pendingInput s row.actorId row.workItemId (maxEvents - runEventCount s row.id)

/-- A resumed run took its next input, and then was either blocked or handed out. -/
theorem resumeRun_ok {lease : ActorLease} {maxEvents : Nat} {row : RunRow} {work : WorkItemRow}
    {now : Timestamp} {answer : Option AttachedRun} (actor : row.actorId = lease.actorId)
    (resumed : resumeRun lease maxEvents row work now s = .ok (answer, s'))
    : ∃ t, attachEvents row.id (nextInput s row maxEvents) s = .ok t
      ∧ ((answer = none ∧ ∃ code message, s' = blockMalformed code message row now t)
        ∨ ∃ run, answer = some run ∧ Reflects lease row work t run
          ∧ s' =
            { t with
              runs := t.runs.updateWhere (·.id = row.id)
                (·.attach lease run.observedSequence run.executionPolicy run.ingressSource
                  run.deliveryRoute now) }) := by
  simp only [resumeRun, bind_eq_ok, ← actor] at resumed
  obtain ⟨t, attached, source, known, rest⟩ := resumed
  refine ⟨t, attached, ?_⟩
  split at rest
  · cases rest
    exact Or.inl ⟨rfl, _, _, rfl⟩
  · rename_i messages decoded
    split at rest
    · cases rest
      exact Or.inl ⟨rfl, _, _, rfl⟩
    · cases rest
      exact Or.inr ⟨_, rfl, ⟨rfl, rfl, rfl, rfl, rfl, rfl, known, decoded, rfl⟩, rfl⟩

/-- The events of a run are the attached ones. -/
@[simp] theorem mem_loadRunEvents {runId : RunId} {event : EventRow}
    : event ∈ loadRunEvents s runId ↔ event ∈ s.events ∧ Attached s runId event.id := by
  simp only [loadRunEvents, Table.mem_selectOrdered]

-----------------------------------------------------------------------------------------
-- The ingress source
-----------------------------------------------------------------------------------------

/-- The source of a run is the one it had or that of one of its events, by induction on the
events.
-/
theorem ingressSourceOf_ok {rows : List EventRow} {start source : Option String}
    (known : ingressSourceOf start rows = .ok source) (text : String) (some' : source = some text)
    : start = some text ∨ ∃ event ∈ rows, event.ingressSource = some text := by
  induction rows generalizing start with
  | nil =>
      cases known
      exact Or.inl some'
  | cons event rest ih =>
      simp only [ingressSourceOf] at known
      split at known
      · split at known
        · cases known
        · exact (ih known).imp_right (fun ⟨e, mem, from'⟩ => ⟨e, List.mem_cons_of_mem _ mem, from'⟩)
      · rename_i found from'
        rcases ih known with same | ⟨e, mem, from''⟩
        · exact Or.inr ⟨event, List.mem_cons_self, from'.trans same⟩
        · exact Or.inr ⟨e, List.mem_cons_of_mem _ mem, from''⟩
      · exact (ih known).imp_right (fun ⟨e, mem, from'⟩ => ⟨e, List.mem_cons_of_mem _ mem, from'⟩)

/-- Sources that all agree never conflict. -/
theorem ingressSourceOf_isOk {rows : List EventRow} {start : Option String} {text : String}
    (starts : ∀ found, start = some found → found = text)
    (agree : ∀ event ∈ rows, ∀ found, event.ingressSource = some found → found = text)
    : ∃ source, ingressSourceOf start rows = .ok source := by
  induction rows generalizing start with
  | nil => exact ⟨start, rfl⟩
  | cons event rest ih =>
      have others : ∀ event ∈ rest, ∀ found, event.ingressSource = some found → found = text :=
        fun event mem => agree event (List.mem_cons_of_mem _ mem)
      have here := agree event List.mem_cons_self
      simp only [ingressSourceOf]
      split
      · rename_i found existing from'
        rw [if_neg (by rw [here found from', starts existing rfl]; simp)]
        exact ih starts others
      · rename_i found from'
        exact ih (fun text same => here text (from'.trans same)) others
      · exact ih starts others

-----------------------------------------------------------------------------------------
-- The next input
-----------------------------------------------------------------------------------------

/-- The next input is absorbable. -/
theorem of_mem_nextInput {row : RunRow} {maxEvents : Nat} {event : EventRow}
    (mem : event ∈ nextInput s row maxEvents)
    : event ∈ s.events ∧ Absorbable s row.actorId row.workItemId event :=
  Table.mem_selectOrdered.mp (List.mem_of_mem_take mem)

/-- An event of the run once the batch is attached. -/
def Joins (s : Store) (row : RunRow) (batch : List EventRow) (event : EventRow) : Prop :=
  Attached s row.id event.id ∨ event.id ∈ batch.map (·.id)

instance (s : Store) (row : RunRow) (batch : List EventRow) : DecidablePred (Joins s row batch) :=
  fun _ => inferInstanceAs (Decidable (_ ∨ _))

/-- What attaching a batch to a run leaves: the rows and the taken events. -/
structure Takes (row : RunRow) (batch : List EventRow) (s t : Store) : Prop where
  store : t = { s with runEvents := t.runEvents, events := t.events }
  rows : ∀ link, link ∈ t.runEvents ↔
    link ∈ s.runEvents ∨ ∃ event ∈ batch, link = ⟨row.id, event.id, false⟩
  events : ∀ event', event' ∈ t.events ↔ ∃ event ∈ s.events,
    (if event.state = .pending ∧ event.id ∈ batch.map (·.id) then event.take row.id
      else event) = event'

namespace Takes

variable {row : RunRow} {batch : List EventRow}

theorem of_attachEvents (attached : attachEvents row.id batch s = .ok t)
    : Takes row batch s t := by
  obtain ⟨runEvents, events, rfl, rows, taken⟩ := attachEvents_ok attached
  exact ⟨rfl, rows, taken⟩

theorem actors (takes : Takes row batch s t) : t.actors = s.actors := by rw [takes.store]

theorem workItems (takes : Takes row batch s t) : t.workItems = s.workItems := by
  rw [takes.store]

theorem runs (takes : Takes row batch s t) : t.runs = s.runs := by rw [takes.store]

theorem localRequests (takes : Takes row batch s t) : t.localRequests = s.localRequests := by
  rw [takes.store]

theorem cancelTargets (takes : Takes row batch s t) : t.cancelTargets = s.cancelTargets := by
  rw [takes.store]

/-- The run has its old events and the batch. -/
theorem attached_iff (takes : Takes row batch s t) {eventId : EventId}
    : Attached t row.id eventId ↔
      Attached s row.id eventId ∨ eventId ∈ batch.map (·.id) := by
  simp only [Attached, takes.rows, or_and_right, exists_or, List.mem_map]
  refine or_congr_right ⟨?_, ?_⟩
  · rintro ⟨link, ⟨event, mem, rfl⟩, -, same⟩
    exact ⟨event, mem, same⟩
  · rintro ⟨event, mem, same⟩
    exact ⟨_, ⟨event, mem, rfl⟩, rfl, same⟩

/-- Taking an event changes neither its id, its sequence nor its source. -/
theorem mem_loadRunEvents (takes : Takes row batch s t) {event' : EventRow}
    : event' ∈ loadRunEvents t row.id ↔ ∃ event ∈ s.events, Joins s row batch event
      ∧ (if event.state = .pending ∧ event.id ∈ batch.map (·.id) then event.take row.id
        else event) = event' := by
  rw [Sqlite.mem_loadRunEvents, takes.events, takes.attached_iff]
  constructor
  · rintro ⟨⟨event, stored, rfl⟩, joins⟩
    refine ⟨event, stored, ?_, rfl⟩
    split at joins <;> exact joins
  · rintro ⟨event, stored, joins, rfl⟩
    refine ⟨⟨event, stored, rfl⟩, ?_⟩
    split <;> exact joins

/-- The sequences of the run's events are those of the events that join it. -/
theorem mem_sequences (takes : Takes row batch s t) {sequence : Nat}
    : sequence ∈ (loadRunEvents t row.id).map (·.mailboxSequence) ↔
      ∃ event ∈ s.events, Joins s row batch event ∧ event.mailboxSequence = sequence := by
  simp only [List.mem_map, takes.mem_loadRunEvents]
  constructor
  · rintro ⟨_, ⟨event, stored, joins, rfl⟩, same⟩
    refine ⟨event, stored, joins, ?_⟩
    split at same <;> exact same
  · rintro ⟨event, stored, joins, same⟩
    refine ⟨_, ⟨event, stored, joins, rfl⟩, ?_⟩
    split <;> exact same

end Takes

/-- The observed sequence is the newest of the run's events, or stays when there is none. -/
theorem observed_cases {row : RunRow} {batch : List EventRow} {observed : Nat}
    (takes : Takes row batch s t)
    (observes
      : observed
        = (((loadRunEvents t row.id).map (·.mailboxSequence)).max?).getD row.observedSequence)
    : (observed = row.observedSequence ∧ ∀ event ∈ s.events, ¬Joins s row batch event)
      ∨ ((∃ event ∈ s.events, Joins s row batch event ∧ event.mailboxSequence = observed)
        ∧ ∀ event ∈ s.events, Joins s row batch event → event.mailboxSequence ≤ observed) := by
  cases newest : ((loadRunEvents t row.id).map (·.mailboxSequence)).max? with
  | none =>
      rw [newest] at observes
      refine Or.inl ⟨observes, fun event stored joins => ?_⟩
      have := takes.mem_sequences.mpr ⟨event, stored, joins, rfl⟩
      rw [List.max?_eq_none_iff.mp newest] at this
      cases this
  | some sequence =>
      rw [newest, Option.getD_some] at observes
      obtain ⟨mem, greatest⟩ := List.max?_eq_some_iff.mp newest
      refine Or.inr ⟨observes ▸ takes.mem_sequences.mp mem, fun event stored joins => ?_⟩
      exact observes ▸ greatest _ (takes.mem_sequences.mpr ⟨event, stored, joins, rfl⟩)

-----------------------------------------------------------------------------------------
-- Attachment from a well-formed store
-----------------------------------------------------------------------------------------

/-- An event attached to an active run is in progress. -/
theorem WellFormed.inProgress (wf : WellFormed issued s) {row : RunRow} {event : EventRow}
    (runStored : row ∈ s.runs) (active : row.state = .active) (stored : event ∈ s.events)
    (attached : Attached s row.id event.id)
    : InProgress row event := by
  obtain ⟨link, linked, sameRun, sameEvent⟩ := attached
  obtain ⟨run, known, runId, event', stored', eventId, -, -, -, progress⟩ := wf.rowRun link linked
  have run_eq : run = row := Table.eq_of_clash known runStored (Or.inl (runId.trans sameRun))
  have event_eq : event' = event :=
    Table.eq_of_clash stored' stored (Or.inl (eventId.trans sameEvent))
  subst run_eq event_eq
  exact progress active

/-- Events of one work item belong to the actor of its runs. -/
theorem WellFormed.sameActor (wf : WellFormed issued s) {row : RunRow} {event : EventRow}
    (runStored : row ∈ s.runs) (stored : event ∈ s.events)
    (ofWork : event.workItemId = some row.workItemId)
    : event.actorId = row.actorId := by
  obtain ⟨work, workStored, workId, workActor, -⟩ := wf.eventWork event stored _ ofWork
  obtain ⟨work', workStored', workId', workActor', -⟩ := wf.runWork row runStored
  have : work = work' := Table.eq_of_clash workStored workStored' (workId.trans workId'.symm)
  rw [← workActor, this, workActor']

/-- A pending event of the run's work item that the next input leaves out is newer than all
of it: either a cancellation stands between them, or the limit cut the event off.
-/
theorem WellFormed.nextInput_lt (wf : WellFormed issued s) {row : RunRow} {maxEvents : Nat}
    (runStored : row ∈ s.runs) {taken event : EventRow}
    (mem : taken ∈ nextInput s row maxEvents) (stored : event ∈ s.events)
    (pending : event.state = .pending) (ofWork : event.workItemId = some row.workItemId)
    (beyond : event.id ∉ (nextInput s row maxEvents).map (·.id))
    : taken.mailboxSequence < event.mailboxSequence := by
  obtain ⟨takenStored, takenActor, takenWork, -, takenKind, unmarked, before⟩ :=
    of_mem_nextInput mem
  have actor := wf.sameActor runStored stored ofWork
  rcases wf.eventKind event stored with message | control
  · by_cases isBefore : BeforeCancels s event
    · have absorbable : Absorbable s row.actorId row.workItemId event :=
        ⟨actor, ofWork, pending, by simp [message], unmarked, isBefore⟩
      have le := Table.key_le_of_take mem stored absorbable
        (fun listed => beyond (List.mem_map_of_mem listed))
      have takenMessage := (wf.eventKind taken takenStored).resolve_right takenKind
      rw [takenMessage, message, Prod.Lex.toLex_le_toLex] at le
      refine lt_of_le_of_ne (by simpa using le) (fun same => beyond ?_)
      have : taken = event := Table.eq_of_clash takenStored stored
        (Or.inr (Or.inl ⟨takenActor.trans actor.symm, same⟩))
      exact this ▸ List.mem_map_of_mem mem
    · simp only [BeforeCancels, not_forall, not_lt] at isBefore
      obtain ⟨control, controlStored, sameActor, controlPending, isCancel, le⟩ := isBefore
      exact (before control controlStored (by rw [sameActor, actor, takenActor])
        controlPending isCancel).trans_le le
  · exact before event stored (actor.trans takenActor.symm) pending control

/-- The next input and the sequence observed with it may be absorbed. -/
theorem WellFormed.absorbs (wf : WellFormed issued s) {row : RunRow} {work : WorkItemRow}
    {lease : ActorLease} {maxEvents : Nat} {run : AttachedRun} (runStored : row ∈ s.runs)
    (active : row.state = .active) (takes : Takes row (nextInput s row maxEvents) s t)
    (reflects : Reflects lease row work t run)
    : Absorbs s row (nextInput s row maxEvents) run.observedSequence run.ingressSource := by
  have cases' := observed_cases takes reflects.observedSequence
  -- an event that joins was observed before or is next input
  have joined : ∀ event ∈ s.events, Joins s row (nextInput s row maxEvents) event →
      event.mailboxSequence ≤ row.observedSequence ∨ event ∈ nextInput s row maxEvents := by
    rintro event stored (attached | listed)
    · exact Or.inl (wf.inProgress runStored active stored attached).observed
    · obtain ⟨taken, mem, same⟩ := List.mem_map.mp listed
      have : taken = event :=
        Table.eq_of_clash (of_mem_nextInput mem).1 stored (Or.inl same)
      exact Or.inr (this ▸ mem)
  -- so a bound on both bounds the observed sequence
  have below : ∀ limit, row.observedSequence < limit →
      (∀ taken ∈ nextInput s row maxEvents, taken.mailboxSequence < limit) →
      run.observedSequence < limit := by
    intro limit old new
    rcases cases' with ⟨same, -⟩ | ⟨⟨event, stored, joins, same⟩, -⟩
    · exact same ▸ old
    · rw [← same]
      rcases joined event stored joins with le | mem
      · exact le.trans_lt old
      · exact new event mem
  exact {
    absorbable := fun event mem => of_mem_nextInput mem
    advances := by
      rcases cases' with ⟨same, -⟩ | ⟨-, bound⟩
      · exact same.ge
      · by_cases zero : row.observedSequence = 0
        · simp [zero]
        · obtain ⟨event, stored, attached, same⟩ := (wf.runBacked row runStored active).2 zero
          exact same ▸ bound event stored (Or.inl attached)
    observes := by
      intro event mem
      have joins : Joins s row (nextInput s row maxEvents) event :=
        Or.inr (List.mem_map_of_mem mem)
      rcases cases' with ⟨-, none⟩ | ⟨-, bound⟩
      · exact absurd joins (none event (of_mem_nextInput mem).1)
      · exact bound event (of_mem_nextInput mem).1 joins
    counted := by
      obtain ⟨actor, stored, same, le⟩ := wf.runActor row runStored
      refine ⟨actor, stored, same, Nat.lt_succ_iff.mp (below _ (Nat.lt_succ_of_le le) ?_)⟩
      intro taken mem
      obtain ⟨takenStored, takenActor, -⟩ := of_mem_nextInput mem
      obtain ⟨-, actor', stored', same', le'⟩ := wf.eventActor taken takenStored
      have : actor' = actor :=
        Table.eq_of_clash stored' stored (same'.trans (takenActor.trans same.symm))
      exact Nat.lt_succ_of_le (this ▸ le')
    belowCancels := by
      intro control stored pending actor
      refine below _ (wf.belowCancels row runStored active control stored pending actor) ?_
      intro taken mem
      obtain ⟨-, takenActor, -, -, -, -, before⟩ := of_mem_nextInput mem
      exact before control stored (actor.trans takenActor.symm) pending.2 pending.1
    belowPending := by
      intro event stored pending ofWork beyond
      exact below _ (wf.belowPending row runStored active event stored pending ofWork)
        (fun taken mem => wf.nextInput_lt runStored mem stored pending ofWork beyond)
    source := by
      intro text known
      rcases ingressSourceOf_ok reflects.source text known with had | ⟨event', mem, from'⟩
      · obtain ⟨event, stored, attached, from'⟩ := (wf.runBacked row runStored active).1 text had
        exact ⟨event, stored, from', Or.inl attached⟩
      · obtain ⟨event, stored, joins, rfl⟩ := takes.mem_loadRunEvents.mp mem
        refine ⟨event, stored, ?_, joins⟩
        split at from' <;> exact from'
    exact := by
      intro positive
      rcases cases' with ⟨same, -⟩ | ⟨⟨event, stored, joins, same⟩, -⟩
      · obtain ⟨event, stored, attached, same'⟩ :=
          (wf.runBacked row runStored active).2 (same ▸ positive)
        exact ⟨event, stored, same'.trans same.symm, Or.inl attached⟩
      · exact ⟨event, stored, same, joins⟩ }

/-- The run that is handed out is held under the lease it was attached with. -/
theorem attachNextRun_lease {lease : ActorLease} {maxEvents : Nat} {now : Timestamp}
    {ids : FreshIds} {run : AttachedRun}
    (attached : attachNextRun lease maxEvents now ids s = .ok (some run, s'))
    : run.lease = lease := by
  obtain ⟨-, -, ⟨row, work, due, -, -, resumed⟩ | ⟨-, -, none, -⟩ |
    ⟨row, work, m, -, opened, resumed⟩⟩ := attachNextRun_ok attached
  · obtain ⟨t, -, ⟨none, -⟩ | ⟨_, same, reflects, -⟩⟩ :=
      resumeRun_ok (dueActiveRun_some due).2.1 resumed
    · cases none
    · cases same
      exact reflects.lease
  · cases none
  · obtain ⟨m', -, ⟨-, none⟩ | ⟨event, work', runs, -, some'⟩⟩ := openRun_ok opened
    · cases none
    · cases some'
      obtain ⟨t, -, ⟨none, -⟩ | ⟨_, same, reflects, -⟩⟩ := resumeRun_ok rfl resumed
      · cases none
      · cases same
        exact reflects.lease

end Codrik.Runtime.Sqlite
