import Codrik.Runtime.Sqlite.Invariant

/-! Runs and the events attached to them, as the tables `runs`, `run_events` and
`inbound_events` keep them.
-/

namespace Codrik.Runtime.Sqlite

open Codrik.Relational
open Codrik.Transition

variable {issued : List AttachedRun} {s : Store}

/-- The event is attached to an active run. -/
def InActiveRun (s : Store) (event : EventRow) : Prop :=
  ∃ run ∈ s.runs, run.state = .active ∧ Attached s run.id event.id

/-- The tables agree on which run each event is in. -/
structure Bookkept (s : Store) : Prop where
  /-- A work item has at most one active run. -/
  oneActive : ∀ run ∈ s.runs, ∀ other ∈ s.runs, run.state = .active → other.state = .active →
    run.workItemId = other.workItemId → run = other
  /-- An event occurs in at most one row of `run_events`. -/
  oneRow : ∀ row ∈ s.runEvents, ∀ other ∈ s.runEvents, row.eventId = other.eventId →
    row = other
  /-- The events in progress are those of active runs. -/
  processing : ∀ event ∈ s.events, event.state = .processing ↔ InActiveRun s event
  /-- An event of an active run names that run and its work item. -/
  named : ∀ event ∈ s.events, ∀ run ∈ s.runs, run.state = .active →
    Attached s run.id event.id →
    event.runId = some run.id ∧ event.workItemId = some run.workItemId
  /-- A run that ended leaves no open event behind. -/
  ended : ∀ run ∈ s.runs, run.state ≠ .active → ∀ event ∈ s.events,
    Attached s run.id event.id → event.state ≠ .pending ∧ event.state ≠ .processing

/-- The run and the event that a row of `run_events` connects. -/
theorem WellFormed.attached (wf : WellFormed issued s) {run : RunRow} {event : EventRow}
    (runStored : run ∈ s.runs) (eventStored : event ∈ s.events)
    (attached : Attached s run.id event.id)
    : event.state ≠ .pending ∧ (run.state = .active → InProgress run event) := by
  obtain ⟨row, stored, ofRun, ofEvent⟩ := attached
  obtain ⟨run', runStored', runId, event', eventStored', eventId, -, notPending, -, progress⟩ :=
    wf.rowRun row stored
  have sameRun : run' = run :=
    Table.eq_of_clash runStored' runStored (Or.inl (runId.trans ofRun))
  have sameEvent : event' = event :=
    Table.eq_of_clash eventStored' eventStored (Or.inl (eventId.trans ofEvent))
  subst sameRun sameEvent
  exact ⟨notPending, progress⟩

/-- An event in progress is attached to an active run. -/
theorem WellFormed.inActiveRun (wf : WellFormed issued s) {event : EventRow}
    (stored : event ∈ s.events) (processing : event.state = .processing)
    : InActiveRun s event := by
  obtain ⟨row, rowStored, ofEvent, run, runStored, runId, active⟩ :=
    wf.processing event stored processing
  exact ⟨run, runStored, active, row, rowStored, runId.symm, ofEvent⟩

/-- A well-formed store keeps books, as its invariant and the constraints of its tables say. -/
theorem WellFormed.bookkept (wf : WellFormed issued s) : Bookkept s where
  oneActive run stored other stored' active active' same :=
    Table.eq_of_clash stored stored' (Or.inr ⟨active, active', same⟩)
  oneRow row stored other stored' same := Table.eq_of_clash stored stored' same
  processing event stored := by
    constructor
    · exact wf.inActiveRun stored
    · intro inRun
      obtain ⟨run, runStored, active, attached⟩ := inRun
      exact ((wf.attached runStored stored attached).2 active).state
  named event stored run runStored active attached :=
    have progress := (wf.attached runStored stored attached).2 active
    ⟨progress.runId, progress.workItemId⟩
  ended run runStored inactive event stored attached := by
    refine ⟨(wf.attached runStored stored attached).1, fun processing => ?_⟩
    obtain ⟨other, otherStored, active, attachedOther⟩ := wf.inActiveRun stored processing
    obtain ⟨row, rowStored, ofRun, ofEvent⟩ := attached
    obtain ⟨row', rowStored', ofRun', ofEvent'⟩ := attachedOther
    have sameRow : row = row' :=
      Table.eq_of_clash rowStored rowStored' (ofEvent.trans ofEvent'.symm)
    have sameRun : run = other := by
      apply Table.eq_of_clash runStored otherStored
      exact Or.inl (ofRun.symm.trans (sameRow ▸ ofRun'))
    exact inactive (sameRun ▸ active)

/-- In every reachable world runs and events are kept in step, whatever operations led there.
-/
theorem reachable_bookkept {w : World} (reached : runtime.Reachable w) : Bookkept w.store :=
  (reachable_wellFormed reached).bookkept

namespace Requeued

def lease : ActorLease := ⟨localActor, "daemon", 1, 100000⟩

/-- Two messages of one work item; the first is attached to a run, and the last failure of
its quanta returns it to the mailbox, where it gets a run of its own.
-/
def world : World := World.single.play
  [.submitForActor localActor ⟨⟨1⟩, "hello", "sha"⟩ 10 (.numbered 1),
    .acquireReadyActor "daemon" 20 100000,
    .attachNextRun lease 1 30 (.numbered 3),
    .recordFailure ⟨lease, ⟨1⟩, ⟨3⟩⟩ "timeout" .none 40 (.numbered 4),
    .recordFailure ⟨lease, ⟨1⟩, ⟨3⟩⟩ "timeout" .none 50 (.numbered 5),
    .recordFailure ⟨lease, ⟨1⟩, ⟨3⟩⟩ "timeout" .none 60 (.numbered 6),
    .recordFailure ⟨lease, ⟨1⟩, ⟨3⟩⟩ "timeout" .none 70 (.numbered 7),
    .recordFailure ⟨lease, ⟨1⟩, ⟨3⟩⟩ "timeout" .none 80 (.numbered 8),
    .attachNextRun lease 8 90 (.numbered 9)]

theorem reachable : runtime.Reachable world :=
  reachable_play reachable_single (by decide +kernel)

end Requeued

/-- The books are in order after a failed run whose message went to a second run. -/
theorem reachable_bookkept_requeued
    : (∃ run ∈ Requeued.world.store.runs, run.state = .failedTerminal)
      ∧ (∃ run ∈ Requeued.world.store.runs, run.state = .active
        ∧ ∃ row ∈ Requeued.world.store.runEvents, row.runId = run.id)
      ∧ Bookkept Requeued.world.store :=
  ⟨by decide +kernel, by decide +kernel, reachable_bookkept Requeued.reachable⟩

end Codrik.Runtime.Sqlite
