import Codrik.Runtime.Sqlite.Leases

/-! Tool attempts only move forward: an attempt is started once, a settled one never changes,
and one whose runner lost its lease is never settled by that runner.
-/

namespace Codrik.Runtime.Sqlite

open Codrik.Relational
open Codrik.Transition

variable {s s' : Store}

-----------------------------------------------------------------------------------------
-- The order of attempt states
-----------------------------------------------------------------------------------------

/-- The attempt was started and its outcome is not known. -/
def AttemptState.Open (state : AttemptState) : Prop :=
  state = .running ∨ state = .outcomeUnknown ∨ state = .waitingForDecision

/-- The states an attempt may be in later on. -/
inductive AttemptState.Later : AttemptState → AttemptState → Prop
  | same (state) : Later state state
  | prepared (state) : Later .prepared state
  | running {state} (moved : state ≠ .prepared) : Later .running state
  | unknown : Later .outcomeUnknown .waitingForDecision

theorem AttemptState.Later.trans {a b c : AttemptState} (first : Later a b)
    (second : Later b c)
    : Later a c := by
  cases first with
  | same => exact second
  | prepared => exact .prepared c
  | running moved =>
      cases second with
      | same => exact .running moved
      | prepared => exact absurd rfl moved
      | running moved' => exact .running moved'
      | unknown => exact .running (by decide)
  | unknown =>
      cases second
      exact .unknown

/-- Nothing returns to `prepared`. -/
theorem AttemptState.Later.left_prepared {a b : AttemptState} (later : Later a b)
    (left : a ≠ .prepared)
    : b ≠ .prepared := by
  cases later with
  | same => exact left
  | prepared => exact absurd rfl left
  | running moved => exact moved
  | unknown => decide

/-- A settled state is absorbing. -/
theorem AttemptState.Later.of_settled {a b : AttemptState} (later : Later a b)
    (settled : AttemptState.Settled a)
    : b = a := by
  cases later with
  | same => rfl
  | prepared => simp [AttemptState.Settled] at settled
  | running => simp [AttemptState.Settled] at settled
  | unknown => simp [AttemptState.Settled] at settled

/-- The attempt that a call settles with the outcome of its execution. -/
def Call.settles : Call → AttemptId → Prop
  | .finishAttempt _ id _ _, attempt => attempt = id
  | .commitStagedExecution _ _ id _ _ _, attempt => attempt = id
  | _, _ => False

/-- The attempt whose unknown outcome a call refers to a decision. -/
def Call.refers : Call → AttemptId → Prop
  | .blockUnknownAttempt _ id _, attempt => attempt = id
  | _, _ => False

/-- How a call may change an attempt. -/
structure Advances (call : Call) (before after : AttemptRow) : Prop where
  id : after.id = before.id
  later : AttemptState.Later before.state after.state
  outcome : AttemptState.Settled before.state → after.outcomeJson = before.outcomeJson
  open' : ¬call.settles before.id → AttemptState.Open before.state →
    AttemptState.Open after.state
  waits : ¬call.refers before.id → after.state = .waitingForDecision →
    before.state = .waitingForDecision

theorem Advances.refl (call : Call) (row : AttemptRow)
    : Advances call row row :=
  ⟨rfl, .same _, fun _ => rfl, fun _ isOpen => isOpen, fun _ waiting => waiting⟩

theorem Advances.trans {call : Call} {a b c : AttemptRow}
    (first : Advances call a b) (second : Advances call b c)
    : Advances call a c where
  id := second.id.trans first.id
  later := first.later.trans second.later
  outcome settled :=
    (second.outcome (first.later.of_settled settled ▸ settled)).trans (first.outcome settled)
  open' other isOpen := second.open' (first.id ▸ other) (first.open' other isOpen)
  waits other waiting := first.waits other (second.waits (first.id ▸ other) waiting)

/-- How the attempts may change: stored ones advance, and others may be added. -/
structure AttemptsAdvance (call : Call) (before after : Table AttemptRow)
    : Prop where
  backward : ∀ row' ∈ after, (∃ row ∈ before, Advances call row row')
    ∨ ∀ row ∈ before, row.id ≠ row'.id
  forward : ∀ row ∈ before, ∃ row' ∈ after, Advances call row row'

theorem AttemptsAdvance.refl (call : Call) (attempts : Table AttemptRow)
    : AttemptsAdvance call attempts attempts :=
  ⟨fun row mem => Or.inl ⟨row, mem, .refl _ row⟩, fun row mem => ⟨row, mem, .refl _ row⟩⟩

/-- Changes of the attempts compose. -/
theorem AttemptsAdvance.trans {call : Call} {a b c : Table AttemptRow}
    (first : AttemptsAdvance call a b) (second : AttemptsAdvance call b c)
    : AttemptsAdvance call a c := by
  constructor
  · intro row mem
    rcases second.backward row mem with ⟨middle, mem', next⟩ | fresh
    · rcases first.backward middle mem' with ⟨before, stored, next'⟩ | fresh
      · exact Or.inl ⟨before, stored, next'.trans next⟩
      · exact Or.inr (fun before stored => next.id ▸ fresh before stored)
    · refine Or.inr (fun before stored => ?_)
      obtain ⟨middle, mem', next⟩ := first.forward before stored
      exact next.id ▸ fresh middle mem'
  · intro row mem
    obtain ⟨middle, mem', next⟩ := first.forward row mem
    obtain ⟨row', mem'', next'⟩ := second.forward middle mem'
    exact ⟨row', mem'', next.trans next'⟩

/-- The row an attempt has become. -/
theorem AttemptsAdvance.of_sameId {call : Call} {a b : Table AttemptRow}
    (advance : AttemptsAdvance call a b) {before after : AttemptRow} (stored : before ∈ a)
    (stored' : after ∈ b) (same : after.id = before.id)
    : Advances call before after := by
  obtain ⟨row, mem, next⟩ := advance.forward before stored
  have : row = after := Table.eq_of_clash mem stored' (Or.inl (next.id.trans same.symm))
  exact this ▸ next

/-- An update advances the attempts when it advances each row it changes. -/
theorem AttemptsAdvance.update {call : Call} {attempts : Table AttemptRow}
    {p : AttemptRow → Prop} [DecidablePred p] {f : AttemptRow → AttemptRow}
    {k : Table.KeepsKey f} (advances : ∀ row ∈ attempts, p row → Advances call row (f row))
    : AttemptsAdvance call attempts (attempts.updateWhere p f k) := by
  have next : ∀ row ∈ attempts, Advances call row (if p row then f row else row) := by
    intro row mem
    split
    · exact advances row mem ‹_›
    · exact .refl _ row
  constructor
  · intro row' mem
    obtain ⟨row, stored, rfl⟩ := Table.mem_updateWhere.mp mem
    exact Or.inl ⟨row, stored, next row stored⟩
  · intro row mem
    exact ⟨_, Table.updateWhere_mem mem, next row mem⟩

-----------------------------------------------------------------------------------------
-- One call
-----------------------------------------------------------------------------------------

/-- Giving a running attempt up. -/
theorem Advances.giveUp {call : Call} {row : AttemptRow}
    (running : row.state = .running)
    : Advances call row { row with state := .outcomeUnknown } where
  id := rfl
  later := by
    rw [running]
    exact .running (by simp)
  outcome settled := by simp [AttemptState.Settled, running] at settled
  open' _ _ := Or.inr (Or.inl rfl)
  waits _ waiting := by cases waiting

/-- Leaving `prepared`. -/
theorem Advances.leavePrepared {call : Call} {row : AttemptRow}
    {next : AttemptState} {outcome : Option AttemptOutcome} (prepared : row.state = .prepared)
    (known : next ≠ .waitingForDecision)
    : Advances call row { row with state := next, outcomeJson := outcome } where
  id := rfl
  later := prepared ▸ .prepared next
  outcome settled := by simp [AttemptState.Settled, prepared] at settled
  open' _ isOpen := by simp [AttemptState.Open, prepared] at isOpen
  waits _ waiting := absurd waiting known

/-- Settling a running attempt with a known outcome. -/
theorem Advances.settle {call : Call} {row : AttemptRow}
    {next : AttemptState} {outcome : Option AttemptOutcome} (running : row.state = .running)
    (known : AttemptState.Settled next) (allowed : call.settles row.id)
    : Advances call row { row with state := next, outcomeJson := outcome } where
  id := rfl
  later := by
    rw [running]
    refine .running (fun prepared => ?_)
    change next = _ at prepared
    simp [AttemptState.Settled, prepared] at known
  outcome settled := by simp [AttemptState.Settled, running] at settled
  open' other := absurd allowed other
  waits _ waiting := by
    change next = _ at waiting
    simp [AttemptState.Settled, waiting] at known

theorem AttemptOutcome.settled_settled (outcome : AttemptOutcome)
    : AttemptState.Settled (AttemptOutcome.settled outcome) := by
  cases outcome <;> simp [AttemptOutcome.settled, AttemptState.Settled]

/-- Recovering candidates gives running attempts up, by induction on the candidates. -/
theorem recoverCandidates_advance (call : Call) {now : Timestamp}
    {candidates : List RecoveredUnknownOutcome}
    : AttemptsAdvance call s.toolAttempts
        (recoverCandidates now candidates s).2.toolAttempts := by
  refine recoverCandidates_invariant
    (J := fun t => AttemptsAdvance call s.toolAttempts t.toolAttempts) ?_ candidates (.refl _ _)
  intro t candidate before
  exact before.trans (.update (fun row _ hit => .giveUp hit.2))

/-- Checkpointing attempts keeps their states and outcomes, by induction on the attempts. -/
theorem checkpointAttempts_advance (call : Call) {run : AttachedRun}
    {attemptIds : List AttemptId}
    (marked : checkpointAttempts run attemptIds s = .ok s')
    : AttemptsAdvance call s.toolAttempts s'.toolAttempts := by
  induction attemptIds generalizing s with
  | nil =>
      cases marked
      exact .refl _ _
  | cons attemptId rest ih =>
      simp only [checkpointAttempts, bind_eq_ok] at marked
      obtain ⟨_, _, others⟩ := marked
      refine AttemptsAdvance.trans (.update ?_) (ih others)
      exact fun row _ _ => ⟨rfl, .same _, fun _ => rfl, fun _ isOpen => isOpen,
        fun _ waiting => waiting⟩

/-- Waiting for a decision about an unknown outcome. -/
theorem Advances.await {call : Call} {row : AttemptRow}
    (unknown : row.state = .outcomeUnknown) (allowed : call.refers row.id)
    : Advances call row { row with state := .waitingForDecision } where
  id := rfl
  later := by
    rw [unknown]
    exact .unknown
  outcome settled := by simp [AttemptState.Settled, unknown] at settled
  open' _ _ := Or.inr (Or.inr rfl)
  waits other := absurd allowed other

/-- Preparing an attempt adds a row or finds one. -/
theorem prepareAttempt_advance (call : Call) {run : AttachedRun}
    {attempt : NewToolAttempt} {now : Timestamp} {prepared : ToolAttempt}
    (done : prepareAttempt run attempt now s = .ok (prepared, s'))
    : AttemptsAdvance call s.toolAttempts s'.toolAttempts := by
  simp only [prepareAttempt, bind_eq_ok, execute_eq_ok] at done
  obtain ⟨_, _, attempts, inserted, _, _, _, _, result⟩ := done
  cases result
  unfold Table.insertUnless at inserted
  split at inserted
  · cases inserted
    exact .refl _ _
  · constructor
    · intro row mem
      rcases (Table.mem_insert? inserted).mp mem with stored | rfl
      · exact Or.inl ⟨row, stored, .refl _ row⟩
      · exact Or.inr (fun row stored same => Table.fresh_of_insert? inserted row stored (Or.inl same))
    · intro row stored
      exact ⟨row, (Table.mem_insert? inserted).mpr (Or.inl stored), .refl _ row⟩

/-- Recovering an attempt gives it up when it is running. -/
theorem recoverAttempt_advance (call : Call) {id : AttemptId}
    {recovery : AttemptRecovery} (done : recoverAttempt id s = .ok (recovery, s'))
    : AttemptsAdvance call s.toolAttempts s'.toolAttempts := by
  simp only [recoverAttempt, bind_eq_ok] at done
  obtain ⟨row, _, rest⟩ := done
  split at rest
  case h_2 =>
    cases rest
    exact .update (fun row _ hit => .giveUp hit.2)
  all_goals try split at rest
  all_goals
    cases rest
    try exact .refl _ _

/-- The last failure gives running attempts up and cancels prepared ones. -/
theorem Fails.advance (call : Call) {row : RunRow} {error : String}
    {now : Timestamp} (fails : Fails row error now s s')
    : AttemptsAdvance call s.toolAttempts s'.toolAttempts := by
  obtain ⟨_, _, t, -, -, same, rfl⟩ := fails
  change AttemptsAdvance _ _ (failRun row now t).toolAttempts
  have attempts : t.toolAttempts = s.toolAttempts := same.sameLeases.toolAttempts
  rw [failRun, attempts]
  refine AttemptsAdvance.trans (.update (fun row _ hit => .giveUp hit.2)) (.update ?_)
  exact fun row _ hit => .leavePrepared hit.2 (by decide)

/-- A transition from `running` by a call that may settle the attempt. -/
theorem transitionAttempt_advance {call : Call} {run : AttachedRun}
    {id : AttemptId} {expected next : AttemptState} {outcome : Option AttemptOutcome}
    {now : Timestamp} {u : Unit}
    (moved : transitionAttempt run id expected next outcome now s = .ok (u, s'))
    (allowed
      : (expected = .prepared ∧ next ≠ .waitingForDecision)
        ∨ (expected = .running ∧ AttemptState.Settled next ∧ call.settles id))
    : AttemptsAdvance call s.toolAttempts s'.toolAttempts := by
  obtain ⟨-, -, rfl⟩ := transitionAttempt_ok moved
  refine .update ?_
  rintro row - ⟨rfl, -, state⟩
  rcases allowed with ⟨rfl, known⟩ | ⟨rfl, known, settled⟩
  · exact .leavePrepared state known
  · exact .settle state known settled

/-- A committed call advances the attempts and settles only those it is allowed to, by cases
on the operation.
-/
theorem perform_advance {call : Call} {answer : Answer}
    (performed : call.perform s = .ok (answer, s'))
    : AttemptsAdvance call s.toolAttempts s'.toolAttempts := by
  have unchanged : s'.toolAttempts = s.toolAttempts →
      AttemptsAdvance call s.toolAttempts s'.toolAttempts :=
    fun same => same ▸ .refl _ _
  cases call <;> simp only [Call.perform, answering_eq_ok, reading_eq_ok] at performed
  case ingest =>
    obtain ⟨_, done, -⟩ := performed
    exact unchanged (ingest_sameExecution done).toolAttempts
  case submitForActor =>
    obtain ⟨_, done, -⟩ := performed
    exact unchanged (submitForActor_sameExecution done).toolAttempts
  case cancelForActor =>
    obtain ⟨_, done, -⟩ := performed
    exact unchanged (cancelForActor_sameExecution done).toolAttempts
  case ingestWebhook =>
    obtain ⟨_, done, -⟩ := performed
    exact unchanged (ingestWebhook_sameExecution done).toolAttempts
  case acquireReadyActor =>
    obtain ⟨_, done, -⟩ := performed
    obtain ⟨_, rfl⟩ := acquire_ok done
    exact .refl _ _
  case acquireReadyActorFor =>
    obtain ⟨_, done, -⟩ := performed
    obtain ⟨_, rfl⟩ := acquire_ok done
    exact .refl _ _
  case renewLease =>
    obtain ⟨_, done, -⟩ := performed
    obtain ⟨-, rfl⟩ := renewLease_ok done
    exact .refl _ _
  case releaseLease =>
    obtain ⟨_, done, -⟩ := performed
    cases done
    exact .refl _ _
  case attachNextRun =>
    obtain ⟨_, done, -⟩ := performed
    exact unchanged (attachNextRun_sameLeases done).toolAttempts
  case newerControlEvent =>
    exact unchanged (congrArg Store.toolAttempts performed.1.symm)
  case checkpointRun command now =>
    obtain ⟨_, done, -⟩ := performed
    simp only [checkpointRun, incorporateEvents, insertMessages, bind_eq_ok] at done
    obtain ⟨_, _, m, ⟨_, _, marked⟩, t, attempts, _, ⟨_, _, stored⟩, result⟩ := done
    cases stored
    cases result
    have advance := checkpointAttempts_advance (.checkpointRun command now) attempts
    rw [(incorporateEach_sameLeases marked).toolAttempts] at advance
    exact advance
  case finalizeRun =>
    obtain ⟨_, done, -⟩ := performed
    exact unchanged (finalizeRun_sameLeases done).toolAttempts
  case cancelRun =>
    obtain ⟨_, done, -⟩ := performed
    obtain ⟨-, -, _, _, t, -, -, same, rfl⟩ := cancelRun_ok done
    change AttemptsAdvance _ _ t.toolAttempts
    rw [same.sameLeases.toolAttempts]
    exact .update (fun row _ hit => .giveUp hit.2)
  case prepareAttempt =>
    obtain ⟨_, done, -⟩ := performed
    exact prepareAttempt_advance _ done
  case markAttemptRunning =>
    obtain ⟨_, done, -⟩ := performed
    exact transitionAttempt_advance done (Or.inl ⟨rfl, by decide⟩)
  case rejectPreparedAttempt =>
    obtain ⟨_, done, -⟩ := performed
    unfold rejectPreparedAttempt at done
    split at done
    · cases done
    · refine transitionAttempt_advance done (Or.inl ⟨rfl, fun waiting => ?_⟩)
      rcases AttemptOutcome.settled_settled _ with same | same | same <;>
        rw [waiting] at same <;> cases same
  case finishAttempt =>
    obtain ⟨_, done, -⟩ := performed
    exact transitionAttempt_advance done
      (Or.inr ⟨rfl, AttemptOutcome.settled_settled _, rfl⟩)
  case recoverAttempt =>
    obtain ⟨_, done, -⟩ := performed
    exact recoverAttempt_advance _ done
  case blockUnknownAttempt =>
    obtain ⟨_, done, -⟩ := performed
    simp only [blockUnknownAttempt, bind_eq_ok] at done
    obtain ⟨_, _, _, _, result⟩ := done
    cases result
    exact .update (fun row _ hit => .await hit.2.2 hit.1)
  case unresolvedAttempts =>
    exact unchanged (congrArg Store.toolAttempts performed.1.symm)
  case beginStaging =>
    obtain ⟨_, done, -⟩ := performed
    simp only [beginStaging, bind_eq_ok] at done
    obtain ⟨_, _, _, _, _, _, result⟩ := done
    cases result
    exact .refl _ _
  case deliverBundle step =>
    obtain ⟨_, done, -⟩ := performed
    obtain ⟨_, rfl, -⟩ := step.perform_ok done
    exact .refl _ _
  case commitStagedExecution =>
    obtain ⟨_, done, -⟩ := performed
    obtain ⟨-, -, _, _, rfl⟩ := commitStagedExecution_ok done
    exact .update (fun row _ hit => .settle hit.2.2 (Or.inl rfl) hit.1)
  case recordFailure =>
    obtain ⟨_, done, -⟩ := performed
    obtain ⟨row, work, -, -, -, ⟨-, -, rfl⟩ | ⟨-, -, fails⟩⟩ := recordFailure_ok done
    · exact .refl _ _
    · exact fails.advance _
  case recordProgress =>
    obtain ⟨_, done, -⟩ := performed
    simp only [recordProgress, bind_eq_ok] at done
    obtain ⟨_, _, result⟩ := done
    cases result
    exact .refl _ _
  case recoverStartup =>
    obtain ⟨_, done, -⟩ := performed
    cases done
    exact recoverCandidates_advance _
  case recoverShutdown =>
    obtain ⟨_, done, -⟩ := performed
    cases done
    exact .refl _ _

/-- Every step advances the attempts. -/
theorem after_advance (w : World) (call : Call)
    : AttemptsAdvance call w.store.toolAttempts (w.after call).store.toolAttempts := by
  rcases w.after_cases call with same | ⟨answer, s, performed, same⟩
  · rw [same]
    exact .refl _ _
  · rw [same, World.commit_store]
    exact perform_advance performed

/-- Referring an attempt to a decision takes an unknown outcome. -/
theorem blockUnknownAttempt_waits {w : World} {run : AttachedRun} {id : AttemptId}
    {now : Timestamp} {before after : AttemptRow} (stored : before ∈ w.store.toolAttempts)
    (stored' : after ∈ (w.after (.blockUnknownAttempt run id now)).store.toolAttempts)
    (same : after.id = before.id) (waiting : after.state = .waitingForDecision)
    : before.state = .outcomeUnknown ∨ before.state = .waitingForDecision := by
  rcases w.after_cases (.blockUnknownAttempt run id now) with unchanged |
    ⟨answer, s, performed, changed⟩
  · rw [unchanged] at stored'
    have : after = before := Table.eq_of_clash stored' stored (Or.inl same)
    exact Or.inr (this ▸ waiting)
  · rw [changed, World.commit_store] at stored'
    simp only [Call.perform, answering_eq_ok, blockUnknownAttempt, bind_eq_ok] at performed
    obtain ⟨_, ⟨_, _, _, _, result⟩, -⟩ := performed
    cases result
    obtain ⟨row, known, rfl⟩ := Table.mem_updateWhere.mp stored'
    have isRow : row = before := by
      refine Table.eq_of_clash known stored (Or.inl ?_)
      split at same <;> exact same
    subst isRow
    split at waiting
    · exact Or.inl ‹AttemptIn _ _ _ _›.2.2
    · exact Or.inr waiting

-----------------------------------------------------------------------------------------
-- Started attempts
-----------------------------------------------------------------------------------------

/-- A committed call starts the attempt it marks as running, and no other. -/
theorem World.commit_started (w : World) {call : Call} {answer : Answer} {s : Store}
    (performed : call.perform w.store = .ok (answer, s))
    : (w.commit call answer s).started = w.started
      ∨ ∃ run id now, call = .markAttemptRunning run id now
        ∧ (w.commit call answer s).started
          = ⟨id, run.lease, w.acquisitionsOf run.lease.actorId run.lease.ownerId⟩
            :: w.started := by
  unfold World.commit
  split
  case h_4 _ run id now => exact Or.inr ⟨run, id, now, rfl, rfl⟩
  all_goals exact Or.inl rfl

/-- Every started attempt is stored and has left `prepared`, and was started once. -/
structure StartedOnce (w : World) : Prop where
  left : ∀ start ∈ w.started, ∃ row ∈ w.store.toolAttempts, row.id = start.id
    ∧ row.state ≠ .prepared
  once : (w.started.map (·.id)).Nodup

/-- A step starts at most one attempt, which was prepared until then. -/
theorem StartedOnce.after {w : World} (started : StartedOnce w) (call : Call)
    : StartedOnce (w.after call) := by
  have advance := after_advance w call
  have left : ∀ start ∈ w.started, ∃ row ∈ (w.after call).store.toolAttempts,
      row.id = start.id ∧ row.state ≠ .prepared := by
    intro start mem
    obtain ⟨row, stored, same, notPrepared⟩ := started.left start mem
    obtain ⟨row', stored', next⟩ := advance.forward row stored
    exact ⟨row', stored', next.id.trans same, next.later.left_prepared notPrepared⟩
  rcases w.after_cases call with same | ⟨answer, s, performed, same⟩
  · exact same.symm ▸ started
  · rw [same] at left ⊢
    rcases w.commit_started performed with unchanged | ⟨run, id, now, rfl, added⟩
    · exact ⟨by rw [unchanged]; exact left, by rw [unchanged]; exact started.once⟩
    · simp only [Call.perform, answering_eq_ok] at performed
      obtain ⟨_, marked, rfl⟩ := performed
      obtain ⟨-, ⟨attempt, stored, sameId, ofRun, prepared⟩, rfl⟩ := transitionAttempt_ok marked
      constructor
      · intro start mem
        rw [added] at mem
        rcases List.mem_cons.mp mem with rfl | mem
        · rw [World.commit_store]
          exact ⟨_, Table.updateWhere_mem_of stored ⟨sameId, ofRun, prepared⟩, sameId, by simp⟩
        · exact left start mem
      · rw [added, List.map_cons, List.nodup_cons]
        refine ⟨fun again => ?_, started.once⟩
        obtain ⟨start, mem, sameStart⟩ := List.mem_map.mp again
        obtain ⟨row, known, rowId, notPrepared⟩ := started.left start mem
        have : row = attempt := Table.eq_of_clash known stored
          (Or.inl (rowId.trans (sameStart.trans sameId.symm)))
        exact notPrepared (this ▸ prepared)

-----------------------------------------------------------------------------------------
-- Lost leases
-----------------------------------------------------------------------------------------

/-- The time a call is made at, for the calls that read the clock. -/
def Call.time? : Call → Option Timestamp
  | .ingest _ now _ => some now
  | .submitForActor _ _ now _ => some now
  | .cancelForActor _ _ now _ => some now
  | .ingestWebhook _ now _ => some now
  | .acquireReadyActor _ now _ => some now
  | .acquireReadyActorFor _ _ now _ => some now
  | .renewLease _ now _ => some now
  | .releaseLease _ => none
  | .attachNextRun _ _ now _ => some now
  | .newerControlEvent _ _ now => some now
  | .checkpointRun _ now => some now
  | .finalizeRun _ now _ => some now
  | .cancelRun _ _ now _ => some now
  | .prepareAttempt _ _ now => some now
  | .markAttemptRunning _ _ now => some now
  | .rejectPreparedAttempt _ _ _ now => some now
  | .finishAttempt _ _ _ now => some now
  | .recoverAttempt _ => none
  | .blockUnknownAttempt _ _ now => some now
  | .unresolvedAttempts _ => none
  | .beginStaging _ => none
  | .commitStagedExecution _ _ _ _ _ now => some now
  | .recordFailure _ _ _ now _ => some now
  | .recordProgress _ now => some now
  | .deliverBundle step => step.time?
  | .recoverStartup now => some now
  | .recoverShutdown _ _ now => some now

/-- The call is not made before the given time. -/
def Call.NotBefore (time : Timestamp) (call : Call) : Prop :=
  ∀ now ∈ call.time?, time ≤ now

instance (time : Timestamp) : DecidablePred (Call.NotBefore time) :=
  fun call => inferInstanceAs (Decidable (∀ now ∈ call.time?, _))

/-- The runner that started the attempt has lost its lease: the lease is not current, or its
owner has acquired the actor again.
-/
def Lost (w : World) (start : StartedAttempt) (now : Timestamp) : Prop :=
  ¬CurrentLease w.store start.lease now
    ∨ start.acquisition < w.acquisitionsOf start.lease.actorId start.lease.ownerId

/-- An acquisition is counted when it is made. -/
theorem World.commit_acquisitions (w : World) {call : Call} {answer : Answer} {s : Store}
    (performed : call.perform w.store = .ok (answer, s))
    : (∀ actorId owner, w.acquisitionsOf actorId owner
        ≤ (w.commit call answer s).acquisitionsOf actorId owner)
      ∧ ∀ lease, answer = .acquired (some lease) →
        w.acquisitionsOf lease.actorId lease.ownerId
          < (w.commit call answer s).acquisitionsOf lease.actorId lease.ownerId := by
  have silent : (w.commit call answer s).acquisitions = w.acquisitions →
      ∀ actorId owner, w.acquisitionsOf actorId owner
        ≤ (w.commit call answer s).acquisitionsOf actorId owner := by
    intro same actorId owner
    simp [World.acquisitionsOf, same]
  have counts : ∀ lease : ActorLease,
      (w.commit call answer s).acquisitions = (lease.actorId, lease.ownerId) :: w.acquisitions →
      (∀ actorId owner, w.acquisitionsOf actorId owner
        ≤ (w.commit call answer s).acquisitionsOf actorId owner)
      ∧ w.acquisitionsOf lease.actorId lease.ownerId
          < (w.commit call answer s).acquisitionsOf lease.actorId lease.ownerId := by
    intro lease same
    constructor
    · intro actorId owner
      simp [World.acquisitionsOf, same, List.count_cons]
    · simp [World.acquisitionsOf, same]
  cases perform_leases performed with
  | @acquired actorId owner now lease selected grants =>
      have added : (w.commit call (.acquired (some lease)) s).acquisitions
          = (lease.actorId, lease.ownerId) :: w.acquisitions := by
        cases call <;> simp only [Call.acquisition, reduceCtorEq] at selected
        · rfl
        · rfl
      refine ⟨(counts lease added).1, fun lease' same => ?_⟩
      cases same
      exact (counts lease added).2
  | renewed isRenewal =>
      subst isRenewal
      simp only [Call.perform, answering_eq_ok] at performed
      obtain ⟨_, -, rfl⟩ := performed
      exact ⟨silent rfl, by simp⟩
  | kept _ none =>
      refine ⟨silent ?_, fun lease same => absurd same (none lease)⟩
      unfold World.commit
      split
      · exact absurd rfl (none _)
      · exact absurd rfl (none _)
      all_goals rfl

/-- A lost lease stays lost, as time does not run backwards. -/
theorem Lost.after {w : World} {start : StartedAttempt} {now : Timestamp} {call : Call}
    (lost : Lost w start now)
    (counted
      : start.acquisition ≤ w.acquisitionsOf start.lease.actorId start.lease.ownerId)
    (notBefore : call.NotBefore now)
    : Lost (w.after call) start now := by
  rcases w.after_cases call with same | ⟨answer, s, performed, same⟩
  · exact same.symm ▸ lost
  · rw [same]
    obtain ⟨grows, acquires⟩ := w.commit_acquisitions performed
    rcases lost with notCurrent | later
    · -- a current row would come from a current row, or from an acquisition by the owner
      by_contra held
      simp only [Lost, World.commit_store, not_or, not_not, not_lt] at held
      obtain ⟨⟨row, mem, owns, live⟩, unacquired⟩ := held
      cases perform_leases performed with
      | @acquired actorId owner time lease selected grants =>
          rcases grants.rows row mem with stored | ownsNew
          · exact notCurrent ⟨row, stored, owns, live⟩
          · have more := acquires lease rfl
            rw [show lease.actorId = start.lease.actorId from
              ownsNew.1.symm.trans owns.1, show lease.ownerId = start.lease.ownerId from
              ownsNew.2.1.symm.trans owns.2.1] at more
            exact absurd (counted.trans_lt more) (not_lt_of_ge unacquired)
      | renewed isRenewal _ rows =>
          rcases rows row mem with stored | ⟨old, stored, -, liveOld, rfl⟩
          · exact notCurrent ⟨row, stored, owns, live⟩
          · subst isRenewal
            exact notCurrent ⟨old, stored, owns, (notBefore _ rfl).trans_lt liveOld⟩
      | kept rows => exact notCurrent ⟨row, rows row mem, owns, live⟩
    · exact Or.inr (later.trans_le (grows _ _))

/-- An attempt is started in one acquisition of its owner. -/
def Counted (w : World) : Prop :=
  ∀ start ∈ w.started,
    start.acquisition ≤ w.acquisitionsOf start.lease.actorId start.lease.ownerId

theorem Counted.after {w : World} (counted : Counted w) (call : Call)
    : Counted (w.after call) := by
  rcases w.after_cases call with same | ⟨answer, s, performed, same⟩
  · exact same.symm ▸ counted
  · rw [same]
    have grows := (w.commit_acquisitions performed).1
    intro start mem
    rcases w.commit_started performed with unchanged | ⟨run, id, now, rfl, added⟩
    · exact (counted start (unchanged ▸ mem)).trans (grows _ _)
    · rw [added] at mem
      rcases List.mem_cons.mp mem with rfl | mem
      · exact grows _ _
      · exact (counted start mem).trans (grows _ _)

-----------------------------------------------------------------------------------------
-- All histories
-----------------------------------------------------------------------------------------

/-- The attempt was started under the presented lease, whose owner has not acquired the actor
again: the caller is the runner that started it.
-/
def StartedBy (w : World) (lease : ActorLease) (id : AttemptId) : Prop :=
  ∀ start ∈ w.started, start.id = id → token start.lease = token lease
    ∧ w.acquisitionsOf start.lease.actorId start.lease.ownerId = start.acquisition

instance (w : World) (lease : ActorLease) (id : AttemptId) : Decidable (StartedBy w lease id) :=
  inferInstanceAs (Decidable (∀ start ∈ w.started, _))

/-- Only the runner that started an attempt settles it, and commits none at the very instant
its lease expires.
-/
def SettlesOwn (w : World) : Call → Prop
  | .finishAttempt run id _ _ => StartedBy w run.lease id
  | .commitStagedExecution _ run id _ _ now => StartedBy w run.lease id
      ∧ ∀ row ∈ w.store.actorLeases, Owns run.lease row → row.expiresAt ≠ now
  | _ => True

instance (w : World) : DecidablePred (SettlesOwn w)
  | .finishAttempt run id _ _ => inferInstanceAs (Decidable (StartedBy w run.lease id))
  | .commitStagedExecution _ run id _ _ now => inferInstanceAs (Decidable
      (StartedBy w run.lease id
        ∧ ∀ row ∈ w.store.actorLeases, Owns run.lease row → row.expiresAt ≠ now))
  | .ingest .. | .submitForActor .. | .cancelForActor .. | .ingestWebhook ..
  | .acquireReadyActor .. | .acquireReadyActorFor .. | .renewLease .. | .releaseLease ..
  | .attachNextRun .. | .newerControlEvent .. | .checkpointRun .. | .finalizeRun ..
  | .cancelRun .. | .prepareAttempt .. | .markAttemptRunning .. | .rejectPreparedAttempt ..
  | .recoverAttempt .. | .blockUnknownAttempt .. | .unresolvedAttempts .. | .beginStaging ..
  | .recordFailure .. | .recordProgress .. | .deliverBundle .. | .recoverStartup ..
  | .recoverShutdown .. => .isTrue trivial

/-- A call that settles an attempt presents a current lease of the runner that started it. -/
theorem perform_settles {w : World} {call : Call} {answer : Answer} {s : Store}
    {start : StartedAttempt} {now : Timestamp}
    (performed : call.perform w.store = .ok (answer, s)) (own : SettlesOwn w call)
    (mem : start ∈ w.started) (settles : call.settles start.id)
    (notBefore : call.NotBefore now)
    : ¬Lost w start now := by
  -- in both cases a row of the start's lease is live at the time of the call
  suffices ∃ lease time row, row ∈ w.store.actorLeases ∧ Owns lease row ∧ time < row.expiresAt
      ∧ now ≤ time ∧ StartedBy w lease start.id by
    obtain ⟨lease, time, row, stored, owns, live, le, by'⟩ := this
    obtain ⟨same, acquisition⟩ := by' start mem rfl
    rintro (notCurrent | later)
    · exact notCurrent ⟨row, stored, owns.of_token_eq same.symm, le.trans_lt live⟩
    · omega
  cases call <;> simp only [Call.settles] at settles
  case finishAttempt run id outcome time =>
    simp only [Call.perform, answering_eq_ok] at performed
    obtain ⟨_, done, -⟩ := performed
    obtain ⟨⟨_, _, valid⟩, -⟩ := transitionAttempt_ok done
    obtain ⟨row, stored, owns, live⟩ := valid.current
    exact ⟨run.lease, time, row, stored, owns, live, notBefore time rfl, settles ▸ own⟩
  case commitStagedExecution files run id execution leases time =>
    simp only [Call.perform, answering_eq_ok] at performed
    obtain ⟨_, done, -⟩ := performed
    obtain ⟨⟨row, stored, owns, live, -⟩, -⟩ := commitStagedExecution_ok done
    exact ⟨run.lease, time, row, stored, owns,
      lt_of_le_of_ne live (own.2 row stored owns).symm, notBefore time rfl, settles ▸ own.1⟩

/-- The at-most-once life of tool attempts, seen from a reachable world. -/
structure AtMostOnce (w : World) : Prop where
  /-- Each attempt enters `running` at most once. -/
  once : (w.started.map (·.id)).Nodup
  /-- An attempt that has left `prepared` never returns to it. -/
  left : ∀ w', runtime.Run w w' → ∀ before ∈ w.store.toolAttempts,
    before.state ≠ .prepared → ∀ after ∈ w'.store.toolAttempts, after.id = before.id →
    after.state ≠ .prepared
  /-- The settled states are absorbing, with an unchanged outcome. -/
  settled : ∀ w', runtime.Run w w' → ∀ before ∈ w.store.toolAttempts,
    AttemptState.Settled before.state → ∀ after ∈ w'.store.toolAttempts,
    after.id = before.id → after.state = before.state ∧ after.outcomeJson = before.outcomeJson
  /-- An attempt that runs when its runner has lost the lease is never settled. -/
  lost : ∀ start ∈ w.started, ∀ now, Lost w start now →
    ∀ w', (runtime.restrict (fun w call => SettlesOwn w call ∧ call.NotBefore now)).Run w w' →
    ∀ before ∈ w.store.toolAttempts, before.id = start.id → before.state = .running →
    ∀ after ∈ w'.store.toolAttempts, after.id = start.id → AttemptState.Open after.state
  /-- An attempt waits for a decision only after its outcome was unknown. -/
  waits : ∀ call, ∀ before ∈ w.store.toolAttempts,
    ∀ after ∈ (w.after call).store.toolAttempts, after.id = before.id →
    after.state = .waitingForDecision →
    before.state = .outcomeUnknown ∨ before.state = .waitingForDecision
  /-- Only attempts whose tool was never started may be invoked. -/
  mayInvoke : ∀ id s, recoverAttempt id w.store = .ok (.mayInvoke, s) →
    ∀ start ∈ w.started, start.id ≠ id

/-- Every reachable world has started each of its attempts once. -/
theorem reachable_startedOnce {w : World} (reached : runtime.Reachable w)
    : StartedOnce w ∧ Counted w := by
  refine reached.invariant (J := fun w => StartedOnce w ∧ Counted w) ?_ ?_
  · rintro _ ⟨actors, identities, rfl⟩
    exact ⟨⟨nofun, List.nodup_nil⟩, nofun⟩
  · rintro w call _ - ⟨started, counted⟩ ⟨-, rfl⟩
    exact ⟨started.after call, counted.after call⟩

/-- An attempt only moves forward along a run, by induction on the run. -/
theorem run_later {w w' : World} (run : runtime.Run w w') {before : AttemptRow}
    (stored : before ∈ w.store.toolAttempts)
    : ∃ row ∈ w'.store.toolAttempts, row.id = before.id
      ∧ AttemptState.Later before.state row.state
      ∧ (AttemptState.Settled before.state → row.outcomeJson = before.outcomeJson) := by
  refine run.kept (J := fun w' => ∃ row ∈ w'.store.toolAttempts, row.id = before.id
    ∧ AttemptState.Later before.state row.state
    ∧ (AttemptState.Settled before.state → row.outcomeJson = before.outcomeJson)) ?_
    ⟨before, stored, rfl, .same _, fun _ => rfl⟩
  rintro w call _ ⟨row, mem, same, later, outcome⟩ ⟨-, rfl⟩
  obtain ⟨row', mem', next⟩ := (after_advance w call).forward row mem
  refine ⟨row', mem', next.id.trans same, later.trans next.later, fun settled => ?_⟩
  exact (next.outcome (later.of_settled settled ▸ settled)).trans (outcome settled)

/-- An attempt whose runner has lost its lease stays open along every later run, by
induction on the run: whoever settles it presents a current lease of its runner.
-/
theorem run_open {w w' : World} {start : StartedAttempt} {now : Timestamp}
    (run
      : (runtime.restrict (fun w call => SettlesOwn w call ∧ call.NotBefore now)).Run w w')
    (counted : Counted w) (mem : start ∈ w.started) (lost : Lost w start now)
    {before : AttemptRow} (stored : before ∈ w.store.toolAttempts)
    (same : before.id = start.id) (isOpen : AttemptState.Open before.state)
    : ∃ row ∈ w'.store.toolAttempts, row.id = start.id ∧ AttemptState.Open row.state := by
  have kept := run.kept (J := fun w => Counted w ∧ start ∈ w.started ∧ Lost w start now
    ∧ ∃ row ∈ w.store.toolAttempts, row.id = start.id ∧ AttemptState.Open row.state) ?_
    ⟨counted, mem, lost, before, stored, same, isOpen⟩
  · exact kept.2.2.2
  · rintro w call _ ⟨counted, mem, lost, row, stored, same, isOpen⟩ ⟨⟨own, notBefore⟩, -, rfl⟩
    refine ⟨counted.after call, ?_, lost.after (counted start mem) notBefore, ?_⟩
    · rcases w.after_cases call with same | ⟨answer, s, performed, same⟩
      · exact same.symm ▸ mem
      · rw [same]
        rcases w.commit_started performed with unchanged | ⟨_, _, _, _, added⟩
        · exact unchanged ▸ mem
        · exact added ▸ List.mem_cons_of_mem _ mem
    · rcases w.after_cases call with unchanged | ⟨answer, s, performed, changed⟩
      · exact unchanged.symm ▸ ⟨row, stored, same, isOpen⟩
      · obtain ⟨row', stored', next⟩ := (perform_advance performed).forward row stored
        rw [changed, World.commit_store]
        refine ⟨row', stored', next.id.trans same, next.open' (fun settles => ?_) isOpen⟩
        exact perform_settles performed own mem (same ▸ settles) notBefore lost

namespace Expiring

def lease : ActorLease := ⟨localActor, "daemon", 1, 100⟩

def run : AttachedRun where
  lease := lease
  workItemId := ⟨1⟩
  runId := ⟨3⟩
  observedSequence := 1
  sourceEventIds := [⟨1⟩]
  requestIds := [⟨1⟩]
  audience := .actorPrivate
  deliveryRoute := none
  executionPolicy := .actorTools
  ingressSource := none
  messages := [.user [.text "hello"]]

def attempt : NewToolAttempt where
  id := ⟨1⟩
  toolCallId := "call-1"
  toolName := "shell"
  argumentsJson := "\x7b\x7d"
  capabilities := ⟨false, false, false, false, false, false⟩

/-- A tool is running under a lease that expires at 100. -/
def world : World := World.single.play
  [.submitForActor localActor ⟨⟨1⟩, "hello", "sha"⟩ 10 (.numbered 1),
    .acquireReadyActor "daemon" 20 100,
    .attachNextRun lease 8 30 (.numbered 3),
    .prepareAttempt run attempt 40,
    .markAttemptRunning run ⟨1⟩ 50]

theorem reachable : runtime.Reachable world :=
  reachable_play reachable_single (by decide +kernel)

def started : StartedAttempt := ⟨⟨1⟩, lease, 1⟩

def commit : Call :=
  .commitStagedExecution (fun _ => .error "no such file") run ⟨1⟩ ⟨"done", []⟩ [] 100

end Expiring

end Codrik.Runtime.Sqlite
