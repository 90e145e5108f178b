import Codrik.Runtime.Sqlite.AttemptLife
import Codrik.Runtime.Sqlite.Evolution

/-! How runs and their attempts change over any call: what they are never changes, the policy
of a run only narrows, and no attempt is without its run.
-/

namespace Codrik.Runtime.Sqlite

open Codrik.Relational
open Codrik.Transition

variable {s s' t : Store}

-----------------------------------------------------------------------------------------
-- Runs
-----------------------------------------------------------------------------------------

/-- A policy that intersections have narrowed stays narrow, by induction on the events. -/
theorem intersect_skillsOnly (events : List EventRow)
    : events.foldl (fun policy event => ExecutionPolicy.intersect policy event.executionPolicy)
        .skillsOnly
      = .skillsOnly := by
  induction events with
  | nil => rfl
  | cons event rest ih =>
      have narrow : ExecutionPolicy.intersect .skillsOnly event.executionPolicy = .skillsOnly := by
        cases event.executionPolicy <;> rfl
      rw [List.foldl_cons, narrow]
      exact ih

/-- The two rows are one run, which may not get back to the tools of its actor. -/
structure SameRun (before after : RunRow) : Prop where
  id : after.id = before.id
  actorId : after.actorId = before.actorId
  workItemId : after.workItemId = before.workItemId
  narrows : before.executionPolicy = .skillsOnly → after.executionPolicy = .skillsOnly

theorem SameRun.refl (run : RunRow) : SameRun run run := ⟨rfl, rfl, rfl, fun narrow => narrow⟩

theorem SameRun.trans {a b c : RunRow} (first : SameRun a b) (second : SameRun b c)
    : SameRun a c :=
  ⟨second.id.trans first.id, second.actorId.trans first.actorId,
    second.workItemId.trans first.workItemId,
    fun narrow => second.narrows (first.narrows narrow)⟩

theorem SameRun.finish (run : RunRow) (state : RunState) (now : Timestamp)
    : SameRun run (run.finish state now) :=
  ⟨rfl, rfl, rfl, fun narrow => narrow⟩

/-- Stored runs stay. -/
def RunsStay (before after : Table RunRow) : Prop :=
  ∀ run ∈ before, ∃ run' ∈ after, SameRun run run'

namespace RunsStay

variable {a b c : Table RunRow}

theorem refl (runs : Table RunRow) : RunsStay runs runs :=
  fun run mem => ⟨run, mem, .refl run⟩

theorem of_eq (same : b = a) : RunsStay a b := same ▸ .refl a

theorem trans (first : RunsStay a b) (second : RunsStay b c) : RunsStay a c := by
  intro run mem
  obtain ⟨middle, mem', same⟩ := first run mem
  obtain ⟨run', mem'', same'⟩ := second middle mem'
  exact ⟨run', mem'', same.trans same'⟩

/-- An update keeps the runs when it keeps each row it changes. -/
theorem update {p : RunRow → Prop} [DecidablePred p] {f : RunRow → RunRow}
    {k : Table.KeepsKey f} (same : ∀ run ∈ a, p run → SameRun run (f run))
    : RunsStay a (a.updateWhere p f k) := by
  intro run mem
  refine ⟨_, Table.updateWhere_mem mem, ?_⟩
  split
  · exact same run mem ‹_›
  · exact .refl run

theorem insert {run : RunRow} (inserted : a.insert? run = some b) : RunsStay a b :=
  fun run' mem => ⟨run', (Table.mem_insert? inserted).mpr (Or.inl mem), .refl run'⟩

/-- The row a run has become. -/
theorem of_sameId (stay : RunsStay a b) {before after : RunRow} (stored : before ∈ a)
    (stored' : after ∈ b) (same : after.id = before.id)
    : SameRun before after := by
  obtain ⟨run, mem, next⟩ := stay before stored
  have : run = after := Table.eq_of_clash mem stored' (Or.inl (next.id.trans same.symm))
  exact this ▸ next

end RunsStay

/-- A resumed run is blocked, or its policy becomes narrower. -/
theorem resumeRun_runs {lease : ActorLease} {maxEvents : Nat} {row : RunRow}
    {work : WorkItemRow} {now : Timestamp} {answer : Option AttachedRun}
    (stored : row ∈ s.runs) (actor : row.actorId = lease.actorId)
    (resumed : resumeRun lease maxEvents row work now s = .ok (answer, s'))
    : RunsStay s.runs s'.runs := by
  obtain ⟨t, attached, ⟨-, _, _, rfl⟩ | ⟨run, -, reflects, rfl⟩⟩ := resumeRun_ok actor resumed
  · have same := (Takes.of_attachEvents attached).runs
    rw [← same]
    exact .update (fun run _ _ => .finish run _ now)
  · have same := (Takes.of_attachEvents attached).runs
    rw [← same] at stored ⊢
    refine .update (fun run' known sameId => ⟨rfl, rfl, rfl, fun narrow => ?_⟩)
    have : run' = row := Table.eq_of_clash known stored (Or.inl sameId)
    rw [this] at narrow
    exact reflects.executionPolicy.trans (narrow ▸ intersect_skillsOnly _)

theorem attachNextRun_runs {lease : ActorLease} {maxEvents : Nat} {now : Timestamp}
    {ids : FreshIds} {answer : Option AttachedRun}
    (attached : attachNextRun lease maxEvents now ids s = .ok (answer, s'))
    : RunsStay s.runs s'.runs := by
  obtain ⟨-, -, ⟨row, work, due, -, -, resumed⟩ | ⟨-, -, -, rfl⟩ |
    ⟨row, work, m, -, opened, resumed⟩⟩ := attachNextRun_ok attached
  · obtain ⟨stored, actor, -⟩ := dueActiveRun_some due
    exact resumeRun_runs stored actor resumed
  · exact .refl _
  · obtain ⟨m', assigned, ⟨-, none⟩ | ⟨event, work', runs, opens, some'⟩⟩ := openRun_ok opened
    · cases none
    · cases some'
      have same := (assignUnassigned_sameExecution assigned).runs
      have added : RunsStay s.runs runs := by
        rw [← same]
        exact .insert opens.inserted
      exact added.trans (resumeRun_runs
        ((Table.mem_insert? opens.inserted).mpr (Or.inr rfl)) rfl resumed)

/-- Runs stay what they are over every call, by cases on the call. -/
theorem perform_runs {call : Call} {answer : Answer}
    (performed : call.perform s = .ok (answer, s'))
    : RunsStay s.runs s'.runs := by
  cases call <;> simp only [Call.perform, answering_eq_ok, reading_eq_ok] at performed
  case ingest =>
    obtain ⟨_, done, -⟩ := performed
    exact .of_eq (ingest_sameExecution done).runs
  case submitForActor =>
    obtain ⟨_, done, -⟩ := performed
    exact .of_eq (submitForActor_sameExecution done).runs
  case cancelForActor =>
    obtain ⟨_, done, -⟩ := performed
    exact .of_eq (cancelForActor_sameExecution done).runs
  case ingestWebhook =>
    obtain ⟨_, done, -⟩ := performed
    exact .of_eq (ingestWebhook_sameExecution done).runs
  case acquireReadyActor =>
    obtain ⟨_, done, -⟩ := performed
    obtain ⟨_, rfl⟩ := acquire_ok done
    exact .refl _
  case acquireReadyActorFor =>
    obtain ⟨_, done, -⟩ := performed
    obtain ⟨_, rfl⟩ := acquire_ok done
    exact .refl _
  case renewLease =>
    obtain ⟨_, done, -⟩ := performed
    obtain ⟨-, rfl⟩ := renewLease_ok done
    exact .refl _
  case releaseLease =>
    obtain ⟨_, done, -⟩ := performed
    cases done
    exact .refl _
  case attachNextRun =>
    obtain ⟨_, done, -⟩ := performed
    exact attachNextRun_runs done
  case newerControlEvent => exact .of_eq (congrArg Store.runs performed.1.symm)
  case checkpointRun =>
    obtain ⟨_, done, -⟩ := performed
    simp only [checkpointRun, incorporateEvents, insertMessages, bind_eq_ok] at done
    obtain ⟨_, _, m, ⟨_, _, marked⟩, _, attempts, _, ⟨_, _, stored⟩, result⟩ := done
    cases stored
    cases result
    obtain ⟨_, rfl⟩ := checkpointAttempts_ok attempts
    obtain ⟨_, rfl⟩ := incorporateEach_store marked
    exact .refl _
  case finalizeRun =>
    obtain ⟨_, done, -⟩ := performed
    obtain ⟨-, ⟨_, -, -, rfl⟩ | ⟨-, -, _, -, -, _, _, t, -, ⟨_, _, _, _, _, rfl⟩, rfl⟩⟩ :=
      finalizeRun_ok done
    · exact .refl _
    · exact .update (fun run _ _ => .finish run _ _)
  case cancelRun =>
    obtain ⟨_, done, -⟩ := performed
    obtain ⟨-, -, _, _, _, -, -, ⟨_, _, _, _, _, rfl⟩, rfl⟩ := cancelRun_ok done
    exact .update (fun run _ _ => .finish run _ _)
  case prepareAttempt =>
    obtain ⟨_, done, -⟩ := performed
    simp only [prepareAttempt, bind_eq_ok] at done
    obtain ⟨_, _, _, _, _, _, _, _, result⟩ := done
    cases result
    exact .refl _
  case markAttemptRunning =>
    obtain ⟨_, done, -⟩ := performed
    obtain ⟨-, -, rfl⟩ := transitionAttempt_ok done
    exact .refl _
  case rejectPreparedAttempt =>
    obtain ⟨_, done, -⟩ := performed
    unfold rejectPreparedAttempt at done
    split at done
    · cases done
    · obtain ⟨-, -, rfl⟩ := transitionAttempt_ok done
      exact .refl _
  case finishAttempt =>
    obtain ⟨_, done, -⟩ := performed
    obtain ⟨-, -, rfl⟩ := transitionAttempt_ok done
    exact .refl _
  case recoverAttempt =>
    obtain ⟨_, done, -⟩ := performed
    obtain ⟨_, rfl⟩ := recoverAttempt_ok done
    exact .refl _
  case blockUnknownAttempt =>
    obtain ⟨_, done, -⟩ := performed
    simp only [blockUnknownAttempt, bind_eq_ok] at done
    obtain ⟨_, _, _, _, result⟩ := done
    cases result
    exact .refl _
  case unresolvedAttempts => exact .of_eq (congrArg Store.runs performed.1.symm)
  case beginStaging =>
    obtain ⟨_, done, -⟩ := performed
    simp only [beginStaging, bind_eq_ok] at done
    obtain ⟨_, _, _, _, _, _, result⟩ := done
    cases result
    exact .refl _
  case commitStagedExecution =>
    obtain ⟨_, done, -⟩ := performed
    obtain ⟨-, -, _, _, rfl⟩ := commitStagedExecution_ok done
    exact .refl _
  case recordFailure =>
    obtain ⟨_, done, -⟩ := performed
    obtain ⟨row, work, -, -, -, ⟨-, -, rfl⟩ | ⟨-, -, fails⟩⟩ := recordFailure_ok done
    · exact .refl _
    · obtain ⟨_, _, _, -, -, ⟨_, _, _, _, _, rfl⟩, rfl⟩ := fails
      exact .update (fun run _ _ => .finish run _ _)
  case recordProgress =>
    obtain ⟨_, done, -⟩ := performed
    simp only [recordProgress, bind_eq_ok] at done
    obtain ⟨_, _, result⟩ := done
    cases result
    exact .refl _
  case deliverBundle step =>
    obtain ⟨_, done, -⟩ := performed
    obtain ⟨_, rfl, -⟩ := step.perform_ok done
    exact .refl _
  case recoverStartup now =>
    obtain ⟨_, done, -⟩ := performed
    cases done
    exact .of_eq (recoverCandidates_same now (recoveryCandidates s now)).2.1
  case recoverShutdown =>
    obtain ⟨_, done, -⟩ := performed
    cases done
    exact .refl _

-----------------------------------------------------------------------------------------
-- Attempts
-----------------------------------------------------------------------------------------

/-- The two rows are one attempt, whose progress may differ, but not fall back behind its
checkpoint.
-/
structure SameAttempt (before after : AttemptRow) : Prop where
  data : after =
    { before with
      state := after.state
      outcomeJson := after.outcomeJson
      observationCheckpointed := after.observationCheckpointed }
  checkpointed : before.observationCheckpointed = true → after.observationCheckpointed = true

theorem SameAttempt.refl (attempt : AttemptRow) : SameAttempt attempt attempt :=
  ⟨rfl, fun checkpointed => checkpointed⟩

/-- An attempt moves to another state. -/
theorem SameAttempt.move (attempt : AttemptRow) (state : AttemptState)
    (outcome : Option AttemptOutcome)
    : SameAttempt attempt { attempt with state := state, outcomeJson := outcome } :=
  ⟨rfl, fun checkpointed => checkpointed⟩

theorem SameAttempt.trans {a b c : AttemptRow} (first : SameAttempt a b)
    (second : SameAttempt b c)
    : SameAttempt a c where
  data := by rw [second.data, first.data]
  checkpointed checkpointed := second.checkpointed (first.checkpointed checkpointed)

theorem SameAttempt.id {a b : AttemptRow} (same : SameAttempt a b) : b.id = a.id := by
  rw [same.data]

theorem SameAttempt.runId {a b : AttemptRow} (same : SameAttempt a b) : b.runId = a.runId := by
  rw [same.data]

theorem SameAttempt.toolName {a b : AttemptRow} (same : SameAttempt a b)
    : b.toolName = a.toolName := by
  rw [same.data]

theorem SameAttempt.toolCallId {a b : AttemptRow} (same : SameAttempt a b)
    : b.toolCallId = a.toolCallId := by
  rw [same.data]

/-- The call prepares an attempt of the run. -/
def Call.Prepares (runId : RunId) : Call → Prop
  | .prepareAttempt run _ _ => run.runId = runId
  | _ => False

/-- Stored attempts stay, and others are added to the run that prepares them. -/
structure AttemptsEvolve (call : Call) (before after : Table AttemptRow) : Prop where
  backward : ∀ attempt' ∈ after, (∃ attempt ∈ before, SameAttempt attempt attempt')
    ∨ call.Prepares attempt'.runId
  forward : ∀ attempt ∈ before, ∃ attempt' ∈ after, SameAttempt attempt attempt'

namespace AttemptsEvolve

variable {call : Call} {a b c : Table AttemptRow}

theorem refl (attempts : Table AttemptRow) : AttemptsEvolve call attempts attempts :=
  ⟨fun attempt mem => Or.inl ⟨attempt, mem, .refl attempt⟩,
    fun attempt mem => ⟨attempt, mem, .refl attempt⟩⟩

theorem of_eq (same : b = a) : AttemptsEvolve call a b := by
  rw [same]
  exact refl a

theorem trans (first : AttemptsEvolve call a b) (second : AttemptsEvolve call b c)
    : AttemptsEvolve call a c := by
  constructor
  · intro attempt mem
    rcases second.backward attempt mem with ⟨middle, mem', same⟩ | prepares
    · rcases first.backward middle mem' with ⟨before, stored, same'⟩ | prepares
      · exact Or.inl ⟨before, stored, same'.trans same⟩
      · exact Or.inr (same.runId ▸ prepares)
    · exact Or.inr prepares
  · intro attempt mem
    obtain ⟨middle, mem', same⟩ := first.forward attempt mem
    obtain ⟨attempt', mem'', same'⟩ := second.forward middle mem'
    exact ⟨attempt', mem'', same.trans same'⟩

/-- An update keeps the attempts when it keeps each row. -/
theorem update {p : AttemptRow → Prop} [DecidablePred p] {f : AttemptRow → AttemptRow}
    {k : Table.KeepsKey f} (same : ∀ attempt, SameAttempt attempt (f attempt))
    : AttemptsEvolve call a (a.updateWhere p f k) := by
  have image : ∀ attempt, SameAttempt attempt (if p attempt then f attempt else attempt) := by
    intro attempt
    split
    · exact same attempt
    · exact .refl attempt
  constructor
  · intro attempt' mem
    obtain ⟨attempt, stored, rfl⟩ := Table.mem_updateWhere.mp mem
    exact Or.inl ⟨attempt, stored, image attempt⟩
  · intro attempt mem
    exact ⟨_, Table.updateWhere_mem mem, image attempt⟩

end AttemptsEvolve

theorem checkpointAttempts_evolve (call : Call) {run : AttachedRun} {attemptIds : List AttemptId}
    (marked : checkpointAttempts run attemptIds s = .ok s')
    : AttemptsEvolve call s.toolAttempts s'.toolAttempts := by
  induction attemptIds generalizing s with
  | nil =>
      cases marked
      exact .refl _
  | cons attemptId rest ih =>
      simp only [checkpointAttempts, bind_eq_ok] at marked
      obtain ⟨_, _, others⟩ := marked
      refine AttemptsEvolve.trans ?_ (ih others)
      exact .update (fun _ => ⟨rfl, fun _ => rfl⟩)

theorem recoverCandidates_evolve {call : Call} {now : Timestamp}
    {candidates : List RecoveredUnknownOutcome}
    : AttemptsEvolve call s.toolAttempts (recoverCandidates now candidates s).2.toolAttempts := by
  refine recoverCandidates_invariant
    (J := fun t => AttemptsEvolve call s.toolAttempts t.toolAttempts) ?_ candidates (.refl _)
  intro t candidate before
  exact before.trans (.update (fun attempt => .move attempt _ _))

theorem recoverAttempt_evolve {call : Call} {id : AttemptId} {recovery : AttemptRecovery}
    (done : recoverAttempt id s = .ok (recovery, s'))
    : AttemptsEvolve call s.toolAttempts s'.toolAttempts := by
  simp only [recoverAttempt, bind_eq_ok] at done
  obtain ⟨row, _, rest⟩ := done
  split at rest
  case h_2 =>
    cases rest
    exact .update (fun attempt => .move attempt _ _)
  all_goals try split at rest
  all_goals
    cases rest
    try exact .refl _

theorem prepareAttempt_evolve {run : AttachedRun} {attempt : NewToolAttempt} {now : Timestamp}
    {prepared : ToolAttempt} (done : prepareAttempt run attempt now s = .ok (prepared, s'))
    : AttemptsEvolve (.prepareAttempt run attempt now) s.toolAttempts s'.toolAttempts := by
  simp only [prepareAttempt, bind_eq_ok, execute_eq_ok] at done
  obtain ⟨_, _, attempts, inserted, _, _, _, _, result⟩ := done
  cases result
  constructor
  · intro attempt' mem
    rcases Table.mem_insertUnless inserted mem with stored | rfl
    · exact Or.inl ⟨attempt', stored, .refl attempt'⟩
    · exact Or.inr rfl
  · exact fun attempt' mem =>
      ⟨attempt', Table.mem_insertUnless_of_mem inserted mem, .refl attempt'⟩

/-- Attempts stay what they are over every call, by cases on the call. -/
theorem perform_attempts {call : Call} {answer : Answer}
    (performed : call.perform s = .ok (answer, s'))
    : AttemptsEvolve call s.toolAttempts s'.toolAttempts := by
  cases call <;> simp only [Call.perform, answering_eq_ok, reading_eq_ok] at performed
  case ingest =>
    obtain ⟨_, done, -⟩ := performed
    exact .of_eq (ingest_sameExecution done).toolAttempts
  case submitForActor =>
    obtain ⟨_, done, -⟩ := performed
    exact .of_eq (submitForActor_sameExecution done).toolAttempts
  case cancelForActor =>
    obtain ⟨_, done, -⟩ := performed
    exact .of_eq (cancelForActor_sameExecution done).toolAttempts
  case ingestWebhook =>
    obtain ⟨_, done, -⟩ := performed
    exact .of_eq (ingestWebhook_sameExecution done).toolAttempts
  case acquireReadyActor =>
    obtain ⟨_, done, -⟩ := performed
    obtain ⟨_, rfl⟩ := acquire_ok done
    exact .refl _
  case acquireReadyActorFor =>
    obtain ⟨_, done, -⟩ := performed
    obtain ⟨_, rfl⟩ := acquire_ok done
    exact .refl _
  case renewLease =>
    obtain ⟨_, done, -⟩ := performed
    obtain ⟨-, rfl⟩ := renewLease_ok done
    exact .refl _
  case releaseLease =>
    obtain ⟨_, done, -⟩ := performed
    cases done
    exact .refl _
  case attachNextRun =>
    obtain ⟨_, done, -⟩ := performed
    exact .of_eq (attachNextRun_sameLeases done).toolAttempts
  case newerControlEvent => exact .of_eq (congrArg Store.toolAttempts performed.1.symm)
  case checkpointRun command now =>
    obtain ⟨_, done, -⟩ := performed
    simp only [checkpointRun, incorporateEvents, insertMessages, bind_eq_ok] at done
    obtain ⟨_, _, m, ⟨_, _, marked⟩, _, attempts, _, ⟨_, _, stored⟩, result⟩ := done
    cases stored
    cases result
    obtain ⟨_, rfl⟩ := incorporateEach_store marked
    have evolve := checkpointAttempts_evolve (.checkpointRun command now) attempts
    exact evolve
  case finalizeRun =>
    obtain ⟨_, done, -⟩ := performed
    exact .of_eq (finalizeRun_sameLeases done).toolAttempts
  case cancelRun =>
    obtain ⟨_, done, -⟩ := performed
    obtain ⟨-, -, _, _, _, -, -, ⟨_, _, _, _, _, rfl⟩, rfl⟩ := cancelRun_ok done
    exact .update (fun attempt => .move attempt _ _)
  case prepareAttempt =>
    obtain ⟨_, done, -⟩ := performed
    exact prepareAttempt_evolve done
  case markAttemptRunning =>
    obtain ⟨_, done, -⟩ := performed
    obtain ⟨-, -, rfl⟩ := transitionAttempt_ok done
    exact .update (fun attempt => .move attempt _ _)
  case rejectPreparedAttempt =>
    obtain ⟨_, done, -⟩ := performed
    unfold rejectPreparedAttempt at done
    split at done
    · cases done
    · obtain ⟨-, -, rfl⟩ := transitionAttempt_ok done
      exact .update (fun attempt => .move attempt _ _)
  case finishAttempt =>
    obtain ⟨_, done, -⟩ := performed
    obtain ⟨-, -, rfl⟩ := transitionAttempt_ok done
    exact .update (fun attempt => .move attempt _ _)
  case recoverAttempt =>
    obtain ⟨_, done, -⟩ := performed
    exact recoverAttempt_evolve done
  case blockUnknownAttempt =>
    obtain ⟨_, done, -⟩ := performed
    simp only [blockUnknownAttempt, bind_eq_ok] at done
    obtain ⟨_, _, _, _, result⟩ := done
    cases result
    exact .update (fun attempt => .move attempt _ _)
  case unresolvedAttempts => exact .of_eq (congrArg Store.toolAttempts performed.1.symm)
  case beginStaging =>
    obtain ⟨_, done, -⟩ := performed
    simp only [beginStaging, bind_eq_ok] at done
    obtain ⟨_, _, _, _, _, _, result⟩ := done
    cases result
    exact .refl _
  case commitStagedExecution =>
    obtain ⟨_, done, -⟩ := performed
    obtain ⟨-, -, _, _, rfl⟩ := commitStagedExecution_ok done
    exact .update (fun attempt => .move attempt _ _)
  case recordFailure =>
    obtain ⟨_, done, -⟩ := performed
    obtain ⟨row, work, -, -, -, ⟨-, -, rfl⟩ | ⟨-, -, fails⟩⟩ := recordFailure_ok done
    · exact .refl _
    · obtain ⟨_, _, _, -, -, ⟨_, _, _, _, _, rfl⟩, rfl⟩ := fails
      refine AttemptsEvolve.trans ?_ (AttemptsEvolve.update (fun attempt => .move attempt _ _))
      exact .update (fun attempt => .move attempt _ _)
  case recordProgress =>
    obtain ⟨_, done, -⟩ := performed
    simp only [recordProgress, bind_eq_ok] at done
    obtain ⟨_, _, result⟩ := done
    cases result
    exact .refl _
  case deliverBundle step =>
    obtain ⟨_, done, -⟩ := performed
    obtain ⟨_, rfl, -⟩ := step.perform_ok done
    exact .refl _
  case recoverStartup now =>
    obtain ⟨_, done, -⟩ := performed
    cases done
    exact recoverCandidates_evolve
  case recoverShutdown =>
    obtain ⟨_, done, -⟩ := performed
    cases done
    exact .refl _

-----------------------------------------------------------------------------------------
-- Attempts belong to runs
-----------------------------------------------------------------------------------------

/-- Every attempt belongs to a stored run. -/
def AttemptsOwned (s : Store) : Prop :=
  ∀ attempt ∈ s.toolAttempts, ∃ run ∈ s.runs, run.id = attempt.runId

/-- A call keeps attempts owned: one that prepares an attempt presents a stored run. -/
theorem AttemptsOwned.perform (owned : AttemptsOwned s) {call : Call} {answer : Answer}
    (performed : call.perform s = .ok (answer, s'))
    : AttemptsOwned s' := by
  have stays : ∀ runId, (∃ run ∈ s.runs, run.id = runId) → ∃ run ∈ s'.runs, run.id = runId := by
    rintro runId ⟨run, stored, rfl⟩
    obtain ⟨run', stored', same⟩ := perform_runs performed run stored
    exact ⟨run', stored', same.id⟩
  intro attempt' mem
  apply stays
  rcases (perform_attempts performed).backward attempt' mem with
    ⟨attempt, stored, same⟩ | prepares
  · rw [same.runId]
    exact owned attempt stored
  · cases call with
    | prepareAttempt run attempt now =>
        simp only [Call.perform, answering_eq_ok] at performed
        obtain ⟨_, done, -⟩ := performed
        obtain ⟨row, work, valid⟩ := validateRun_ok (bind_eq_ok.mp done).choose_spec.1
        exact ⟨row, valid.runStored, valid.runId.trans prepares⟩
    | _ => exact prepares.elim

/-- In every reachable world attempts are owned, by induction on the history. -/
theorem reachable_attemptsOwned {w : World} (reached : runtime.Reachable w)
    : AttemptsOwned w.store := by
  induction reached with
  | initial start =>
      obtain ⟨_, _, rfl⟩ := start
      exact fun _ mem => absurd mem List.not_mem_nil
  | @step w call w' _ taken ih =>
      rw [taken.2]
      rcases w.after_cases call with same | ⟨answer, s, performed, same⟩
      · rw [same]
        exact ih
      · rw [same, World.commit_store]
        exact ih.perform performed

-----------------------------------------------------------------------------------------
-- Resolved attempts
-----------------------------------------------------------------------------------------

/-- The outcome of the attempt is known and in the transcript. -/
def Resolved (attempt : AttemptRow) : Prop :=
  AttemptState.Settled attempt.state ∧ attempt.observationCheckpointed = true

instance : DecidablePred Resolved := fun _ => inferInstanceAs (Decidable (_ ∧ _))

/-- Resolved attempts stay resolved: one that is not comes from one that was not, or is
prepared by the call.
-/
theorem perform_unresolved {call : Call} {answer : Answer}
    (performed : call.perform s = .ok (answer, s')) {attempt' : AttemptRow}
    (mem : attempt' ∈ s'.toolAttempts) (unresolved : ¬Resolved attempt')
    : (∃ attempt ∈ s.toolAttempts, SameAttempt attempt attempt' ∧ ¬Resolved attempt)
      ∨ call.Prepares attempt'.runId := by
  rcases (perform_attempts performed).backward attempt' mem with
    ⟨attempt, stored, same⟩ | prepares
  · refine Or.inl ⟨attempt, stored, same, fun resolved => unresolved ?_⟩
    have advance := (perform_advance performed).of_sameId stored mem same.id
    have settled := advance.later.of_settled resolved.1
    exact ⟨settled ▸ resolved.1, same.checkpointed resolved.2⟩
  · exact Or.inr prepares

/-- The attempts a checkpoint lists are resolved by it, by induction on the list. -/
theorem checkpointAttempts_resolves {run : AttachedRun} {attemptIds : List AttemptId}
    (marked : checkpointAttempts run attemptIds s = .ok s') {attempt' : AttemptRow}
    (mem : attempt' ∈ s'.toolAttempts)
    (resolves : attempt'.id ∈ attemptIds ∨ ∃ attempt ∈ s.toolAttempts,
      attempt.id = attempt'.id ∧ Resolved attempt)
    : Resolved attempt' := by
  induction attemptIds generalizing s with
  | nil =>
      cases marked
      obtain listed | ⟨attempt, stored, sameId, resolved⟩ := resolves
      · exact absurd listed List.not_mem_nil
      · have : attempt = attempt' := Table.eq_of_clash stored mem (Or.inl sameId)
        exact this ▸ resolved
  | cons attemptId rest ih =>
      simp only [checkpointAttempts, bind_eq_ok, require_eq_ok] at marked
      obtain ⟨_, one, others⟩ := marked
      refine ih others ?_
      obtain listed | ⟨attempt, stored, sameId, resolved⟩ := resolves
      · rcases List.mem_cons.mp listed with here | later
        · obtain ⟨row, stored, hit⟩ := Table.exists_of_count one
          exact Or.inr ⟨_, Table.updateWhere_mem_of stored hit, hit.1.trans here.symm, hit.2.2,
            rfl⟩
        · exact Or.inl later
      · refine Or.inr ⟨_, Table.updateWhere_mem stored, ?_, ?_⟩
        · split <;> exact sameId
        · split
          · exact ⟨resolved.1, rfl⟩
          · exact resolved

end Codrik.Runtime.Sqlite
