import Codrik.Runtime.Sqlite.AttemptLife

/-! A running attempt is protected by the live lease of its run: which calls of other parties
change it, and which leave it alone.
-/

namespace Codrik.Runtime.Sqlite

open Codrik.Relational
open Codrik.Transition

variable {s s' : Store}

-----------------------------------------------------------------------------------------
-- Statement
-----------------------------------------------------------------------------------------

/-- The attempt is running, and the stored lease is the one its run was attached under. -/
structure Protects (s : Store) (lease : LeaseRow) (attempt : AttemptRow) : Prop where
  stored : attempt ∈ s.toolAttempts
  running : attempt.state = .running
  leaseStored : lease ∈ s.actorLeases
  run : ∃ run ∈ s.runs, run.id = attempt.runId ∧ run.actorId = lease.actorId
    ∧ run.leaseGeneration = lease.generation

instance (s : Store) (lease : LeaseRow) (attempt : AttemptRow)
    : Decidable (Protects s lease attempt) :=
  decidable_of_iff (attempt ∈ s.toolAttempts ∧ attempt.state = .running
      ∧ lease ∈ s.actorLeases ∧ ∃ run ∈ s.runs, run.id = attempt.runId
        ∧ run.actorId = lease.actorId ∧ run.leaseGeneration = lease.generation)
    ⟨fun ⟨stored, running, leaseStored, run⟩ => ⟨stored, running, leaseStored, run⟩,
      fun ⟨stored, running, leaseStored, run⟩ => ⟨stored, running, leaseStored, run⟩⟩

/-- The lease has not expired when the call is made. -/
def Call.During (lease : LeaseRow) (call : Call) : Prop :=
  ∀ now ∈ call.time?, now < lease.expiresAt

instance (lease : LeaseRow) : DecidablePred (Call.During lease) :=
  fun call => inferInstanceAs (Decidable (∀ now ∈ call.time?, _))

/-- The call presents the stored lease. -/
def Call.AuthorisedBy (lease : LeaseRow) (call : Call) : Prop :=
  ∃ presented ∈ call.presented, Owns presented lease

instance (lease : LeaseRow) : DecidablePred (Call.AuthorisedBy lease) := fun call =>
  match presented : call.presented with
  | none => .isFalse (by simp [Call.AuthorisedBy, presented])
  | some lease' => decidable_of_iff (Owns lease' lease) (by simp [Call.AuthorisedBy, presented])

/-- Only calls that present the lease change the attempt. -/
def LeftAlone (w : World) (call : Call) (lease : LeaseRow) (attempt : AttemptRow) : Prop :=
  call.AuthorisedBy lease ∨ attempt ∈ (w.after call).store.toolAttempts

-----------------------------------------------------------------------------------------
-- One call
-----------------------------------------------------------------------------------------

/-- A stored row owned by the lease of the attempt's run is the protecting lease itself. -/
theorem Protects.owned {lease row : LeaseRow} {attempt : AttemptRow} {run : RunRow}
    {presented : ActorLease} (protects : Protects s lease attempt)
    (stored : row ∈ s.actorLeases) (owns : Owns presented row) (runStored : run ∈ s.runs)
    (runId : run.id = attempt.runId) (actorId : run.actorId = presented.actorId)
    : Owns presented lease := by
  obtain ⟨run', runStored', runId', actor, -⟩ := protects.run
  have sameRun : run' = run :=
    Table.eq_of_clash runStored' runStored (Or.inl (runId'.trans runId.symm))
  subst sameRun
  have sameLease : lease = row :=
    Table.eq_of_clash protects.leaseStored stored (actor.symm.trans (actorId.trans owns.1.symm))
  exact sameLease ▸ owns

/-- A run whose attempt is protected is validated under the protecting lease only. -/
theorem Protects.validated {lease : LeaseRow} {attempt : AttemptRow} {run : AttachedRun}
    {now : Timestamp} {row : RunRow} {work : WorkItemRow} (protects : Protects s lease attempt)
    (valid : Validated s run now row work) (ofRun : attempt.runId = run.runId)
    : Owns run.lease lease := by
  obtain ⟨leaseRow, stored, owns, -⟩ := valid.current
  exact protects.owned stored owns valid.runStored (valid.runId.trans ofRun.symm) valid.actorId

/-- Recovering candidates keeps the attempts they do not name, by induction. -/
theorem recoverCandidates_keeps {now : Timestamp} {candidates : List RecoveredUnknownOutcome}
    {attempt : AttemptRow} (stored : attempt ∈ s.toolAttempts)
    (unnamed : ∀ candidate ∈ candidates, attempt.id ≠ candidate.attemptId)
    : attempt ∈ (recoverCandidates now candidates s).2.toolAttempts := by
  induction candidates generalizing s with
  | nil => exact stored
  | cons candidate rest ih =>
      have others : ∀ candidate ∈ rest, attempt.id ≠ candidate.attemptId :=
        fun candidate mem => unnamed candidate (List.mem_cons_of_mem _ mem)
      simp only [recoverCandidates]
      split
      · apply ih _ others
        apply Table.updateWhere_mem_of_not stored
        intro hit
        exact unnamed candidate (List.mem_cons_self) hit.1
      · exact ih stored others

/-- No recovery candidate names a protected attempt. -/
theorem Protects.not_candidate {lease : LeaseRow} {attempt : AttemptRow} {now : Timestamp}
    (protects : Protects s lease attempt) (live : now < lease.expiresAt)
    : ∀ candidate ∈ recoveryCandidates s now, attempt.id ≠ candidate.attemptId := by
  intro candidate mem same
  obtain ⟨attempt', selected, found⟩ := List.mem_filterMap.mp mem
  obtain ⟨run, orphaned, rfl⟩ := Option.map_eq_some_iff.mp found
  have isAttempt : attempt' = attempt :=
    Table.eq_of_clash (Table.mem_select.mp selected).1 protects.stored (Or.inl same.symm)
  subst isAttempt
  obtain ⟨runStored, runId, -, -, -, unprotected⟩ := Table.find?_some orphaned
  obtain ⟨run', runStored', runId', actor, generation⟩ := protects.run
  have sameRun : run' = run :=
    Table.eq_of_clash runStored' runStored (Or.inl (runId'.trans runId.symm))
  subst sameRun
  rcases unprotected lease protects.leaseStored actor.symm with expired | other
  · exact absurd expired (not_le_of_gt live)
  · exact other generation.symm

/-- Checkpointing attempts keeps the running ones, by induction. -/
theorem checkpointAttempts_keeps {run : AttachedRun} {attemptIds : List AttemptId}
    (marked : checkpointAttempts run attemptIds s = .ok s') {attempt : AttemptRow}
    (stored : attempt ∈ s.toolAttempts) (running : attempt.state = .running)
    : attempt ∈ s'.toolAttempts := by
  induction attemptIds generalizing s with
  | nil =>
      cases marked
      exact stored
  | cons attemptId rest ih =>
      simp only [checkpointAttempts, bind_eq_ok] at marked
      obtain ⟨_, _, others⟩ := marked
      apply ih others
      apply Table.updateWhere_mem_of_not stored
      intro hit
      simp [AttemptState.Settled, running] at hit

/-- A transition of a run's attempt is authorised by the lease that protects it. -/
theorem transitionAttempt_keeps {lease : LeaseRow} {attempt : AttemptRow} {run : AttachedRun}
    {id : AttemptId} {expected next : AttemptState} {outcome : Option AttemptOutcome}
    {now : Timestamp} {u : Unit} (protects : Protects s lease attempt)
    (moved : transitionAttempt run id expected next outcome now s = .ok (u, s'))
    : Owns run.lease lease ∨ attempt ∈ s'.toolAttempts := by
  obtain ⟨⟨row, work, valid⟩, -, rfl⟩ := transitionAttempt_ok moved
  by_cases ofRun : attempt.runId = run.runId
  · exact Or.inl (protects.validated valid ofRun)
  · exact Or.inr (Table.updateWhere_mem_of_not protects.stored (fun hit => ofRun hit.2.1))

/-- The last failure of a run gives up attempts of that run only. -/
theorem Fails.keeps {row : RunRow} {error : String} {now : Timestamp}
    (fails : Fails row error now s s') {attempt : AttemptRow}
    (stored : attempt ∈ s.toolAttempts) (other : attempt.runId ≠ row.id)
    : attempt ∈ s'.toolAttempts := by
  obtain ⟨_, _, t, -, -, same, rfl⟩ := fails
  have attempts : t.toolAttempts = s.toolAttempts := same.sameLeases.toolAttempts
  change attempt ∈ (failRun row now t).toolAttempts
  rw [failRun, attempts]
  apply Table.updateWhere_mem_of_not _ (fun hit => other hit.1)
  exact Table.updateWhere_mem_of_not stored (fun hit => other hit.1)

/-- A committed call that recovers the attempt by its id changes it; every other one either
presents the protecting lease or keeps the attempt, by cases on the operation.
-/
theorem perform_keeps {call : Call} {answer : Answer} {lease : LeaseRow}
    {attempt : AttemptRow} (performed : call.perform s = .ok (answer, s'))
    (protects : Protects s lease attempt) (during : call.During lease)
    (unrecovered : call ≠ .recoverAttempt attempt.id)
    : call.AuthorisedBy lease ∨ attempt ∈ s'.toolAttempts := by
  have unchanged : s'.toolAttempts = s.toolAttempts →
      call.AuthorisedBy lease ∨ attempt ∈ s'.toolAttempts :=
    fun same => Or.inr (same ▸ protects.stored)
  cases call <;> simp only [Call.perform, answering_eq_ok, reading_eq_ok] at performed
  case ingest =>
    obtain ⟨_, done, -⟩ := performed
    exact unchanged (ingest_sameExecution done).toolAttempts
  case submitForActor =>
    obtain ⟨_, done, -⟩ := performed
    exact unchanged (submitForActor_sameExecution done).toolAttempts
  case cancelForActor =>
    obtain ⟨_, done, -⟩ := performed
    exact unchanged (cancelForActor_sameExecution done).toolAttempts
  case ingestWebhook =>
    obtain ⟨_, done, -⟩ := performed
    exact unchanged (ingestWebhook_sameExecution done).toolAttempts
  case acquireReadyActor =>
    obtain ⟨_, done, -⟩ := performed
    obtain ⟨_, rfl⟩ := acquire_ok done
    exact unchanged rfl
  case acquireReadyActorFor =>
    obtain ⟨_, done, -⟩ := performed
    obtain ⟨_, rfl⟩ := acquire_ok done
    exact unchanged rfl
  case renewLease =>
    obtain ⟨_, done, -⟩ := performed
    obtain ⟨-, rfl⟩ := renewLease_ok done
    exact unchanged rfl
  case releaseLease =>
    obtain ⟨_, done, -⟩ := performed
    cases done
    exact unchanged rfl
  case attachNextRun =>
    obtain ⟨_, done, -⟩ := performed
    exact unchanged (attachNextRun_sameLeases done).toolAttempts
  case newerControlEvent =>
    exact unchanged (congrArg Store.toolAttempts performed.1.symm)
  case checkpointRun command now =>
    obtain ⟨_, done, -⟩ := performed
    simp only [checkpointRun, incorporateEvents, insertMessages, bind_eq_ok] at done
    obtain ⟨_, _, m, ⟨_, _, marked⟩, t, attempts, _, ⟨_, _, stored⟩, result⟩ := done
    cases stored
    cases result
    have kept : attempt ∈ m.toolAttempts :=
      (incorporateEach_sameLeases marked).toolAttempts ▸ protects.stored
    exact Or.inr (checkpointAttempts_keeps attempts kept protects.running)
  case finalizeRun =>
    obtain ⟨_, done, -⟩ := performed
    exact unchanged (finalizeRun_sameLeases done).toolAttempts
  case cancelRun run control now ids =>
    obtain ⟨_, done, -⟩ := performed
    obtain ⟨⟨row, work, valid⟩, -, _, _, t, -, -, same, rfl⟩ := cancelRun_ok done
    by_cases ofRun : attempt.runId = run.runId
    · exact Or.inl ⟨run.lease, rfl, protects.validated valid ofRun⟩
    · right
      change attempt ∈ t.toolAttempts
      rw [same.sameLeases.toolAttempts]
      exact Table.updateWhere_mem_of_not protects.stored (fun hit => ofRun hit.1)
  case prepareAttempt =>
    obtain ⟨_, done, -⟩ := performed
    simp only [prepareAttempt, bind_eq_ok, execute_eq_ok] at done
    obtain ⟨_, _, attempts, inserted, _, _, _, _, result⟩ := done
    cases result
    exact Or.inr (Table.mem_insertUnless_of_mem inserted protects.stored)
  case markAttemptRunning run id now =>
    obtain ⟨_, done, -⟩ := performed
    exact (transitionAttempt_keeps protects done).imp_left (fun owns => ⟨run.lease, rfl, owns⟩)
  case rejectPreparedAttempt run id outcome now =>
    obtain ⟨_, done, -⟩ := performed
    unfold rejectPreparedAttempt at done
    split at done
    · cases done
    · exact (transitionAttempt_keeps protects done).imp_left (fun owns => ⟨run.lease, rfl, owns⟩)
  case finishAttempt run id outcome now =>
    obtain ⟨_, done, -⟩ := performed
    exact (transitionAttempt_keeps protects done).imp_left (fun owns => ⟨run.lease, rfl, owns⟩)
  case recoverAttempt id =>
    obtain ⟨_, done, -⟩ := performed
    have other : attempt.id ≠ id := fun same => unrecovered (congrArg _ same.symm)
    simp only [recoverAttempt, bind_eq_ok] at done
    obtain ⟨row, _, rest⟩ := done
    split at rest
    case h_2 =>
      cases rest
      exact Or.inr (Table.updateWhere_mem_of_not protects.stored (fun hit => other hit.1))
    all_goals try split at rest
    all_goals
      cases rest
      try exact unchanged rfl
  case blockUnknownAttempt =>
    obtain ⟨_, done, -⟩ := performed
    simp only [blockUnknownAttempt, bind_eq_ok] at done
    obtain ⟨_, _, _, _, result⟩ := done
    cases result
    refine Or.inr (Table.updateWhere_mem_of_not protects.stored (fun hit => ?_))
    have unknown : attempt.state = .outcomeUnknown := hit.2.2
    simp [protects.running] at unknown
  case unresolvedAttempts =>
    exact unchanged (congrArg Store.toolAttempts performed.1.symm)
  case beginStaging =>
    obtain ⟨_, done, -⟩ := performed
    simp only [beginStaging, bind_eq_ok] at done
    obtain ⟨_, _, _, _, _, _, result⟩ := done
    cases result
    exact unchanged rfl
  case deliverBundle step =>
    obtain ⟨_, done, -⟩ := performed
    obtain ⟨_, rfl, -⟩ := step.perform_ok done
    exact unchanged rfl
  case commitStagedExecution files run id execution leases now =>
    obtain ⟨_, done, -⟩ := performed
    obtain ⟨⟨leaseRow, stored, owns, -, row, runStored, runId, actor, -⟩, -, _, _, rfl⟩ :=
      commitStagedExecution_ok done
    by_cases ofRun : attempt.runId = run.runId
    · left
      exact ⟨run.lease, rfl, protects.owned stored owns runStored (runId.trans ofRun.symm)
        (actor.trans owns.1)⟩
    · exact Or.inr (Table.updateWhere_mem_of_not protects.stored (fun hit => ofRun hit.2.1))
  case recordFailure fence error progress now ids =>
    obtain ⟨_, done, -⟩ := performed
    have owned : ∃ row ∈ s.actorLeases, Owns fence.lease row := by
      simp only [recordFailure, ensureFailureFence, bind_eq_ok, require_eq_ok] at done
      obtain ⟨_, ⟨row, stored, owns, -⟩, -⟩ := done
      exact ⟨row, stored, owns⟩
    obtain ⟨leaseRow, stored, owns⟩ := owned
    obtain ⟨row, work, fenced, -, -, ⟨-, -, rfl⟩ | ⟨-, -, fails⟩⟩ := recordFailure_ok done
    · exact unchanged rfl
    · by_cases ofRun : attempt.runId = row.id
      · left
        exact ⟨fence.lease, rfl, protects.owned stored owns fenced.runStored ofRun.symm
          fenced.actorId⟩
      · exact Or.inr (fails.keeps protects.stored ofRun)
  case recordProgress =>
    obtain ⟨_, done, -⟩ := performed
    simp only [recordProgress, bind_eq_ok] at done
    obtain ⟨_, _, result⟩ := done
    cases result
    exact unchanged rfl
  case recoverStartup now =>
    obtain ⟨_, done, -⟩ := performed
    cases done
    exact Or.inr (recoverCandidates_keeps protects.stored
      (protects.not_candidate (during now rfl)))
  case recoverShutdown =>
    obtain ⟨_, done, -⟩ := performed
    cases done
    exact unchanged rfl

/-- Recovering a running attempt by its id gives it up, whoever holds its lease. -/
theorem recoverAttempt_givesUp {w : World} {attempt : AttemptRow}
    (stored : attempt ∈ w.store.toolAttempts) (running : attempt.state = .running)
    : attempt ∉ (w.after (.recoverAttempt attempt.id)).store.toolAttempts := by
  have found : w.store.toolAttempts.find? (·.id = attempt.id) = some attempt :=
    Table.find?_eq_some_of_unique stored rfl
      (fun _ known same => Table.eq_of_clash known stored (Or.inl same))
  have recovered : (Call.recoverAttempt attempt.id).perform w.store
      = .ok (.recovered .outcomeUnknown,
        { w.store with
          toolAttempts := w.store.toolAttempts.updateWhere
            (fun row => row.id = attempt.id ∧ row.state = .running)
            (fun row => { row with state := .outcomeUnknown })
            (AttemptRow.keepsKey_state .outcomeUnknown) }) := by
    refine answering_eq_ok.mpr ⟨.outcomeUnknown, bind_eq_ok.mpr ⟨attempt, ?_, ?_⟩, rfl⟩
    · exact execute_eq_ok.mpr found
    · simp only [running]
  intro kept
  rw [World.after, recovered] at kept
  obtain ⟨row, -, same⟩ := Table.mem_updateWhere.mp kept
  split at same
  · subst same
    simp at running
  · subst same
    rename_i missed
    exact missed ⟨rfl, running⟩

-----------------------------------------------------------------------------------------
-- All histories
-----------------------------------------------------------------------------------------

/-- A step that leaves the protecting lease alive, does not present it and does not recover
the attempt by its id.
-/
def Foreign (lease : LeaseRow) (attempt : AttemptRow) (w : World) (call : Call) : Prop :=
  Protects w.store lease attempt ∧ call.During lease ∧ ¬call.AuthorisedBy lease
    ∧ call ≠ .recoverAttempt attempt.id

/-- Foreign steps keep the attempt, by induction on the run. -/
theorem run_keeps {w w' : World} {lease : LeaseRow} {attempt : AttemptRow}
    (run : (runtime.restrict (Foreign lease attempt)).Run w w')
    (stored : attempt ∈ w.store.toolAttempts)
    : attempt ∈ w'.store.toolAttempts := by
  refine run.kept (J := fun w => attempt ∈ w.store.toolAttempts) ?_ stored
  intro w call w' stored taken
  obtain ⟨⟨protects, during, foreign, unrecovered⟩, -, rfl⟩ := taken
  rcases w.after_cases call with same | ⟨answer, s, performed, same⟩
  · exact same.symm ▸ stored
  · rw [same, World.commit_store]
    exact (perform_keeps performed protects during unrecovered).resolve_left foreign

/-- While a live lease protects a running attempt, only calls presenting that lease change
it, exactly when the attempt is not recovered by its id; and a run of such foreign steps
leaves the attempt as it is.
-/
theorem running_attempt_left_alone_iff {w : World} (reached : runtime.Reachable w)
    {lease : LeaseRow} {attempt : AttemptRow} (protects : Protects w.store lease attempt)
    : (∀ call, call.During lease →
        (LeftAlone w call lease attempt ↔ call ≠ .recoverAttempt attempt.id))
      ∧ ∀ w', (runtime.restrict (Foreign lease attempt)).Run w w' →
        runtime.Reachable w' ∧ attempt ∈ w'.store.toolAttempts := by
  refine ⟨fun call during => ⟨?_, ?_⟩, fun w' run => ⟨?_, run_keeps run protects.stored⟩⟩
  · intro alone recovers
    subst recovers
    rcases alone with ⟨presented, isPresented, -⟩ | kept
    · simp [Call.presented] at isPresented
    · exact recoverAttempt_givesUp protects.stored protects.running kept
  · intro unrecovered
    rcases w.after_cases call with same | ⟨answer, s, performed, same⟩
    · exact Or.inr (same.symm ▸ protects.stored)
    · rw [LeftAlone, same, World.commit_store]
      exact perform_keeps performed protects during unrecovered
  · exact reached.run run.of_restrict

-----------------------------------------------------------------------------------------
-- A stale runner recovers the attempt of its successor
-----------------------------------------------------------------------------------------

namespace Overtaken

def first : ActorLease := ⟨localActor, "first", 1, 100⟩

def second : ActorLease := ⟨localActor, "second", 2, 1000⟩

def run (lease : ActorLease) : AttachedRun where
  lease := lease
  workItemId := ⟨1⟩
  runId := ⟨3⟩
  observedSequence := 1
  sourceEventIds := [⟨1⟩]
  requestIds := [⟨1⟩]
  audience := .actorPrivate
  deliveryRoute := none
  executionPolicy := .actorTools
  ingressSource := none
  messages := [.user [.text "hello"]]

def attempt : NewToolAttempt where
  id := ⟨1⟩
  toolCallId := "call-1"
  toolName := "shell"
  argumentsJson := "\x7b\x7d"
  capabilities := ⟨false, false, false, false, false, false⟩

/-- The first runner has prepared an attempt and listed it when its lease expires; the second
runner takes the run over and starts the tool.
-/
def world : World := World.single.play
  [.submitForActor localActor ⟨⟨1⟩, "hello", "sha"⟩ 10 (.numbered 1),
    .acquireReadyActor "first" 20 100,
    .attachNextRun first 8 30 (.numbered 3),
    .prepareAttempt (run first) attempt 40,
    .unresolvedAttempts (run first),
    .acquireReadyActor "second" 100 1000,
    .attachNextRun second 8 110 (.numbered 7),
    .recoverAttempt ⟨1⟩,
    .markAttemptRunning (run second) ⟨1⟩ 120]

theorem reachable : runtime.Reachable world :=
  reachable_play reachable_single (by decide +kernel)

def lease : LeaseRow := ⟨localActor, 2, "second", 1000⟩

def started : AttemptRow where
  id := ⟨1⟩
  runId := ⟨3⟩
  toolCallId := "call-1"
  toolName := "shell"
  argumentsJson := "\x7b\x7d"
  capabilities := ⟨false, false, false, false, false, false⟩
  state := .running
  outcomeJson := none
  observationCheckpointed := false
  createdAt := 40

end Overtaken

/-- The rules hold of the tool of the second runner. -/
theorem running_attempt_left_alone_overtaken
    : Protects Overtaken.world.store Overtaken.lease Overtaken.started
      ∧ ((∀ call, call.During Overtaken.lease →
          (LeftAlone Overtaken.world call Overtaken.lease Overtaken.started ↔
            call ≠ .recoverAttempt Overtaken.started.id))
        ∧ ∀ w', (runtime.restrict (Foreign Overtaken.lease Overtaken.started)).Run
            Overtaken.world w' →
          runtime.Reachable w' ∧ Overtaken.started ∈ w'.store.toolAttempts) :=
  have protects : Protects Overtaken.world.store Overtaken.lease Overtaken.started := by
    decide +kernel
  ⟨protects, running_attempt_left_alone_iff Overtaken.reachable protects⟩

/-- The stale first runner recovers the attempt it had listed: the live runner's tool becomes
an unknown outcome, and the live runner can no longer finish it.
-/
theorem stale_runner_gives_up_running_attempt
    : runtime.Reachable Overtaken.world
      ∧ Protects Overtaken.world.store Overtaken.lease Overtaken.started
      ∧ Overtaken.world.Admissible (.recoverAttempt ⟨1⟩)
      ∧ Call.During Overtaken.lease (.recoverAttempt ⟨1⟩)
      ∧ ¬Call.AuthorisedBy Overtaken.lease (.recoverAttempt ⟨1⟩)
      ∧ (∃ row ∈ (Overtaken.world.after (.recoverAttempt ⟨1⟩)).store.toolAttempts,
          row.id = Overtaken.started.id ∧ row.state = .outcomeUnknown)
      ∧ finishAttempt (Overtaken.run Overtaken.second) ⟨1⟩ (.failedKnown "late") 130
          (Overtaken.world.after (.recoverAttempt ⟨1⟩)).store
        = .error (.rejected "attempt is not in expected state running") := by
  refine ⟨Overtaken.reachable, by decide +kernel, trivial, by decide +kernel, by decide +kernel,
    by decide +kernel, ?_⟩
  have late : (finishAttempt (Overtaken.run Overtaken.second) ⟨1⟩ (.failedKnown "late") 130
      (Overtaken.world.after (.recoverAttempt ⟨1⟩)).store).map (fun _ => ())
    = .error (.rejected "attempt is not in expected state running") := by decide +kernel
  cases finished : finishAttempt (Overtaken.run Overtaken.second) ⟨1⟩ (.failedKnown "late") 130
      (Overtaken.world.after (.recoverAttempt ⟨1⟩)).store with
  | error error => simpa [finished, Except.map] using late
  | ok result => simp [finished, Except.map] at late

end Codrik.Runtime.Sqlite
