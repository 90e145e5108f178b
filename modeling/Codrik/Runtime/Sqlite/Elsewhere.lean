import Codrik.Runtime.Sqlite.Evolution

/-! What a call made for one actor leaves alone of the runs of another: their links, their
messages and, but for tools that are given up, their attempts.
-/

namespace Codrik.Runtime.Sqlite

open Codrik.Relational

variable {s s' t : Store}

/-- The actor whose work a call presents: the one it acquires or releases, or the one of the
lease, run or fence it carries. A renewal presents a lease but touches no work.
-/
def Call.actor? : Call → Option ActorId
  | .acquireReadyActorFor actorId _ _ _ => some actorId
  | .releaseLease lease => some lease.actorId
  | .attachNextRun lease _ _ _ => some lease.actorId
  | .newerControlEvent lease _ _ => some lease.actorId
  | .checkpointRun command _ => some command.run.lease.actorId
  | .finalizeRun command _ _ => some command.run.lease.actorId
  | .cancelRun run _ _ _ => some run.lease.actorId
  | .prepareAttempt run _ _ => some run.lease.actorId
  | .markAttemptRunning run _ _ => some run.lease.actorId
  | .rejectPreparedAttempt run _ _ _ => some run.lease.actorId
  | .finishAttempt run _ _ _ => some run.lease.actorId
  | .blockUnknownAttempt run _ _ => some run.lease.actorId
  | .unresolvedAttempts run => some run.lease.actorId
  | .commitStagedExecution _ run _ _ _ _ => some run.lease.actorId
  | .recordFailure fence _ _ _ _ => some fence.lease.actorId
  | .recordProgress fence _ => some fence.lease.actorId
  | _ => none

-----------------------------------------------------------------------------------------
-- Attempts
-----------------------------------------------------------------------------------------

/-- The attempt is the same, or it was running and has been given up. -/
def GivenUp (before after : AttemptRow) : Prop :=
  after = before
    ∨ (before.state = .running ∧ after = { before with state := .outcomeUnknown })

theorem GivenUp.id {a b : AttemptRow} (same : GivenUp a b) : b.id = a.id := by
  rcases same with rfl | ⟨-, rfl⟩ <;> rfl

theorem GivenUp.runId {a b : AttemptRow} (same : GivenUp a b) : b.runId = a.runId := by
  rcases same with rfl | ⟨-, rfl⟩ <;> rfl

theorem GivenUp.trans {a b c : AttemptRow} (first : GivenUp a b) (second : GivenUp b c)
    : GivenUp a c := by
  rcases first with rfl | ⟨running, rfl⟩
  · exact second
  · rcases second with rfl | ⟨again, -⟩
    · exact Or.inr ⟨running, rfl⟩
    · cases again

/-- The attempts of the run are the same but for those given up. -/
structure AttemptsElsewhere (runId : RunId) (before after : Table AttemptRow) : Prop where
  backward : ∀ attempt' ∈ after, attempt'.runId = runId →
    ∃ attempt ∈ before, GivenUp attempt attempt'
  forward : ∀ attempt ∈ before, attempt.runId = runId →
    ∃ attempt' ∈ after, GivenUp attempt attempt'

namespace AttemptsElsewhere

variable {runId : RunId} {a b c : Table AttemptRow}

theorem refl (attempts : Table AttemptRow) : AttemptsElsewhere runId attempts attempts :=
  ⟨fun attempt mem _ => ⟨attempt, mem, Or.inl rfl⟩,
    fun attempt mem _ => ⟨attempt, mem, Or.inl rfl⟩⟩

theorem of_eq (same : b = a) : AttemptsElsewhere runId a b := by
  rw [same]
  exact refl a

theorem trans (first : AttemptsElsewhere runId a b) (second : AttemptsElsewhere runId b c)
    : AttemptsElsewhere runId a c := by
  constructor
  · intro attempt mem here
    obtain ⟨middle, mem', up⟩ := second.backward attempt mem here
    obtain ⟨before, stored, up'⟩ := first.backward middle mem' (up.runId.symm.trans here)
    exact ⟨before, stored, up'.trans up⟩
  · intro attempt mem here
    obtain ⟨middle, mem', up⟩ := first.forward attempt mem here
    obtain ⟨after, stored, up'⟩ := second.forward middle mem' (up.runId.trans here)
    exact ⟨after, stored, up.trans up'⟩

/-- An update gives up attempts of the run at most. -/
theorem update {p : AttemptRow → Prop} [DecidablePred p] {f : AttemptRow → AttemptRow}
    {k : Table.KeepsKey f} (keepsRun : ∀ attempt, (f attempt).runId = attempt.runId)
    (up : ∀ attempt ∈ a, p attempt → attempt.runId = runId → GivenUp attempt (f attempt))
    : AttemptsElsewhere runId a (a.updateWhere p f k) := by
  have image : ∀ attempt ∈ a, attempt.runId = runId →
      GivenUp attempt (if p attempt then f attempt else attempt) := by
    intro attempt mem here
    split
    · exact up attempt mem ‹_› here
    · exact Or.inl rfl
  constructor
  · intro attempt' mem here
    obtain ⟨attempt, stored, rfl⟩ := Table.mem_updateWhere.mp mem
    refine ⟨attempt, stored, image attempt stored ?_⟩
    split at here
    · exact (keepsRun attempt).symm.trans here
    · exact here
  · intro attempt mem here
    exact ⟨_, Table.updateWhere_mem mem, image attempt mem here⟩

/-- An update of another run's attempts. -/
theorem updateOther {p : AttemptRow → Prop} [DecidablePred p] {f : AttemptRow → AttemptRow}
    {k : Table.KeepsKey f} (keepsRun : ∀ attempt, (f attempt).runId = attempt.runId)
    (other : ∀ attempt, p attempt → attempt.runId ≠ runId)
    : AttemptsElsewhere runId a (a.updateWhere p f k) :=
  update keepsRun (fun attempt _ hit here => absurd here (other attempt hit))

end AttemptsElsewhere

theorem recoverCandidates_attempts {runId : RunId} {now : Timestamp}
    {candidates : List RecoveredUnknownOutcome}
    : AttemptsElsewhere runId s.toolAttempts
        (recoverCandidates now candidates s).2.toolAttempts := by
  refine recoverCandidates_invariant
    (J := fun t => AttemptsElsewhere runId s.toolAttempts t.toolAttempts) ?_ candidates (.refl _)
  intro t candidate before
  exact before.trans (.update (fun _ => rfl) (fun _ _ hit _ => Or.inr ⟨hit.2, rfl⟩))

theorem recoverAttempt_attempts {runId : RunId} {id : AttemptId} {recovery : AttemptRecovery}
    (done : recoverAttempt id s = .ok (recovery, s'))
    : AttemptsElsewhere runId s.toolAttempts s'.toolAttempts := by
  simp only [recoverAttempt, bind_eq_ok] at done
  obtain ⟨row, _, rest⟩ := done
  split at rest
  case h_2 =>
    cases rest
    exact .update (fun _ => rfl) (fun _ _ hit _ => Or.inr ⟨hit.2, rfl⟩)
  all_goals try split at rest
  all_goals
    cases rest
    try exact .refl _

/-- Checkpointing attempts of another run, by induction on the attempts. -/
theorem checkpointAttempts_elsewhere {runId : RunId} {run : AttachedRun}
    {attemptIds : List AttemptId} (marked : checkpointAttempts run attemptIds s = .ok s')
    (other : run.runId ≠ runId)
    : AttemptsElsewhere runId s.toolAttempts s'.toolAttempts := by
  induction attemptIds generalizing s with
  | nil =>
      cases marked
      exact .refl _
  | cons attemptId rest ih =>
      simp only [checkpointAttempts, bind_eq_ok] at marked
      obtain ⟨_, _, others⟩ := marked
      refine AttemptsElsewhere.trans ?_ (ih others)
      exact .updateOther (fun _ => rfl) (fun _ hit here => other (hit.2.1.symm.trans here))

theorem transitionAttempt_elsewhere {runId : RunId} {run : AttachedRun} {id : AttemptId}
    {expected next : AttemptState} {outcome : Option AttemptOutcome} {now : Timestamp} {u : Unit}
    (moved : transitionAttempt run id expected next outcome now s = .ok (u, s'))
    (other : run.runId ≠ runId)
    : AttemptsElsewhere runId s.toolAttempts s'.toolAttempts := by
  obtain ⟨-, -, rfl⟩ := transitionAttempt_ok moved
  exact .updateOther (fun _ => rfl) (fun _ hit here => other (hit.2.1.symm.trans here))

/-- Preparing an attempt of another run adds no attempt of this one. -/
theorem prepareAttempt_elsewhere {runId : RunId} {run : AttachedRun} {attempt : NewToolAttempt}
    {now : Timestamp} {prepared : ToolAttempt}
    (done : prepareAttempt run attempt now s = .ok (prepared, s'))
    (other : run.runId ≠ runId)
    : AttemptsElsewhere runId s.toolAttempts s'.toolAttempts := by
  simp only [prepareAttempt, bind_eq_ok, execute_eq_ok] at done
  obtain ⟨_, _, attempts, inserted, _, _, _, _, result⟩ := done
  cases result
  constructor
  · intro attempt' mem here
    rcases Table.mem_insertUnless inserted mem with stored | rfl
    · exact ⟨attempt', stored, Or.inl rfl⟩
    · exact absurd here other
  · intro attempt' mem _
    exact ⟨attempt', Table.mem_insertUnless_of_mem inserted mem, Or.inl rfl⟩

/-- The run a validated caller presents is not one of another actor. -/
theorem Validated.other {run : AttachedRun} {now : Timestamp} {row : RunRow} {work : WorkItemRow}
    (valid : Validated s run now row work) {stored : RunRow} (mem : stored ∈ s.runs)
    (other : some run.lease.actorId ≠ some stored.actorId)
    : run.runId ≠ stored.id := by
  intro same
  have : row = stored :=
    Table.eq_of_clash valid.runStored mem (Or.inl (valid.runId.trans same))
  exact other (congrArg some (valid.actorId.symm.trans (congrArg RunRow.actorId this)))

theorem Fenced.other {fence : FailureFence} {row : RunRow} {work : WorkItemRow}
    (fenced : Fenced s fence row work) {stored : RunRow} (mem : stored ∈ s.runs)
    (other : some fence.lease.actorId ≠ some stored.actorId)
    : row.id ≠ stored.id := by
  intro same
  have : row = stored := Table.eq_of_clash fenced.runStored mem (Or.inl same)
  exact other (congrArg some (fenced.actorId.symm.trans (congrArg RunRow.actorId this)))

/-- A call that presents another actor's work leaves the attempts of the run alone but for
those given up, by cases on the call.
-/
theorem perform_attemptsElsewhere {call : Call} {answer : Answer}
    (performed : call.perform s = .ok (answer, s')) {run : RunRow} (stored : run ∈ s.runs)
    (other : call.actor? ≠ some run.actorId)
    : AttemptsElsewhere run.id s.toolAttempts s'.toolAttempts := by
  cases call <;> simp only [Call.perform, answering_eq_ok, reading_eq_ok] at performed
  case ingest =>
    obtain ⟨_, done, -⟩ := performed
    exact .of_eq (ingest_sameExecution done).toolAttempts
  case submitForActor =>
    obtain ⟨_, done, -⟩ := performed
    exact .of_eq (submitForActor_sameExecution done).toolAttempts
  case cancelForActor =>
    obtain ⟨_, done, -⟩ := performed
    exact .of_eq (cancelForActor_sameExecution done).toolAttempts
  case ingestWebhook =>
    obtain ⟨_, done, -⟩ := performed
    exact .of_eq (ingestWebhook_sameExecution done).toolAttempts
  case acquireReadyActor =>
    obtain ⟨_, done, -⟩ := performed
    obtain ⟨_, rfl⟩ := acquire_ok done
    exact .refl _
  case acquireReadyActorFor =>
    obtain ⟨_, done, -⟩ := performed
    obtain ⟨_, rfl⟩ := acquire_ok done
    exact .refl _
  case renewLease =>
    obtain ⟨_, done, -⟩ := performed
    obtain ⟨-, rfl⟩ := renewLease_ok done
    exact .refl _
  case releaseLease =>
    obtain ⟨_, done, -⟩ := performed
    cases done
    exact .refl _
  case attachNextRun =>
    obtain ⟨_, done, -⟩ := performed
    exact .of_eq (attachNextRun_sameLeases done).toolAttempts
  case newerControlEvent => exact .of_eq (congrArg Store.toolAttempts performed.1.symm)
  case checkpointRun command now =>
    obtain ⟨_, done, -⟩ := performed
    simp only [checkpointRun, incorporateEvents, insertMessages, bind_eq_ok] at done
    obtain ⟨_, valid, m, ⟨_, _, marked⟩, t, attempts, _, ⟨_, _, stored'⟩, result⟩ := done
    obtain ⟨row, work, valid⟩ := validateRun_ok valid
    cases stored'
    cases result
    have elsewhere := checkpointAttempts_elsewhere attempts (valid.other stored other)
    rw [(incorporateEach_sameLeases marked).toolAttempts] at elsewhere
    exact elsewhere
  case finalizeRun =>
    obtain ⟨_, done, -⟩ := performed
    exact .of_eq (finalizeRun_sameLeases done).toolAttempts
  case cancelRun =>
    obtain ⟨_, done, -⟩ := performed
    obtain ⟨⟨row, work, valid⟩, -, _, _, t, -, -, same, rfl⟩ := cancelRun_ok done
    change AttemptsElsewhere _ _ t.toolAttempts
    rw [same.sameLeases.toolAttempts]
    have different := valid.other stored other
    exact .updateOther (fun _ => rfl) (fun _ hit here => different (hit.1.symm.trans here))
  case prepareAttempt =>
    obtain ⟨_, done, -⟩ := performed
    obtain ⟨row, work, valid⟩ := validateRun_ok (bind_eq_ok.mp done).choose_spec.1
    exact prepareAttempt_elsewhere done (valid.other stored other)
  case markAttemptRunning =>
    obtain ⟨_, done, -⟩ := performed
    obtain ⟨⟨row, work, valid⟩, -⟩ := transitionAttempt_ok done
    exact transitionAttempt_elsewhere done (valid.other stored other)
  case rejectPreparedAttempt =>
    obtain ⟨_, done, -⟩ := performed
    unfold rejectPreparedAttempt at done
    split at done
    · cases done
    · obtain ⟨⟨row, work, valid⟩, -⟩ := transitionAttempt_ok done
      exact transitionAttempt_elsewhere done (valid.other stored other)
  case finishAttempt =>
    obtain ⟨_, done, -⟩ := performed
    obtain ⟨⟨row, work, valid⟩, -⟩ := transitionAttempt_ok done
    exact transitionAttempt_elsewhere done (valid.other stored other)
  case recoverAttempt =>
    obtain ⟨_, done, -⟩ := performed
    exact recoverAttempt_attempts done
  case blockUnknownAttempt =>
    obtain ⟨_, done, -⟩ := performed
    simp only [blockUnknownAttempt, bind_eq_ok] at done
    obtain ⟨_, valid, _, _, result⟩ := done
    obtain ⟨row, work, valid⟩ := validateRun_ok valid
    cases result
    have different := valid.other stored other
    exact .updateOther (fun _ => rfl) (fun _ hit here => different (hit.2.1.symm.trans here))
  case unresolvedAttempts => exact .of_eq (congrArg Store.toolAttempts performed.1.symm)
  case beginStaging =>
    obtain ⟨_, done, -⟩ := performed
    simp only [beginStaging, bind_eq_ok] at done
    obtain ⟨_, _, _, _, _, _, result⟩ := done
    cases result
    exact .refl _
  case commitStagedExecution files presented attempt execution leases now =>
    obtain ⟨_, done, -⟩ := performed
    obtain ⟨⟨lease, -, owns, -, row, known, sameId, actor, -⟩, -, _, _, rfl⟩ :=
      commitStagedExecution_ok done
    refine .updateOther (fun _ => rfl) (fun attempt hit here => other ?_)
    have : row = run := Table.eq_of_clash known stored
      (Or.inl (sameId.trans (hit.2.1.symm.trans here)))
    rw [← this, actor, owns.1]
    rfl
  case recordFailure fence error progress now ids =>
    obtain ⟨_, done, -⟩ := performed
    obtain ⟨row, work, fenced, -, -, ⟨-, -, rfl⟩ | ⟨-, -, fails⟩⟩ := recordFailure_ok done
    · exact .refl _
    · have different := fenced.other stored other
      obtain ⟨_, _, t, -, -, same, rfl⟩ := fails
      change AttemptsElsewhere _ _ (failRun row now t).toolAttempts
      have attempts : t.toolAttempts = s.toolAttempts := same.sameLeases.toolAttempts
      rw [failRun, attempts]
      refine AttemptsElsewhere.trans ?_ (AttemptsElsewhere.updateOther (fun _ => rfl) ?_)
      · exact .updateOther (fun _ => rfl) (fun _ hit here => different (hit.1.symm.trans here))
      · exact fun _ hit here => different (hit.1.symm.trans here)
  case recordProgress =>
    obtain ⟨_, done, -⟩ := performed
    simp only [recordProgress, bind_eq_ok] at done
    obtain ⟨_, _, result⟩ := done
    cases result
    exact .refl _
  case deliverBundle step =>
    obtain ⟨_, done, -⟩ := performed
    obtain ⟨_, rfl, -⟩ := step.perform_ok done
    exact .refl _
  case recoverStartup now =>
    obtain ⟨_, done, -⟩ := performed
    cases done
    exact recoverCandidates_attempts
  case recoverShutdown =>
    obtain ⟨_, done, -⟩ := performed
    cases done
    exact .refl _

-----------------------------------------------------------------------------------------
-- Links and messages
-----------------------------------------------------------------------------------------

/-- A call that presents another actor's work leaves the links of the run alone. -/
theorem perform_linksElsewhere {call : Call} {answer : Answer}
    (performed : call.perform s = .ok (answer, s')) {run : RunRow} (stored : run ∈ s.runs)
    (other : call.actor? ≠ some run.actorId) {link : RunEventRow} (here : link.runId = run.id)
    : link ∈ s'.runEvents ↔ link ∈ s.runEvents := by
  cases perform_links performed with
  | same runEvents => rw [runEvents]
  | @attaches lease _ _ _ row batch is known pending rows =>
      rw [rows]
      refine or_iff_left (fun new => ?_)
      obtain ⟨event, -, rfl⟩ := new
      rw [is] at other
      exact other (congrArg some (known run stored here.symm).symm)
  | @incorporates command now row work is valid attached rows =>
      rw [is] at other
      have different := valid.other stored other
      rw [rows]
      have kept : ∀ old : RunEventRow, old.runId = run.id →
          old.incorporate command.run.runId command.incorporatedEventIds = old := by
        intro old sameRun
        have : ¬(old.runId = command.run.runId
            ∧ old.eventId ∈ command.incorporatedEventIds) :=
          fun hit => different (hit.1.symm.trans sameRun)
        simp [RunEventRow.incorporate, this]
      constructor
      · rintro ⟨old, known, rfl⟩
        rw [kept old here]
        exact known
      · intro known
        exact ⟨link, known, kept link here⟩
  | @fails fence _ _ _ _ row work is fenced rows =>
      rw [is] at other
      have different := fenced.other stored other
      rw [rows]
      exact and_iff_left (fun hit => different (hit.1.symm.trans here))

/-- The messages stored for an actor, oldest first. -/
def actorMessages (s : Store) (actorId : ActorId) : List MessageRow :=
  s.recentMessages.filter (·.actorId = actorId)

/-- A call that presents another actor's work stores no message for the actor. -/
theorem perform_messagesElsewhere {call : Call} {answer : Answer}
    (performed : call.perform s = .ok (answer, s')) {actorId : ActorId}
    (other : call.actor? ≠ some actorId)
    : actorMessages s' actorId = actorMessages s actorId := by
  cases perform_speech performed with
  | silent _ same => rw [actorMessages, same, actorMessages]
  | @speaks run messages now row work speech valid appended =>
      have presented : call.actor? = some run.lease.actorId := by
        cases call <;> simp only [Call.speech, reduceCtorEq] at speech
        case checkpointRun =>
          cases speech
          rfl
        case finalizeRun =>
          split at speech
          · cases speech
            rfl
          · cases speech
      rw [actorMessages, appended, List.filter_append, actorMessages]
      refine (List.append_right_eq_self).mpr (List.filter_eq_nil_iff.mpr ?_)
      intro message mem
      obtain ⟨text, -, rfl⟩ := List.mem_map.mp mem
      intro same
      exact other (presented.trans (congrArg some (of_decide_eq_true same)))

end Codrik.Runtime.Sqlite
