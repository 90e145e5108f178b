import Codrik.Runtime.Sqlite.Evolution

/-! The backoff of a failing work item: the failures in a row are counted below the limit
until the item is given up, and every answer to a failure follows from the count.
-/

namespace Codrik.Runtime.Sqlite

open Codrik.Relational
open Codrik.Transition

-----------------------------------------------------------------------------------------
-- Counts below the limit
-----------------------------------------------------------------------------------------

/-- A work item that is not given up has failed fewer times in a row than the limit. -/
def WorkItemRow.Bounded (work : WorkItemRow) : Prop :=
  work.state = .failedTerminal ∨ work.failureCount < failureLimit

/-- Every stored work item is bounded. -/
def Bounded (workItems : Table WorkItemRow) : Prop := ∀ work ∈ workItems, work.Bounded

/-- An item that is not given up may enter any state. -/
theorem WorkItemRow.Bounded.enter {work : WorkItemRow} (bounded : work.Bounded)
    (live : work.state ≠ .failedTerminal) (state : WorkItemState) (now : Timestamp)
    : (work.enter state now).Bounded :=
  Or.inr (bounded.resolve_left live)

/-- A new work item has not failed. -/
theorem newWorkItem_bounded (id : WorkItemId) (actorId : ActorId) (kind : WorkItemKind)
    (audience : Audience) (now : Timestamp)
    : (newWorkItem id actorId kind audience now).Bounded :=
  Or.inr (Nat.zero_lt_succ _)

/-- An update keeps the bound when it keeps the bound of each item it changes. -/
theorem Bounded.update {workItems : Table WorkItemRow} (bounded : Bounded workItems)
    {p : WorkItemRow → Prop} [DecidablePred p] {f : WorkItemRow → WorkItemRow}
    {k : Table.KeepsKey f}
    (keeps : ∀ work ∈ workItems, p work → work.Bounded → (f work).Bounded)
    : Bounded (workItems.updateWhere p f k) := by
  refine Table.forall_updateWhere.mpr (fun work mem => ?_)
  split
  · exact keeps work mem ‹_› (bounded work mem)
  · exact bounded work mem

theorem Bounded.insert {workItems after : Table WorkItemRow} (bounded : Bounded workItems)
    {work : WorkItemRow} (inserted : workItems.insert? work = some after)
    (new : work.Bounded)
    : Bounded after := by
  intro other mem
  rcases (Table.mem_insert? inserted).mp mem with stored | rfl
  · exact bounded other stored
  · exact new

-----------------------------------------------------------------------------------------
-- Operations
-----------------------------------------------------------------------------------------

variable {issued : List AttachedRun} {s s' t : Store}

/-- The work item of an active run is not given up. -/
theorem WellFormed.notGivenUp (wf : WellFormed issued s) {row : RunRow} (stored : row ∈ s.runs)
    (active : row.state = .active) {work : WorkItemRow} (mem : work ∈ s.workItems)
    (same : work.id = row.workItemId)
    : work.state ≠ .failedTerminal := by
  obtain ⟨other, known, sameId, -, live⟩ := wf.runWork row stored
  have : other = work := Table.eq_of_clash known mem (sameId.trans same.symm)
  subst this
  intro given
  exact live active (Or.inr (Or.inr (Or.inl given)))

/-- The work item of an active run may enter any state. -/
theorem WellFormed.enters (wf : WellFormed issued s) (bounded : Bounded s.workItems)
    {run : AttachedRun} {now : Timestamp} {row : RunRow} {item : WorkItemRow}
    (valid : Validated s run now row item) (state : WorkItemState) {at' : Timestamp}
    {k : Table.KeepsKey (WorkItemRow.enter state at')}
    : Bounded (s.workItems.updateWhere (·.id = run.workItemId) (·.enter state at') k) := by
  refine bounded.update (fun work mem same old => ?_)
  have live := wf.notGivenUp valid.runStored valid.active mem
    (same.trans valid.workItemId.symm)
  exact old.enter live state at'

theorem upsertWorkItem_bounded {id : WorkItemId} {actorId : ActorId} {audience : Audience}
    {now : Timestamp} {workItems : Table WorkItemRow} (bounded : Bounded s.workItems)
    (upserted : upsertWorkItem s id actorId audience now = .ok workItems)
    : Bounded workItems := by
  unfold upsertWorkItem at upserted
  split at upserted
  · cases upserted
    refine bounded.update (fun work _ _ old => ?_)
    rcases old with given | below
    · refine Or.inl ?_
      rw [WorkItemRow.rejoin, if_neg (by rw [given]; exact WorkItemState.noConfusion)]
      exact given
    · exact Or.inr below
  · rw [execute_eq_ok] at upserted
    exact bounded.insert upserted (newWorkItem_bounded _ _ _ _ _)

theorem ingest_bounded {event : NewInboundEvent} {now : Timestamp} {ids : FreshIds}
    {outcome : IngressOutcome} (bounded : Bounded s.workItems)
    (ingested : ingest event now ids s = .ok (outcome, s'))
    : Bounded s'.workItems := by
  simp only [ingest, bind_eq_ok] at ingested
  obtain ⟨_, _, ingested⟩ := ingested
  split at ingested
  · cases ingested
    exact bounded
  · split at ingested
    · cases ingested
      exact bounded
    · simp only [bind_eq_ok, execute_eq_ok] at ingested
      obtain ⟨_, upserted, _, _, _, inserted, _, recorded, result⟩ := ingested
      cases result
      obtain ⟨_, _, _, rfl⟩ := recordRoute_ok recorded
      exact upsertWorkItem_bounded bounded upserted

theorem submitForActor_bounded {actorId : ActorId} {command : LocalSubmission}
    {now : Timestamp} {ids : FreshIds} {outcome : LocalSubmitOutcome}
    (bounded : Bounded s.workItems)
    (submitted : submitForActor actorId command now ids s = .ok (outcome, s'))
    : Bounded s'.workItems := by
  unfold submitForActor at submitted
  split at submitted
  · split at submitted
    · split at submitted
      · split at submitted
        · cases submitted
          exact bounded
        · cases submitted
      · cases submitted
        exact bounded
    · simp only [bind_eq_ok, execute_eq_ok] at submitted
      obtain ⟨_, upserted, _, _, _, _, _, _, result⟩ := submitted
      cases result
      exact upsertWorkItem_bounded bounded upserted
  · cases submitted
    exact bounded

theorem acceptCancel_bounded {actorId : ActorId} {command : LocalCancel}
    {request : RequestRow} {now : Timestamp} {ids : FreshIds} {outcome : CancelOutcome}
    (bounded : Bounded s.workItems)
    (accepted : acceptCancel actorId command request now ids s = .ok (outcome, s'))
    : Bounded s'.workItems := by
  simp only [acceptCancel, bind_eq_ok, execute_eq_ok] at accepted
  obtain ⟨⟨_, m⟩, reattached, _, _, _, _, _, _, result⟩ := accepted
  cases result
  have moved : Bounded m.workItems := by
    unfold reattachRequest at reattached
    split at reattached
    · cases reattached
      exact bounded
    · simp only [bind_eq_ok, execute_eq_ok] at reattached
      obtain ⟨_, inserted, _, _, result⟩ := reattached
      cases result
      exact bounded.insert inserted (newWorkItem_bounded _ _ _ _ _)
  exact moved.update (fun _ _ _ old => old)

theorem cancelForActor_bounded {actorId : ActorId} {command : LocalCancel}
    {now : Timestamp} {ids : FreshIds} {outcome : CancelOutcome}
    (bounded : Bounded s.workItems)
    (cancelled : cancelForActor actorId command now ids s = .ok (outcome, s'))
    : Bounded s'.workItems := by
  simp only [cancelForActor, bind_eq_ok] at cancelled
  obtain ⟨_, _, cancelled⟩ := cancelled
  split at cancelled
  · simp only [bind_eq_ok] at cancelled
    obtain ⟨_, _, _, _, _, _, result⟩ := cancelled
    cases result
    exact bounded
  · split at cancelled
    · cases cancelled
    · split at cancelled
      · exact acceptCancel_bounded bounded cancelled
      · cases cancelled
        exact bounded

theorem ingestWebhook_bounded {event : NewWebhookEvent} {now : Timestamp}
    {ids : FreshIds} {outcome : WebhookIngressOutcome} (bounded : Bounded s.workItems)
    (ingested : ingestWebhook event now ids s = .ok (outcome, s'))
    : Bounded s'.workItems := by
  simp only [ingestWebhook, acceptWebhook] at ingested
  split at ingested
  · split at ingested
    · cases ingested
      exact bounded
    · simp only [storeWebhook, bind_eq_ok, execute_eq_ok] at ingested
      obtain ⟨_, ⟨_, created, _, _, _, _, stored⟩, _, _, result⟩ := ingested
      cases stored
      cases result
      exact bounded.insert created (newWorkItem_bounded _ _ _ _ _)
  · cases ingested
    exact bounded

/-- A run is resumed for a work item that is ready. -/
theorem resumeRun_bounded {lease : ActorLease} {maxEvents : Nat} {row : RunRow}
    {work : WorkItemRow} {now : Timestamp} {answer : Option AttachedRun}
    (bounded : Bounded s.workItems) (stored : work ∈ s.workItems)
    (same : work.id = row.workItemId) (ready : work.state = .ready)
    (resumed : resumeRun lease maxEvents row work now s = .ok (answer, s'))
    : Bounded s'.workItems := by
  simp only [resumeRun, bind_eq_ok] at resumed
  obtain ⟨m, attached, _, _, rest⟩ := resumed
  have taken : m.workItems = s.workItems := by rw [(Takes.of_attachEvents attached).store]
  have blocked : ∀ code message, Bounded (blockMalformed code message row now m).workItems := by
    intro code message
    have before : Bounded m.workItems := taken ▸ bounded
    refine before.update (fun other mem sameId old => Or.inr (old.resolve_left ?_))
    rw [taken] at mem
    have : other = work := Table.eq_of_clash mem stored (sameId.trans same.symm)
    rw [this, ready]
    exact WorkItemState.noConfusion
  split at rest
  · cases rest
    exact blocked _ _
  · split at rest
    · cases rest
      exact blocked _ _
    · cases rest
      exact taken ▸ bounded

theorem attachNextRun_bounded {lease : ActorLease} {maxEvents : Nat} {now : Timestamp}
    {ids : FreshIds} {answer : Option AttachedRun} (bounded : Bounded s.workItems)
    (attached : attachNextRun lease maxEvents now ids s = .ok (answer, s'))
    : Bounded s'.workItems := by
  obtain ⟨-, -, ⟨row, work, due, stored, same, resumed⟩ | ⟨-, -, -, rfl⟩ |
    ⟨row, work, m, -, opened, resumed⟩⟩ := attachNextRun_ok attached
  · obtain ⟨-, -, -, other, known, sameId, ready, -⟩ := Table.mem_of_first? due
    have : other = work := Table.eq_of_clash known stored (sameId.trans same.symm)
    exact resumeRun_bounded bounded stored same (this ▸ ready) resumed
  · exact bounded
  · obtain ⟨m', assigned, ⟨-, none⟩ | ⟨event, work', runs, opens, some'⟩⟩ := openRun_ok opened
    · cases none
    · cases some'
      have assignedBound : Bounded m'.workItems := by
        unfold assignUnassigned at assigned
        split at assigned
        · cases assigned
          exact bounded
        · simp only [bind_eq_ok, execute_eq_ok] at assigned
          obtain ⟨_, inserted, result⟩ := assigned
          cases result
          exact bounded.insert inserted (newWorkItem_bounded _ _ _ _ _)
      have here : Bounded ({ m' with runs := runs } : Store).workItems := assignedBound
      exact resumeRun_bounded here opens.workStored rfl opens.runnable.1 resumed

theorem recoverCandidates_bounded (now : Timestamp) (candidates : List RecoveredUnknownOutcome)
    (bounded : Bounded s.workItems)
    : Bounded (recoverCandidates now candidates s).2.workItems := by
  refine recoverCandidates_invariant (J := fun t => Bounded t.workItems) ?_ candidates bounded
  intro t candidate before
  refine before.update (fun work _ waits old => old.enter ?_ _ _)
  rcases waits.2 with ready | waiting
  · rw [ready]
    exact WorkItemState.noConfusion
  · rw [waiting]
    exact WorkItemState.noConfusion

-----------------------------------------------------------------------------------------
-- Reachable stores
-----------------------------------------------------------------------------------------

/-- A committed call keeps the bound, by cases on the operation. -/
theorem perform_bounded {call : Call} {answer : Answer} (wf : WellFormed issued s)
    (bounded : Bounded s.workItems) (performed : call.perform s = .ok (answer, s'))
    : Bounded s'.workItems := by
  cases call <;> simp only [Call.perform, answering_eq_ok, reading_eq_ok] at performed
  case ingest =>
    obtain ⟨_, done, -⟩ := performed
    exact ingest_bounded bounded done
  case submitForActor =>
    obtain ⟨_, done, -⟩ := performed
    exact submitForActor_bounded bounded done
  case cancelForActor =>
    obtain ⟨_, done, -⟩ := performed
    exact cancelForActor_bounded bounded done
  case ingestWebhook =>
    obtain ⟨_, done, -⟩ := performed
    exact ingestWebhook_bounded bounded done
  case acquireReadyActor =>
    obtain ⟨_, done, -⟩ := performed
    obtain ⟨_, rfl⟩ := acquire_ok done
    exact bounded
  case acquireReadyActorFor =>
    obtain ⟨_, done, -⟩ := performed
    obtain ⟨_, rfl⟩ := acquire_ok done
    exact bounded
  case renewLease =>
    obtain ⟨_, done, -⟩ := performed
    obtain ⟨-, rfl⟩ := renewLease_ok done
    exact bounded
  case releaseLease =>
    obtain ⟨_, done, -⟩ := performed
    cases done
    exact bounded
  case attachNextRun =>
    obtain ⟨_, done, -⟩ := performed
    exact attachNextRun_bounded bounded done
  case newerControlEvent => exact performed.1 ▸ bounded
  case checkpointRun =>
    obtain ⟨_, done, -⟩ := performed
    simp only [checkpointRun, incorporateEvents, insertMessages, bind_eq_ok] at done
    obtain ⟨_, _, m, ⟨_, _, marked⟩, _, attempts, _, ⟨_, _, stored⟩, result⟩ := done
    cases stored
    cases result
    obtain ⟨_, rfl⟩ := checkpointAttempts_ok attempts
    obtain ⟨_, rfl⟩ := incorporateEach_store marked
    exact bounded
  case finalizeRun =>
    obtain ⟨_, done, -⟩ := performed
    obtain ⟨⟨row, item, valid⟩, ⟨_, -, -, rfl⟩ |
      ⟨-, -, _, -, -, _, _, t, -, ⟨_, _, _, _, _, rfl⟩, rfl⟩⟩ := finalizeRun_ok done
    · exact bounded
    · exact wf.enters bounded valid _
  case cancelRun =>
    obtain ⟨_, done, -⟩ := performed
    obtain ⟨⟨row, item, valid⟩, -, _, _, _, -, -, ⟨_, _, _, _, _, rfl⟩, rfl⟩ := cancelRun_ok done
    exact wf.enters bounded valid _
  case prepareAttempt =>
    obtain ⟨_, done, -⟩ := performed
    simp only [prepareAttempt, bind_eq_ok] at done
    obtain ⟨_, _, _, _, _, _, _, _, result⟩ := done
    cases result
    exact bounded
  case markAttemptRunning =>
    obtain ⟨_, done, -⟩ := performed
    obtain ⟨-, -, rfl⟩ := transitionAttempt_ok done
    exact bounded
  case rejectPreparedAttempt =>
    obtain ⟨_, done, -⟩ := performed
    unfold rejectPreparedAttempt at done
    split at done
    · cases done
    · obtain ⟨-, -, rfl⟩ := transitionAttempt_ok done
      exact bounded
  case finishAttempt =>
    obtain ⟨_, done, -⟩ := performed
    obtain ⟨-, -, rfl⟩ := transitionAttempt_ok done
    exact bounded
  case recoverAttempt =>
    obtain ⟨_, done, -⟩ := performed
    obtain ⟨_, rfl⟩ := recoverAttempt_ok done
    exact bounded
  case blockUnknownAttempt =>
    obtain ⟨_, done, -⟩ := performed
    simp only [blockUnknownAttempt, bind_eq_ok] at done
    obtain ⟨_, checked, _, _, result⟩ := done
    obtain ⟨row, item, valid⟩ := validateRun_ok checked
    cases result
    exact wf.enters bounded valid _
  case unresolvedAttempts => exact performed.1 ▸ bounded
  case beginStaging =>
    obtain ⟨_, done, -⟩ := performed
    simp only [beginStaging, bind_eq_ok] at done
    obtain ⟨_, _, _, _, _, _, result⟩ := done
    cases result
    exact bounded
  case commitStagedExecution =>
    obtain ⟨_, done, -⟩ := performed
    obtain ⟨-, -, _, _, rfl⟩ := commitStagedExecution_ok done
    exact bounded
  case recordFailure =>
    obtain ⟨_, done, -⟩ := performed
    obtain ⟨row, work, -, -, -, ⟨below, -, rfl⟩ | ⟨-, -, fails⟩⟩ := recordFailure_ok done
    · exact bounded.update (fun _ _ _ _ => Or.inr below)
    · obtain ⟨_, _, _, -, -, ⟨_, _, _, _, _, rfl⟩, rfl⟩ := fails
      exact bounded.update (fun _ _ _ _ => Or.inl rfl)
  case recordProgress =>
    obtain ⟨_, done, -⟩ := performed
    simp only [recordProgress, bind_eq_ok] at done
    obtain ⟨_, _, result⟩ := done
    cases result
    exact bounded.update (fun _ _ _ _ => Or.inr (Nat.zero_lt_succ _))
  case deliverBundle step =>
    obtain ⟨_, done, -⟩ := performed
    obtain ⟨_, rfl, -⟩ := step.perform_ok done
    exact bounded
  case recoverStartup now =>
    obtain ⟨_, done, -⟩ := performed
    cases done
    exact recoverCandidates_bounded now _ bounded
  case recoverShutdown =>
    obtain ⟨_, done, -⟩ := performed
    cases done
    exact bounded

/-- Every reachable store is bounded, by induction on the history. -/
theorem reachable_bounded {w : World} (reached : runtime.Reachable w)
    : Bounded w.store.workItems := by
  refine System.Reachable.invariant (J := fun w => Bounded w.store.workItems) ?_ ?_ reached
  · rintro _ ⟨_, _, rfl⟩ work mem
    exact absurd mem List.not_mem_nil
  · rintro w call _ before bounded ⟨-, rfl⟩
    rcases w.after_cases call with same | ⟨answer, s, performed, same⟩
    · exact same.symm ▸ bounded
    · rw [same, World.commit_store]
      exact perform_bounded (reachable_wellFormed before) bounded performed

-----------------------------------------------------------------------------------------
-- Calls on a fence
-----------------------------------------------------------------------------------------

/-- A call of a runner on the fence it holds. -/
inductive FenceCall
  | recordFailure (error : String) (progress : QuantumProgress) (now : Timestamp)
      (ids : FreshIds)
  | recordProgress (now : Timestamp)

def FenceCall.on (fence : FailureFence) : FenceCall → Call
  | .recordFailure error progress now ids => .recordFailure fence error progress now ids
  | .recordProgress now => .recordProgress fence now

/-- The streak after a call that went through: progress ends it, a failure after progress
starts a new one.
-/
def FenceCall.streak (before : Nat) : FenceCall → Nat
  | .recordFailure _ .none _ _ => before + 1
  | .recordFailure _ _ _ _ => 1
  | .recordProgress _ => 0

/-- The streak after a sequence of calls; those that were refused do not count. -/
def streakAfter (fence : FailureFence) (w : World) (before : Nat) : List FenceCall → Nat
  | [] => before
  | call :: rest =>
      match (call.on fence).perform w.store with
      | .ok _ => streakAfter fence (w.after (call.on fence)) (call.streak before) rest
      | .error _ => streakAfter fence w before rest

/-- The count that `record_failure` stores is the streak. -/
theorem nextFailureCount_eq (before : Nat) (error : String) (progress : QuantumProgress)
    (now : Timestamp) (ids : FreshIds)
    : nextFailureCount before progress
      = (FenceCall.recordFailure error progress now ids).streak before := by
  cases progress <;> rfl

/-- The rows a fence guards while it is live: the item is ready and has failed `streak` times
in a row.
-/
structure Watched (s : Store) (fence : FailureFence) (streak : Nat) (lease : LeaseRow)
    (run : RunRow) (work : WorkItemRow) : Prop where
  leaseStored : lease ∈ s.actorLeases
  owns : Owns fence.lease lease
  expiresAt : lease.expiresAt = fence.lease.expiresAt
  runStored : run ∈ s.runs
  actorId : run.actorId = lease.actorId
  runId : run.id = fence.runId
  workItemId : run.workItemId = fence.workItemId
  generation : run.leaseGeneration = fence.lease.generation
  active : run.state = .active
  workStored : work ∈ s.workItems
  workId : work.id = run.workItemId
  ready : work.state = .ready
  failureCount : work.failureCount = streak

/-- The fence is live, but for its expiry. -/
def Live (s : Store) (fence : FailureFence) (streak : Nat) : Prop :=
  ∃ lease run work, Watched s fence streak lease run work

/-- The run of the fence has failed for good. -/
def FailedForGood (s : Store) (fence : FailureFence) : Prop :=
  ∃ run ∈ s.runs, run.id = fence.runId ∧ run.state = .failedTerminal

/-- A fence that holds is live. -/
theorem live_of_fence {fence : FailureFence} {now : Timestamp} {work : WorkItemRow}
    (holds : FailureFenceHolds s fence now true) (stored : work ∈ s.workItems)
    (same : work.id = fence.workItemId)
    : Live s fence work.failureCount := by
  obtain ⟨lease, leaseStored, owns, expiresAt, -, run, runStored, actorId, runId, workItemId,
    generation, other, known, workId, states⟩ := holds
  have : other = work :=
    Table.eq_of_clash known stored (workId.trans (workItemId.trans same.symm))
  subst this
  obtain ⟨active, ready⟩ : run.state = .active ∧ other.state = .ready := by
    simpa [FenceStates] using states
  exact ⟨lease, run, other, leaseStored, owns, expiresAt, runStored, actorId, runId, workItemId,
    generation, active, known, workId, ready, rfl⟩

section Fence

variable {fence : FailureFence} {streak : Nat}

/-- A live fence holds until it expires. -/
theorem Live.fence_iff (live : Live s fence streak) (now : Timestamp) (requireActive : Bool)
    : FailureFenceHolds s fence now requireActive ↔ now < fence.lease.expiresAt := by
  obtain ⟨lease, run, work, watched⟩ := live
  constructor
  · rintro ⟨other, -, -, expiresAt, later, -⟩
    exact expiresAt ▸ later
  · intro early
    exact ⟨lease, watched.leaseStored, watched.owns, watched.expiresAt,
      watched.expiresAt ▸ early, run, watched.runStored, watched.actorId, watched.runId,
      watched.workItemId, watched.generation, work, watched.workStored, watched.workId,
      Or.inl ⟨watched.active, watched.ready⟩⟩

theorem Live.fenced (live : Live s fence streak) {now : Timestamp}
    (early : now < fence.lease.expiresAt) (requireActive : Bool)
    : ensureFailureFence s fence now requireActive = .ok () := by
  rw [ensureFailureFence, require, if_pos ((live.fence_iff now requireActive).mpr early)]

/-- The fence of a run that has failed for good never holds again. -/
theorem FailedForGood.not_fence (given : FailedForGood s fence) (now : Timestamp) (requireActive : Bool)
    : ¬FailureFenceHolds s fence now requireActive := by
  rintro ⟨lease, -, -, -, -, run, stored, -, runId, -, -, work, -, -, states⟩
  obtain ⟨other, known, sameId, failed⟩ := given
  have : run = other := Table.eq_of_clash stored known (Or.inl (runId.trans sameId.symm))
  subst this
  rcases states with ⟨active, -⟩ | ⟨-, active, -⟩ | ⟨-, ⟨completed, -⟩ | ⟨cancelled, -⟩⟩
  · exact absurd (failed.symm.trans active) RunState.noConfusion
  · exact absurd (failed.symm.trans active) RunState.noConfusion
  · exact absurd (failed.symm.trans completed) RunState.noConfusion
  · exact absurd (failed.symm.trans cancelled) RunState.noConfusion

/-- Both operations are refused when the fence does not hold. -/
theorem recordFailure_refused {now : Timestamp} (error : String) (progress : QuantumProgress)
    (ids : FreshIds) (refused : ¬FailureFenceHolds s fence now true)
    : recordFailure fence error progress now ids s = .error .staleLease := by
  rw [recordFailure, ensureFailureFence, require, if_neg refused]
  rfl

theorem recordProgress_refused {now : Timestamp}
    (refused : ¬FailureFenceHolds s fence now false)
    : recordProgress fence now s = .error .staleLease := by
  rw [recordProgress, ensureFailureFence, require, if_neg refused]
  rfl

/-- The work item of a live fence changes and stays ready. -/
theorem Live.update (live : Live s fence streak) {f : WorkItemRow → WorkItemRow}
    {k : Table.KeepsKey f} (id : ∀ work, (f work).id = work.id)
    (state : ∀ work, (f work).state = work.state) {count : Nat}
    (counts : ∀ work, (f work).failureCount = count)
    : Live { s with workItems := s.workItems.updateWhere (·.id = fence.workItemId) f k } fence
        count := by
  obtain ⟨lease, run, work, watched⟩ := live
  have hit : work.id = fence.workItemId := watched.workId.trans watched.workItemId
  exact ⟨lease, run, f work, watched.leaseStored, watched.owns, watched.expiresAt,
    watched.runStored, watched.actorId, watched.runId, watched.workItemId, watched.generation,
    watched.active, Table.updateWhere_mem_of watched.workStored hit,
    (id work).trans watched.workId, (state work).trans watched.ready, counts work⟩

/-- The fields of a work item that is tried again. -/
def WorkItemRow.retry (error : String) (count : Nat) (now : Timestamp) (work : WorkItemRow)
    : WorkItemRow :=
  { work with
    failureCount := count
    nextAttemptAt := some (retryTime now count)
    lastError := some (.reported error)
    updatedAt := now }

theorem WorkItemRow.keepsKey_retry (error : String) (count : Nat) (now : Timestamp)
    : Table.KeepsKey (WorkItemRow.retry error count now) :=
  ⟨fun _ _ clash => clash⟩

/-- A failure below the limit is answered with the time of the next attempt, which is
stored with the streak.
-/
theorem Live.recordFailure_below (live : Live s fence streak) {now : Timestamp}
    (early : now < fence.lease.expiresAt) (error : String) {progress : QuantumProgress}
    (ids : FreshIds) {count : Nat} (counts : nextFailureCount streak progress = count)
    (below : count < failureLimit)
    : ∃ s', recordFailure fence error progress now ids s = .ok (.retryAt (retryTime now count), s')
      ∧ Live s' fence count
      ∧ ∃ work ∈ s'.workItems, work.id = fence.workItemId ∧ work.failureCount = count
        ∧ work.nextAttemptAt = some (retryTime now count) := by
  obtain ⟨lease, run, work, watched⟩ := id live
  have hit : work.id = fence.workItemId := watched.workId.trans watched.workItemId
  have found : s.workItems.find?
      (fun work => work.id = fence.workItemId ∧ work.state = .ready) = some work :=
    Table.find?_eq_some_of_unique watched.workStored ⟨hit, watched.ready⟩
      (fun other stored same =>
        Table.eq_of_clash stored watched.workStored (same.1.trans hit.symm))
  let after : Store := { s with
    workItems := s.workItems.updateWhere (·.id = fence.workItemId) (·.retry error count now)
      (WorkItemRow.keepsKey_retry error count now) }
  have recorded : recordFailure fence error progress now ids s
      = .ok (.retryAt (retryTime now count), after) := by
    refine bind_eq_ok.mpr ⟨(), live.fenced early true, ?_⟩
    simp only [found, watched.failureCount, counts]
    rw [if_pos below]
    rfl
  have still : Live after fence count :=
    live.update (f := WorkItemRow.retry error count now) (fun _ => rfl) (fun _ => rfl)
      (fun _ => rfl)
  exact ⟨after, recorded, still, _, Table.updateWhere_mem_of watched.workStored hit, hit, rfl, rfl⟩

/-- A failure at the limit is never answered with another attempt: the item is given up, or
the results of its end are not stored.
-/
theorem Live.recordFailure_reached (live : Live s fence streak) {now : Timestamp}
    {error : String} {progress : QuantumProgress} {ids : FreshIds}
    (reached : failureLimit ≤ nextFailureCount streak progress)
    {disposition : FailureDisposition}
    (recorded : recordFailure fence error progress now ids s = .ok (disposition, s'))
    : disposition = .terminalized ∧ FailedForGood s' fence := by
  obtain ⟨row, item, fenced, active, ready, ⟨below, -⟩ | ⟨-, ends, fails⟩⟩ :=
    recordFailure_ok recorded
  · obtain ⟨lease, run, work, watched⟩ := live
    have same : item = work := Table.eq_of_clash fenced.workStored watched.workStored
      ((fenced.workId.trans fenced.workItemId).trans
        (watched.workId.trans watched.workItemId).symm)
    rw [same, watched.failureCount] at below
    exact absurd below (Nat.not_lt_of_le reached)
  · obtain ⟨_, _, t, -, -, ⟨_, _, _, _, _, rfl⟩, rfl⟩ := fails
    refine ⟨ends, _, Table.updateWhere_mem_of (a := row) fenced.runStored rfl, ?_, rfl⟩
    exact fenced.runId

/-- Progress ends the streak. -/
theorem Live.recordProgress_early (live : Live s fence streak) {now : Timestamp}
    (early : now < fence.lease.expiresAt)
    : ∃ s', recordProgress fence now s = .ok ((), s') ∧ Live s' fence 0 := by
  refine ⟨_, bind_eq_ok.mpr ⟨(), live.fenced early false, rfl⟩, live.update ?_ ?_ ?_⟩
  · exact fun _ => rfl
  · exact fun _ => rfl
  · exact fun _ => rfl

-----------------------------------------------------------------------------------------
-- Sequences of calls
-----------------------------------------------------------------------------------------

/-- The item is retried while its streak is below the limit, and has then failed for good. -/
def Standing (s : Store) (fence : FailureFence) (streak : Nat) : Prop :=
  (streak < failureLimit ∧ Live s fence streak)
    ∨ (streak = failureLimit ∧ FailedForGood s fence)

/-- A call that goes through moves the streak. -/
theorem Standing.performed (standing : Standing s fence streak) {call : FenceCall}
    {answer : Answer} (performed : (call.on fence).perform s = .ok (answer, s'))
    : Standing s' fence (call.streak streak) := by
  cases call with
  | recordFailure error progress now ids =>
      simp only [FenceCall.on, Call.perform, answering_eq_ok] at performed
      obtain ⟨disposition, recorded, -⟩ := performed
      rcases standing with ⟨below, live⟩ | ⟨-, failed⟩
      · rw [← nextFailureCount_eq]
        rcases Nat.lt_or_ge (nextFailureCount streak progress) failureLimit with again | last
        · have early : now < fence.lease.expiresAt := by
            refine (live.fence_iff now true).mp (Decidable.byContradiction (fun refused => ?_))
            rw [recordFailure_refused error progress ids refused] at recorded
            cases recorded
          obtain ⟨_, retried, live', -⟩ := live.recordFailure_below early error ids rfl again
          rw [retried] at recorded
          cases recorded
          exact Or.inl ⟨again, live'⟩
        · refine Or.inr ⟨Nat.le_antisymm ?_ last, (live.recordFailure_reached last recorded).2⟩
          unfold nextFailureCount
          split
          · exact below
          · exact Nat.succ_le_succ (Nat.zero_le 4)
      · rw [recordFailure_refused error progress ids (failed.not_fence now true)] at recorded
        cases recorded
  | recordProgress now =>
      simp only [FenceCall.on, Call.perform, answering_eq_ok] at performed
      obtain ⟨_, recorded, -⟩ := performed
      rcases standing with ⟨-, live⟩ | ⟨-, failed⟩
      · have early : now < fence.lease.expiresAt := by
          refine (live.fence_iff now false).mp (Decidable.byContradiction (fun refused => ?_))
          rw [recordProgress_refused refused] at recorded
          cases recorded
        obtain ⟨_, ended, live'⟩ := live.recordProgress_early early
        rw [ended] at recorded
        cases recorded
        exact Or.inl ⟨Nat.zero_lt_succ _, live'⟩
      · rw [recordProgress_refused (failed.not_fence now false)] at recorded
        cases recorded

/-- The streak stands after every sequence of calls, by induction on it. -/
theorem Standing.play {w : World} (standing : Standing w.store fence streak)
    (calls : List FenceCall)
    : Standing (w.play (calls.map (·.on fence))).store fence
        (streakAfter fence w streak calls) := by
  induction calls generalizing w streak with
  | nil => exact standing
  | cons call rest ih =>
      rw [List.map_cons, streakAfter]
      change Standing (World.play (w.after (call.on fence)) _).store _ _
      cases performed : (call.on fence).perform w.store with
      | ok result =>
          obtain ⟨answer, s'⟩ := result
          refine ih ?_
          have next : w.after (call.on fence) = w.commit (call.on fence) answer s' := by
            rw [World.after, performed]
          rw [next, World.commit_store]
          exact standing.performed performed
      | error error =>
          have same : w.after (call.on fence) = w := by
            rw [World.after, performed]
          rw [same]
          exact ih standing

/-- What a failure at `now` is answered when the streak before it is `before` and would be
`count` after it.
-/
def AnswersFailure (fence : FailureFence) (before count : Nat) (now : Timestamp)
    : Except StoreError (FailureDisposition × Store) → Prop
  | .ok (.terminalized, _) =>
      now < fence.lease.expiresAt ∧ before < failureLimit ∧ count = failureLimit
  | .ok (.retryAt time, s) =>
      now < fence.lease.expiresAt ∧ before < failureLimit ∧ 1 ≤ count ∧ count < failureLimit
        ∧ time = now.plusMillis (1000 * 2 ^ (count - 1))
        ∧ ∃ work ∈ s.workItems, work.id = fence.workItemId ∧ work.failureCount = count
          ∧ work.nextAttemptAt = some time
  | .error _ => fence.lease.expiresAt ≤ now ∨ before = failureLimit ∨ count = failureLimit

/-- The answer to a failure follows from the streak. -/
theorem Standing.answersFailure (standing : Standing s fence streak) (error : String)
    (progress : QuantumProgress) (now : Timestamp) (ids : FreshIds)
    : AnswersFailure fence streak
        ((FenceCall.recordFailure error progress now ids).streak streak) now
        (recordFailure fence error progress now ids s) := by
  rw [← nextFailureCount_eq]
  rcases standing with ⟨below, live⟩ | ⟨reached, failed⟩
  · by_cases early : now < fence.lease.expiresAt
    · have positive : 1 ≤ nextFailureCount streak progress := by
        unfold nextFailureCount
        split
        · exact Nat.le_add_left 1 streak
        · exact Nat.le_refl 1
      have most : nextFailureCount streak progress ≤ failureLimit := by
        unfold nextFailureCount
        split
        · exact below
        · exact Nat.succ_le_succ (Nat.zero_le 4)
      rcases Nat.lt_or_eq_of_le most with again | last
      · obtain ⟨s', retried, -, stored⟩ := live.recordFailure_below early error ids rfl again
        rw [retried]
        refine ⟨early, below, positive, again, ?_, stored⟩
        rw [retryTime, Int.mul_comm]
      · cases recorded : recordFailure fence error progress now ids s with
        | error _ => exact Or.inr (Or.inr last)
        | ok result =>
            obtain ⟨disposition, s'⟩ := result
            obtain ⟨rfl, -⟩ := live.recordFailure_reached (Nat.le_of_eq last.symm) recorded
            exact ⟨early, below, last⟩
    · rw [recordFailure_refused error progress ids
        (fun holds => early ((live.fence_iff now true).mp holds))]
      exact Or.inl (Int.not_lt.mp early)
  · rw [recordFailure_refused error progress ids (failed.not_fence now true)]
    exact Or.inr (Or.inl reached)

end Fence

namespace Faltering

def lease : ActorLease := ⟨localActor, "daemon", 1, 9223372036854775807⟩

/-- The run of a local request is attached under a lease that outlasts every clock. -/
def world : World := World.single.play
  [.submitForActor localActor ⟨⟨1⟩, "hello", "sha"⟩ 10 (.numbered 1),
    .acquireReadyActor "daemon" 20 9223372036854775807,
    .attachNextRun lease 8 30 (.numbered 3)]

def fence : FailureFence := ⟨lease, ⟨1⟩, ⟨3⟩⟩

/-- The work item of the request. -/
def work : WorkItemRow := newWorkItem ⟨1⟩ localActor .interactive .actorPrivate 10

theorem reachable : runtime.Reachable world :=
  reachable_play reachable_single (by decide +kernel)

/-- Four failures in a row, one refused call and progress. -/
def calls : List FenceCall :=
  [.recordFailure "model unavailable" .none 40 (.numbered 4),
    .recordFailure "model unavailable" .modelCheckpoint 50 (.numbered 5),
    .recordFailure "model unavailable" .none 60 (.numbered 6),
    .recordFailure "model unavailable" .none 70 (.numbered 7),
    .recordFailure "model unavailable" .none 9223372036854775807 (.numbered 8),
    .recordFailure "model unavailable" .none 80 (.numbered 9)]

end Faltering

end Codrik.Runtime.Sqlite
