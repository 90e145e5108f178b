import Codrik.Runtime.Sqlite.Invariant

/-! Leases as fencing tokens. The row that holds the generation is deleted by a release and
by recovery, so the count starts again and a token can come back; while no token is granted
twice, a superseded lease is refused for ever.
-/

namespace Codrik.Runtime.Sqlite

open Codrik.Relational
open Codrik.Transition

variable {s s' : Store}

-----------------------------------------------------------------------------------------
-- Where lease rows come from
-----------------------------------------------------------------------------------------

/-- The generation of the next lease that is granted anew. -/
def nextGeneration (s : Store) (actorId : ActorId) : Nat :=
  match s.actorLeases.find? (·.actorId = actorId) with
  | none => 1
  | some current => current.generation + 1

/-- A granted lease has a row of its own, and the other rows are old; it extends a live lease
of its owner or is granted anew.
-/
structure Grants (s s' : Store) (actorId : ActorId) (owner : String) (now : Timestamp)
    (lease : ActorLease) : Prop where
  actorId : lease.actorId = actorId
  ownerId : lease.ownerId = owner
  row : ∃ row ∈ s'.actorLeases, Owns lease row
  rows : ∀ row ∈ s'.actorLeases, row ∈ s.actorLeases ∨ Owns lease row
  origin : (∃ row ∈ s.actorLeases, Owns lease row ∧ row.expiresAt > now)
    ∨ (¬Extends s lease now ∧ lease.generation = nextGeneration s lease.actorId)

/-- A grant is refused, or comes from one of its branches. -/
theorem grantLease_grants {actorId : ActorId} {owner : String} {now leaseUntil : Timestamp}
    {answer : Option ActorLease}
    (granted : grantLease s actorId owner now leaseUntil = .ok (answer, s'))
    : (answer = none ∧ s' = s)
      ∨ ∃ lease, answer = some lease ∧ Grants s s' actorId owner now lease := by
  unfold grantLease at granted
  split at granted
  · rename_i none
    simp only [bind_eq_ok, execute_eq_ok] at granted
    obtain ⟨leases, inserted, result⟩ := granted
    cases result
    have mem_iff := fun row => Table.mem_insert? (a := row) inserted
    refine Or.inr ⟨_, rfl, rfl, rfl, ⟨_, (mem_iff _).mpr (Or.inr rfl), rfl, rfl, rfl⟩, ?_,
      Or.inr ⟨?_, by rw [nextGeneration, none]⟩⟩
    · intro row mem
      rcases (mem_iff row).mp mem with stored | rfl
      · exact Or.inl stored
      · exact Or.inr ⟨rfl, rfl, rfl⟩
    · rintro ⟨row, mem, same, -⟩
      exact Table.find?_eq_none.mp none row mem same
  · rename_i current found
    obtain ⟨stored, sameActor⟩ := Table.find?_some found
    have only : ∀ row ∈ s.actorLeases, row.actorId = actorId → row = current :=
      fun row mem same => Table.eq_of_clash mem stored (same.trans sameActor.symm)
    split at granted
    · rename_i live
      cases granted
      refine Or.inr ⟨_, rfl, rfl, rfl,
        ⟨_, Table.updateWhere_mem_of stored sameActor, sameActor, live.1, rfl⟩, ?_,
        Or.inl ⟨current, stored, ⟨sameActor, live.1, rfl⟩, live.2⟩⟩
      intro row' mem
      obtain ⟨row, known, rfl⟩ := Table.mem_updateWhere.mp mem
      split
      · rename_i same
        cases only row known same
        exact Or.inr ⟨same, live.1, rfl⟩
      · exact Or.inl known
    · split at granted
      · rename_i expired
        cases granted
        refine Or.inr ⟨_, rfl, rfl, rfl,
          ⟨_, Table.updateWhere_mem_of stored sameActor, sameActor, rfl, rfl⟩, ?_,
          Or.inr ⟨?_, by rw [nextGeneration, found]⟩⟩
        · intro row' mem
          obtain ⟨row, known, rfl⟩ := Table.mem_updateWhere.mp mem
          split
          · exact Or.inr ⟨‹_›, rfl, rfl⟩
          · exact Or.inl known
        · rintro ⟨row, mem, same, -, live⟩
          rw [only row mem same] at live
          exact absurd live (not_lt_of_ge expired)
      · cases granted
        exact Or.inl ⟨rfl, rfl⟩

theorem acquire_grants {ready : Option ActorId} {owner : String} {now leaseUntil : Timestamp}
    {answer : Option ActorLease}
    (acquired : acquire ready owner now leaseUntil s = .ok (answer, s'))
    : (answer = none ∧ s' = s)
      ∨ ∃ lease actorId, answer = some lease ∧ ready = some actorId
        ∧ Grants s s' actorId owner now lease := by
  simp only [acquire, bind_eq_ok] at acquired
  obtain ⟨_, _, rest⟩ := acquired
  split at rest
  · cases rest
    exact Or.inl ⟨rfl, rfl⟩
  · rcases grantLease_grants rest with ⟨none, same⟩ | ⟨lease, some', grants⟩
    · exact Or.inl ⟨none, same⟩
    · exact Or.inr ⟨lease, _, some', rfl, grants⟩

/-- The actor, owner and time of an acquisition, if the call is one that selects an actor. -/
def Call.acquisition (s : Store) : Call → Option (ActorId × String × Timestamp)
  | .acquireReadyActor owner now _ => (readyActor s owner now).map (·, owner, now)
  | .acquireReadyActorFor actorId owner now _ =>
      (readyActorFor s actorId owner now).map (·, owner, now)
  | _ => none

/-- How a committed call changes the leases: an acquisition grants one, a renewal extends
one, and all other calls can only delete rows.
-/
inductive LeaseStep (s s' : Store) (call : Call) : Answer → Prop
  | acquired {actorId : ActorId} {owner : String} {now : Timestamp} {lease : ActorLease}
      (selected : call.acquisition s = some (actorId, owner, now))
      (grants : Grants s s' actorId owner now lease)
    : LeaseStep s s' call (.acquired (some lease))
  | renewed {answer : Answer} {lease : ActorLease} {now leaseUntil : Timestamp}
      (isRenewal : call = .renewLease lease now leaseUntil)
      (current : CurrentLease s lease now)
      (rows : ∀ row' ∈ s'.actorLeases, row' ∈ s.actorLeases
        ∨ ∃ row ∈ s.actorLeases, Owns lease row ∧ row.expiresAt > now
          ∧ row' = { row with expiresAt := leaseUntil })
    : LeaseStep s s' call answer
  | kept {answer : Answer} (rows : ∀ row ∈ s'.actorLeases, row ∈ s.actorLeases)
      (silent : ∀ lease, answer ≠ .acquired (some lease))
    : LeaseStep s s' call answer

/-- Recovering candidates touches no lease. -/
theorem recoverCandidates_actorLeases {now : Timestamp}
    {candidates : List RecoveredUnknownOutcome}
    : (recoverCandidates now candidates s).2.actorLeases = s.actorLeases := by
  obtain ⟨_, _, same⟩ := recoverCandidates_store (s := s) now candidates
  rw [same]

/-- Every committed call is a lease step, by cases on the operation. -/
theorem perform_leases {call : Call} {answer : Answer}
    (performed : call.perform s = .ok (answer, s'))
    : LeaseStep s s' call answer := by
  have same : s'.actorLeases = s.actorLeases → (∀ lease, answer ≠ .acquired (some lease)) →
      LeaseStep s s' call answer :=
    fun same silent => .kept (fun row mem => same ▸ mem) silent
  cases call <;> simp only [Call.perform, answering_eq_ok, reading_eq_ok] at performed
  case ingest =>
    obtain ⟨_, done, rfl⟩ := performed
    exact same (ingest_sameExecution done).actorLeases (by simp)
  case submitForActor =>
    obtain ⟨_, done, rfl⟩ := performed
    exact same (submitForActor_sameExecution done).actorLeases (by simp)
  case cancelForActor =>
    obtain ⟨_, done, rfl⟩ := performed
    exact same (cancelForActor_sameExecution done).actorLeases (by simp)
  case ingestWebhook =>
    obtain ⟨_, done, rfl⟩ := performed
    exact same (ingestWebhook_sameExecution done).actorLeases (by simp)
  case acquireReadyActor owner now leaseUntil =>
    obtain ⟨_, done, rfl⟩ := performed
    rcases acquire_grants done with ⟨rfl, rfl⟩ | ⟨lease, actorId, rfl, ready, grants⟩
    · exact same rfl (by simp)
    · exact .acquired (by rw [Call.acquisition, ready]; rfl) grants
  case acquireReadyActorFor actorId owner now leaseUntil =>
    obtain ⟨_, done, rfl⟩ := performed
    rcases acquire_grants done with ⟨rfl, rfl⟩ | ⟨lease, actorId, rfl, ready, grants⟩
    · exact same rfl (by simp)
    · exact .acquired (by rw [Call.acquisition, ready]; rfl) grants
  case renewLease lease now leaseUntil =>
    obtain ⟨_, done, rfl⟩ := performed
    obtain ⟨current, rfl⟩ := renewLease_ok done
    refine .renewed rfl current ?_
    intro row' mem
    obtain ⟨row, stored, rfl⟩ := Table.mem_updateWhere.mp mem
    split
    · exact Or.inr ⟨row, stored, ‹_ ∧ _›.1, ‹_ ∧ _›.2, rfl⟩
    · exact Or.inl stored
  case releaseLease =>
    obtain ⟨_, done, rfl⟩ := performed
    cases done
    exact .kept (fun row mem => (Table.mem_deleteWhere.mp mem).1) (by simp)
  case attachNextRun =>
    obtain ⟨_, done, rfl⟩ := performed
    exact same (attachNextRun_sameLeases done).actorLeases (by simp)
  case newerControlEvent =>
    obtain ⟨rfl, _, -, rfl⟩ := performed
    exact same rfl (by simp)
  case checkpointRun =>
    obtain ⟨_, done, rfl⟩ := performed
    simp only [checkpointRun, incorporateEvents, insertMessages, bind_eq_ok] at done
    obtain ⟨_, _, m, ⟨_, _, marked⟩, t, attempts, _, ⟨_, _, stored⟩, result⟩ := done
    cases stored
    cases result
    obtain ⟨_, rfl⟩ := checkpointAttempts_ok attempts
    exact same (incorporateEach_sameLeases marked).actorLeases (by simp)
  case finalizeRun =>
    obtain ⟨_, done, rfl⟩ := performed
    exact same (finalizeRun_sameLeases done).actorLeases (by simp)
  case cancelRun =>
    obtain ⟨_, done, rfl⟩ := performed
    obtain ⟨-, -, _, _, t, -, -, unchanged, rfl⟩ := cancelRun_ok done
    exact same unchanged.sameLeases.actorLeases (by simp)
  case prepareAttempt =>
    obtain ⟨_, done, rfl⟩ := performed
    simp only [prepareAttempt, bind_eq_ok] at done
    obtain ⟨_, _, _, _, _, _, _, _, result⟩ := done
    cases result
    exact same rfl (by simp)
  case markAttemptRunning =>
    obtain ⟨_, done, rfl⟩ := performed
    obtain ⟨-, -, rfl⟩ := transitionAttempt_ok done
    exact same rfl (by simp)
  case rejectPreparedAttempt =>
    obtain ⟨_, done, rfl⟩ := performed
    unfold rejectPreparedAttempt at done
    split at done
    · cases done
    · obtain ⟨-, -, rfl⟩ := transitionAttempt_ok done
      exact same rfl (by simp)
  case finishAttempt =>
    obtain ⟨_, done, rfl⟩ := performed
    obtain ⟨-, -, rfl⟩ := transitionAttempt_ok done
    exact same rfl (by simp)
  case recoverAttempt =>
    obtain ⟨_, done, rfl⟩ := performed
    obtain ⟨_, rfl⟩ := recoverAttempt_ok done
    exact same rfl (by simp)
  case blockUnknownAttempt =>
    obtain ⟨_, done, rfl⟩ := performed
    simp only [blockUnknownAttempt, bind_eq_ok] at done
    obtain ⟨_, _, _, _, result⟩ := done
    cases result
    exact same rfl (by simp)
  case unresolvedAttempts =>
    obtain ⟨rfl, _, -, rfl⟩ := performed
    exact same rfl (by simp)
  case beginStaging =>
    obtain ⟨_, done, rfl⟩ := performed
    simp only [beginStaging, bind_eq_ok] at done
    obtain ⟨_, _, _, _, _, _, result⟩ := done
    cases result
    exact same rfl (by simp)
  case deliverBundle step =>
    obtain ⟨_, done, rfl⟩ := performed
    obtain ⟨_, rfl, -⟩ := step.perform_ok done
    exact same rfl (by simp)
  case commitStagedExecution =>
    obtain ⟨_, done, rfl⟩ := performed
    obtain ⟨-, -, _, _, rfl⟩ := commitStagedExecution_ok done
    exact same rfl (by simp)
  case recordFailure =>
    obtain ⟨_, done, rfl⟩ := performed
    obtain ⟨row, work, -, -, -, ⟨-, -, rfl⟩ | ⟨-, -, fails⟩⟩ := recordFailure_ok done
    · exact same rfl (by simp)
    · obtain ⟨_, _, t, -, -, unchanged, rfl⟩ := fails
      exact same unchanged.sameLeases.actorLeases (by simp)
  case recordProgress =>
    obtain ⟨_, done, rfl⟩ := performed
    simp only [recordProgress, bind_eq_ok] at done
    obtain ⟨_, _, result⟩ := done
    cases result
    exact same rfl (by simp)
  case recoverStartup =>
    obtain ⟨_, done, rfl⟩ := performed
    cases done
    refine .kept (fun row mem => ?_) (by simp)
    exact recoverCandidates_actorLeases ▸ (Table.mem_deleteWhere.mp mem).1
  case recoverShutdown =>
    obtain ⟨_, done, rfl⟩ := performed
    cases done
    exact .kept (fun row mem => (Table.mem_deleteWhere.mp mem).1) (by simp)

-----------------------------------------------------------------------------------------
-- Tokens
-----------------------------------------------------------------------------------------

/-- What the store compares of a presented lease. -/
def token (lease : ActorLease) : ActorId × String × Nat :=
  (lease.actorId, lease.ownerId, lease.generation)

/-- No row is the lease. -/
def Absent (s : Store) (lease : ActorLease) : Prop :=
  ∀ row ∈ s.actorLeases, ¬Owns lease row

theorem owns_iff {lease : ActorLease} {row : LeaseRow}
    : Owns lease row ↔ (row.actorId, row.ownerId, row.generation) = token lease := by
  simp [Owns, token]

/-- A row belongs to one token only. -/
theorem token_eq_of_owns {a b : ActorLease} {row : LeaseRow} (first : Owns a row)
    (second : Owns b row)
    : token a = token b :=
  (owns_iff.mp first).symm.trans (owns_iff.mp second)

theorem Owns.of_token_eq {a b : ActorLease} {row : LeaseRow} (owns : Owns a row)
    (same : token a = token b)
    : Owns b row :=
  owns_iff.mpr ((owns_iff.mp owns).trans same)

/-- The lease that a call presents as its fencing token. -/
def Call.presented : Call → Option ActorLease
  | .renewLease lease _ _ => some lease
  | .attachNextRun lease _ _ _ => some lease
  | .newerControlEvent lease _ _ => some lease
  | .checkpointRun command _ => some command.run.lease
  | .finalizeRun command _ _ => some command.run.lease
  | .cancelRun run _ _ _ => some run.lease
  | .prepareAttempt run _ _ => some run.lease
  | .markAttemptRunning run _ _ => some run.lease
  | .rejectPreparedAttempt run _ _ _ => some run.lease
  | .finishAttempt run _ _ _ => some run.lease
  | .blockUnknownAttempt run _ _ => some run.lease
  | .unresolvedAttempts run => some run.lease
  | .commitStagedExecution _ run _ _ _ _ => some run.lease
  | .recordFailure fence _ _ _ _ => some fence.lease
  | .recordProgress fence _ => some fence.lease
  | _ => none

theorem CurrentLease.owned {lease : ActorLease} {now : Timestamp}
    (current : CurrentLease s lease now)
    : ∃ row ∈ s.actorLeases, Owns lease row := by
  obtain ⟨row, stored, owns, -⟩ := current
  exact ⟨row, stored, owns⟩

/-- A call succeeds only with a lease that is stored, by cases on the operation. -/
theorem perform_owned {call : Call} {answer : Answer}
    (performed : call.perform s = .ok (answer, s')) {lease : ActorLease}
    (presents : call.presented = some lease)
    : ∃ row ∈ s.actorLeases, Owns lease row := by
  cases call <;> simp only [Call.presented, reduceCtorEq, Option.some.injEq] at presents <;>
    subst presents <;>
    simp only [Call.perform, answering_eq_ok, reading_eq_ok] at performed
  case renewLease =>
    obtain ⟨_, done, -⟩ := performed
    exact (renewLease_ok done).1.owned
  case attachNextRun =>
    obtain ⟨_, done, -⟩ := performed
    exact (attachNextRun_ok done).2.1.owned
  case newerControlEvent =>
    obtain ⟨-, _, done, -⟩ := performed
    simp only [newerControlEvent, bind_eq_ok, ensureCurrentLease_eq_ok] at done
    obtain ⟨_, current, -⟩ := done
    exact current.owned
  case checkpointRun =>
    obtain ⟨_, done, -⟩ := performed
    simp only [checkpointRun, bind_eq_ok] at done
    obtain ⟨_, valid, -⟩ := done
    obtain ⟨row, work, valid⟩ := validateRun_ok valid
    exact valid.current.owned
  case finalizeRun =>
    obtain ⟨_, done, -⟩ := performed
    obtain ⟨⟨row, work, valid⟩, -⟩ := finalizeRun_ok done
    exact valid.current.owned
  case cancelRun =>
    obtain ⟨_, done, -⟩ := performed
    obtain ⟨row, work, valid⟩ := (cancelRun_ok done).valid
    exact valid.current.owned
  case prepareAttempt =>
    obtain ⟨_, done, -⟩ := performed
    simp only [prepareAttempt, bind_eq_ok] at done
    obtain ⟨_, valid, -⟩ := done
    obtain ⟨row, work, valid⟩ := validateRun_ok valid
    exact valid.current.owned
  case markAttemptRunning =>
    obtain ⟨_, done, -⟩ := performed
    obtain ⟨⟨row, work, valid⟩, -⟩ := transitionAttempt_ok done
    exact valid.current.owned
  case rejectPreparedAttempt =>
    obtain ⟨_, done, -⟩ := performed
    unfold rejectPreparedAttempt at done
    split at done
    · cases done
    · obtain ⟨⟨row, work, valid⟩, -⟩ := transitionAttempt_ok done
      exact valid.current.owned
  case finishAttempt =>
    obtain ⟨_, done, -⟩ := performed
    obtain ⟨⟨row, work, valid⟩, -⟩ := transitionAttempt_ok done
    exact valid.current.owned
  case blockUnknownAttempt =>
    obtain ⟨_, done, -⟩ := performed
    simp only [blockUnknownAttempt, bind_eq_ok] at done
    obtain ⟨_, valid, -⟩ := done
    obtain ⟨row, work, valid⟩ := validateRun_ok valid
    exact valid.current.owned
  case unresolvedAttempts =>
    obtain ⟨-, _, done, -⟩ := performed
    simp only [unresolvedAttempts, bind_eq_ok, require_eq_ok] at done
    obtain ⟨_, ⟨row, stored, owns, -⟩, -⟩ := done
    exact ⟨row, stored, owns⟩
  case commitStagedExecution =>
    obtain ⟨_, done, -⟩ := performed
    obtain ⟨⟨row, stored, owns, -⟩, -⟩ := commitStagedExecution_ok done
    exact ⟨row, stored, owns⟩
  case recordFailure =>
    obtain ⟨_, done, -⟩ := performed
    simp only [recordFailure, ensureFailureFence, bind_eq_ok, require_eq_ok] at done
    obtain ⟨_, ⟨row, stored, owns, -⟩, -⟩ := done
    exact ⟨row, stored, owns⟩
  case recordProgress =>
    obtain ⟨_, done, -⟩ := performed
    simp only [recordProgress, ensureFailureFence, bind_eq_ok, require_eq_ok] at done
    obtain ⟨_, ⟨row, stored, owns, -⟩, -⟩ := done
    exact ⟨row, stored, owns⟩

/-- The lease is dead: every call that presents it fails and changes nothing, and releasing
it again removes no row.
-/
structure Refused (w : World) (lease : ActorLease) : Prop where
  calls : ∀ call presented, call.presented = some presented → token presented = token lease →
    (∃ error, call.perform w.store = .error error) ∧ w.after call = w
  release : ∀ again, token again = token lease →
    (w.after (.releaseLease again)).store.actorLeases = w.store.actorLeases

/-- A lease without a row is dead. -/
theorem Absent.refused {w : World} {lease : ActorLease} (absent : Absent w.store lease)
    : Refused w lease where
  calls call presented presents same := by
    cases performed : call.perform w.store with
    | error error => exact ⟨⟨error, rfl⟩, by rw [World.after, performed]⟩
    | ok result =>
        obtain ⟨row, stored, owns⟩ := perform_owned performed presents
        exact absurd (owns.of_token_eq same) (absent row stored)
  release again same := by
    change w.store.actorLeases.deleteWhere (Owns again) = _
    refine Table.deleteWhere_eq_self (fun row stored owns => ?_)
    exact absent row stored (owns.of_token_eq same)

-----------------------------------------------------------------------------------------
-- Runs that never grant a token twice
-----------------------------------------------------------------------------------------

/-- A call that acquires an actor extends the owner's live lease, or the owner has not held
the next generation of the actor before.
-/
def FreshGrant (w : World) (call : Call) : Prop :=
  ∀ selected ∈ call.acquisition w.store,
    (∃ row ∈ w.store.actorLeases, row.actorId = selected.1 ∧ row.ownerId = selected.2.1
      ∧ row.expiresAt > selected.2.2)
    ∨ ∀ lease ∈ w.granted,
      token lease ≠ (selected.1, selected.2.1, nextGeneration w.store selected.1)

instance (w : World) : DecidablePred (FreshGrant w) :=
  fun call => inferInstanceAs (Decidable (∀ selected ∈ call.acquisition w.store, _))

/-- A committed call grants at most one lease anew. -/
theorem World.commit_granted (w : World) {call : Call} {answer : Answer} {s : Store}
    (performed : call.perform w.store = .ok (answer, s))
    : (w.commit call answer s).granted = w.granted
      ∨ ∃ lease actorId owner now, call.acquisition w.store = some (actorId, owner, now)
        ∧ Grants w.store s actorId owner now lease ∧ ¬Extends w.store lease now
        ∧ (w.commit call answer s).granted = lease :: w.granted := by
  cases perform_leases performed with
  | acquired selected grants =>
      rename_i actorId owner now lease
      by_cases extends' : Extends w.store lease now
      · left
        cases call <;> simp only [Call.acquisition, Option.map_eq_some_iff, reduceCtorEq] at selected
        all_goals
          obtain ⟨_, _, same⟩ := selected
          cases same
          exact if_pos extends'
      · refine Or.inr ⟨lease, actorId, owner, now, selected, grants, extends', ?_⟩
        cases call <;> simp only [Call.acquisition, Option.map_eq_some_iff, reduceCtorEq] at selected
        all_goals
          obtain ⟨_, _, same⟩ := selected
          cases same
          exact if_neg extends'
  | renewed isRenewal =>
      subst isRenewal
      exact Or.inl rfl
  | kept _ silent =>
      left
      unfold World.commit
      split
      · exact absurd rfl (silent _)
      · exact absurd rfl (silent _)
      all_goals rfl

/-- A lease granted anew by a fresh grant has a token of its own. -/
theorem Grants.token_fresh {w : World} {actorId : ActorId} {owner : String} {now : Timestamp}
    {lease : ActorLease} {call : Call} {s : Store} (fresh : FreshGrant w call)
    (selected : call.acquisition w.store = some (actorId, owner, now))
    (grants : Grants w.store s actorId owner now lease) (anew : ¬Extends w.store lease now)
    : ∀ earlier ∈ w.granted, token earlier ≠ token lease := by
  rcases fresh _ selected with ⟨row, stored, sameActor, sameOwner, live⟩ | unrepeated
  · exact absurd ⟨row, stored, sameActor.trans grants.actorId.symm,
      sameOwner.trans grants.ownerId.symm, live⟩ anew
  · rcases grants.origin with ⟨row, stored, owns, live⟩ | ⟨-, generation⟩
    · exact absurd ⟨row, stored, owns.1, owns.2.1, live⟩ anew
    · intro earlier mem same
      refine unrepeated earlier mem (same.trans ?_)
      simp [token, grants.actorId, grants.ownerId, generation]

/-- A granted lease that has no row never gets one again. -/
theorem Absent.after {w : World} {call : Call} {lease : ActorLease}
    (absent : Absent w.store lease) (granted : token lease ∈ w.granted.map token)
    (fresh : FreshGrant w call)
    : Absent (w.after call).store lease := by
  rcases w.after_cases call with same | ⟨answer, s, performed, same⟩
  · exact same.symm ▸ absent
  · rw [same, World.commit_store]
    cases perform_leases performed with
    | @acquired actorId owner now later selected grants =>
        intro row mem owns
        rcases grants.rows row mem with stored | ownsLater
        · exact absent row stored owns
        · have sameToken := token_eq_of_owns ownsLater owns
          rcases grants.origin with ⟨old, stored, ownsOld, -⟩ | ⟨anew, -⟩
          · exact absent old stored (ownsOld.of_token_eq sameToken)
          · obtain ⟨earlier, listed, sameEarlier⟩ := List.mem_map.mp granted
            exact grants.token_fresh fresh selected anew earlier listed
              (sameEarlier.trans sameToken.symm)
    | renewed _ _ rows =>
        intro row' mem owns
        rcases rows row' mem with stored | ⟨row, stored, -, -, rfl⟩
        · exact absent row' stored owns
        · exact absent row stored owns
    | kept rows => exact fun row mem => absent row (rows row mem)

/-- Grants are never forgotten. -/
theorem World.after_granted (w : World) (call : Call)
    : ∀ lease ∈ w.granted, lease ∈ (w.after call).granted := by
  intro lease mem
  rcases w.after_cases call with same | ⟨answer, s, performed, same⟩
  · exact same.symm ▸ mem
  · rw [same]
    rcases w.commit_granted performed with unchanged | ⟨later, _, _, _, _, _, _, added⟩
    · exact unchanged ▸ mem
    · exact added ▸ List.mem_cons_of_mem later mem

/-- The histories in which no acquisition repeats a token. -/
def fencing : System World Call := runtime.restrict FreshGrant

/-- Along such a history no token is granted twice, by induction. -/
theorem fencing_neverTwice {w : World} (reached : fencing.Reachable w)
    : (w.granted.map token).Nodup := by
  refine reached.invariant (J := fun w => (w.granted.map token).Nodup) ?_ ?_
  · rintro _ ⟨actors, identities, rfl⟩
    exact List.nodup_nil
  · rintro w call _ - once ⟨fresh, -, rfl⟩
    rcases w.after_cases call with same | ⟨answer, s, performed, same⟩
    · exact same.symm ▸ once
    · rw [same]
      rcases w.commit_granted performed with unchanged |
        ⟨lease, actorId, owner, now, selected, grants, anew, added⟩
      · exact unchanged ▸ once
      · rw [added, List.map_cons, List.nodup_cons]
        refine ⟨fun again => ?_, once⟩
        obtain ⟨earlier, mem, sameToken⟩ := List.mem_map.mp again
        exact grants.token_fresh fresh selected anew earlier mem sameToken

/-- A granted lease without a row is refused in every later state, by induction. -/
theorem Absent.refused_later {w w' : World} {lease : ActorLease} (reached : fencing.Reachable w)
    (absent : Absent w.store lease) (granted : token lease ∈ w.granted.map token)
    (run : fencing.Run w w')
    : Refused w' lease := by
  have kept := run.invariant
    (J := fun w => Absent w.store lease ∧ token lease ∈ w.granted.map token)
    (fun w call w' _ kept step => by
      obtain ⟨fresh, -, rfl⟩ := step
      obtain ⟨earlier, mem, same⟩ := List.mem_map.mp kept.2
      exact ⟨kept.1.after kept.2 fresh,
        List.mem_map.mpr ⟨earlier, w.after_granted call earlier mem, same⟩⟩)
    reached ⟨absent, granted⟩
  exact kept.2.1.refused

/-- Leases are fencing tokens: no token is granted twice, and a lease that was released, or
after which another lease was granted for its actor, is refused for ever.
-/
structure LeasesFence (w : World) : Prop where
  neverTwice : (w.granted.map token).Nodup
  released : ∀ lease, token lease ∈ w.granted.map token →
    ∀ w', fencing.Run (w.after (.releaseLease lease)) w' → Refused w' lease
  superseded : ∀ lease, token lease ∈ w.granted.map token →
    ∀ call w₁ later, fencing.Step w call w₁ → w₁.granted = later :: w.granted →
      later.actorId = lease.actorId → ∀ w', fencing.Run w₁ w' → Refused w' lease

namespace Returning

def lease : ActorLease := ⟨localActor, "daemon", 1, 1000⟩

/-- A lease of the actor is granted and released. -/
def world : World := World.single.play
  [.submitForActor localActor ⟨⟨1⟩, "hello", "sha"⟩ 10 (.numbered 1),
    .acquireReadyActor "daemon" 20 1000]

theorem reachable : runtime.Reachable world :=
  reachable_play reachable_single (by decide +kernel)

theorem fenced : fencing.Reachable world :=
  restricted_play (.initial ⟨_, _, rfl⟩) (by decide +kernel) (by decide +kernel)

end Returning

end Codrik.Runtime.Sqlite
